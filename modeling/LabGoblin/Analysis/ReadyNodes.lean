import LabGoblin.Model.AssetReadiness

/-!
# Ready and constrained nodes

Each loop over the rows makes an index of the pairs that its rows are about, so the constraints
are a function of the sets of pairs. What a row is about is stated over its fields.
-/

set_option autoImplicit false

namespace LabGoblin.Readiness

open Interactive

variable {repr : Json → String}

/-! ## What the rows are about -/

/-- The identifier and the node of a template row, where it has both. -/
def templatePair (repr : Json → String) (t : Dict) : Option (ℤ × String) :=
  if (Dict.get t "node").truthy then
    match (Dict.get t "vmid").toInt with
    | .ok vmid => some (vmid, (Dict.get t "node").str repr)
    | .error _ => none
  else none

/-- The key and the node of an ISO item, where it has both. -/
def isoPair (repr : Json → String) (i : Dict) : Option (String × String) :=
  if (Dict.get i "node").truthy && (isoKey i).truthy then
    some ((isoKey i).str repr, (Dict.get i "node").str repr)
  else none

/-- Some row discovers a template on a node. -/
def TemplateOn (repr : Json → String) (templates : List Dict) (vmid : ℤ) (node : String) : Prop :=
  ∃ t ∈ templates, (Dict.get t "vmid").toInt = .ok vmid ∧ (Dict.get t "node").truthy = true ∧
    (Dict.get t "node").str repr = node

/-- Some item discovers an ISO key on a node. -/
def IsoOn (repr : Json → String) (isoItems : List Dict) (key node : String) : Prop :=
  ∃ i ∈ isoItems, (isoKey i).truthy = true ∧ (isoKey i).str repr = key ∧
    (Dict.get i "node").truthy = true ∧ (Dict.get i "node").str repr = node

/-- A template row is about a pair when its VMID is a number and its node is not empty. -/
theorem templatePair_eq_some_iff {t : Dict} {vmid : ℤ} {node : String} :
    templatePair repr t = some (vmid, node) ↔
      (Dict.get t "vmid").toInt = .ok vmid ∧ (Dict.get t "node").truthy = true ∧
        (Dict.get t "node").str repr = node := by
  unfold templatePair
  by_cases hnode : (Dict.get t "node").truthy = true
  · rw [if_pos hnode]
    cases hvmid : (Dict.get t "vmid").toInt with
    | error e => simp
    | ok n => simp [hnode]
  · simp [hnode]

/-- An ISO item is about a pair when its key and its node are not empty. -/
theorem isoPair_eq_some_iff {i : Dict} {key node : String} :
    isoPair repr i = some (key, node) ↔
      (isoKey i).truthy = true ∧ (isoKey i).str repr = key ∧
        (Dict.get i "node").truthy = true ∧ (Dict.get i "node").str repr = node := by
  unfold isoPair
  by_cases hnode : (Dict.get i "node").truthy = true
  · by_cases hkey : (isoKey i).truthy = true
    · simp [hnode, hkey]
    · simp [hkey]
  · simp [hnode]

/-- The pairs of the template rows are the templates that they discover on nodes. -/
theorem mem_templatePairs {templates : List Dict} {vmid : ℤ} {node : String} :
    (vmid, node) ∈ templates.filterMap (templatePair repr) ↔
      TemplateOn repr templates vmid node := by
  simp only [List.mem_filterMap, templatePair_eq_some_iff, TemplateOn]

/-- The pairs of the ISO items are the keys that they discover on nodes. -/
theorem mem_isoPairs {isoItems : List Dict} {key node : String} :
    (key, node) ∈ isoItems.filterMap (isoPair repr) ↔ IsoOn repr isoItems key node := by
  simp only [List.mem_filterMap, isoPair_eq_some_iff, IsoOn]

/-! ## The loops over the rows -/

/-- One turn of the loop over the templates. -/
theorem addTemplate_eq (index : Index ℤ String) (t : Dict) :
    addTemplate repr index t =
      ((templatePair repr t).elim index fun pair => index.add pair.1 pair.2) := by
  unfold addTemplate templatePair
  dsimp only
  split
  · rename_i hnull
    have hint : (Dict.get t "vmid").toInt = .error .type := by rw [hnull]; rfl
    simp [hint]
  · cases hnode : (Dict.get t "node").truthy with
    | false => simp
    | true => cases hint : (Dict.get t "vmid").toInt <;> simp

/-- The whole loop makes the index of the pairs. -/
theorem foldl_addTemplate (templates : List Dict) (index : Index ℤ String) :
    templates.foldl (addTemplate repr) index =
      (templates.filterMap (templatePair repr)).foldl (fun index pair => index.add pair.1 pair.2)
        index := by
  induction templates generalizing index with
  | nil => rfl
  | cons t templates ih =>
    rw [List.foldl_cons, ih, addTemplate_eq]
    cases hpair : templatePair repr t with
    | none => rw [List.filterMap_cons_none hpair, Option.elim_none]
    | some pair => rw [List.filterMap_cons_some hpair, List.foldl_cons, Option.elim_some]

/-- One turn of the loop over the ISO items. -/
theorem addIso_eq (indexes : IsoIndexes) (i : Dict) :
    indexes.addIso repr i =
      ((isoPair repr i).elim indexes fun pair =>
        ⟨indexes.isoByContent.add pair.1 pair.2, indexes.isoByNode.add pair.2 pair.1⟩) := by
  unfold IsoIndexes.addIso isoPair
  dsimp only
  cases (Dict.get i "node").truthy with
  | false => rfl
  | true =>
    cases (isoKey i).truthy with
    | false => rfl
    | true => rfl

/-- The whole loop makes the index of the pairs and the index of the pairs turned around. -/
theorem foldl_addIso (isoItems : List Dict) (indexes : IsoIndexes) :
    isoItems.foldl (IsoIndexes.addIso repr) indexes =
      ⟨(isoItems.filterMap (isoPair repr)).foldl (fun index pair => index.add pair.1 pair.2)
          indexes.isoByContent,
        ((isoItems.filterMap (isoPair repr)).map Prod.swap).foldl
          (fun index pair => index.add pair.1 pair.2) indexes.isoByNode⟩ := by
  induction isoItems generalizing indexes with
  | nil => rfl
  | cons i isoItems ih =>
    rw [List.foldl_cons, ih, addIso_eq]
    cases hpair : isoPair repr i with
    | none => rw [List.filterMap_cons_none hpair, Option.elim_none]
    | some pair =>
      rw [List.filterMap_cons_some hpair, Option.elim_some]
      rfl

/-- The indexes that the loops make of the rows. -/
def templateIndex (repr : Json → String) (templates : List Dict) : Index ℤ String :=
  Index.ofPairs (templates.filterMap (templatePair repr))

def isoIndexes (repr : Json → String) (isoItems : List Dict) : IsoIndexes where
  isoByContent := Index.ofPairs (isoItems.filterMap (isoPair repr))
  isoByNode := Index.ofPairs ((isoItems.filterMap (isoPair repr)).map Prod.swap)

/-- The loop over the template rows makes their index. -/
theorem foldl_addTemplate_empty (templates : List Dict) :
    templates.foldl (addTemplate repr) ∅ = templateIndex repr templates :=
  foldl_addTemplate templates ∅

/-- The loop over the ISO items makes their indexes. -/
theorem foldl_addIso_empty (isoItems : List Dict) :
    isoItems.foldl (IsoIndexes.addIso repr) {} = isoIndexes repr isoItems :=
  foldl_addIso isoItems {}

/-- The order of the template rows does not matter for their index. -/
theorem templateIndex_perm {templates templates' : List Dict} (h : templates.Perm templates') :
    templateIndex repr templates = templateIndex repr templates' :=
  Index.ofPairs_congr fun _ => (h.filterMap _).mem_iff

/-- The order of the ISO items does not matter for their indexes. -/
theorem isoIndexes_perm {isoItems isoItems' : List Dict} (h : isoItems.Perm isoItems') :
    isoIndexes repr isoItems = isoIndexes repr isoItems' := by
  have hpairs := h.filterMap (isoPair repr)
  unfold isoIndexes
  rw [Index.ofPairs_congr fun _ => hpairs.mem_iff,
    Index.ofPairs_congr fun _ => (hpairs.map Prod.swap).mem_iff]

/-! ## What a node lacks -/

/-- Sorting a set keeps its members. -/
@[simp]
theorem mem_sorted {α : Type} [LinearOrder α] {s : Finset α} {a : α} : a ∈ sorted s ↔ a ∈ s :=
  Finset.mem_sort _

/-- A sorted set lists no member twice. -/
theorem nodup_sorted {α : Type} [LinearOrder α] {s : Finset α} : (sorted s).Nodup :=
  Finset.sort_nodup _ _

/-- A template is missing on a node when some row discovers it elsewhere and none there. -/
theorem mem_missingTemplates {templates : List Dict} {vmid : ℤ} {node : String} :
    vmid ∈ missingTemplates (templateIndex repr templates) node ↔
      (∃ other, TemplateOn repr templates vmid other) ∧ ¬TemplateOn repr templates vmid node := by
  rw [missingTemplates, mem_sorted, Index.mem_lacking, templateIndex, Index.mem_ofPairs,
    Index.mem_values_ofPairs]
  simp only [mem_templatePairs]

/-- An ISO key is missing on a node when some item discovers it elsewhere and none there. -/
theorem mem_missingIsos {isoItems : List Dict} {key node : String} :
    key ∈ missingIsos (isoIndexes repr isoItems) node ↔
      (∃ other, IsoOn repr isoItems key other) ∧ ¬IsoOn repr isoItems key node := by
  have hkey : key ∈ (isoIndexes repr isoItems).isoByContent.keys ↔
      ∃ other, IsoOn repr isoItems key other := by
    rw [Finmap.mem_keys]
    simp only [isoIndexes, Index.mem_ofPairs, mem_isoPairs]
  have hvalues : key ∈ (isoIndexes repr isoItems).isoByNode.values node ↔
      IsoOn repr isoItems key node := by
    have hswap : (node, key) ∈ (isoItems.filterMap (isoPair repr)).map Prod.swap ↔
        (key, node) ∈ isoItems.filterMap (isoPair repr) := by
      constructor
      · intro h
        obtain ⟨pair, hpair, heq⟩ := List.mem_map.mp h
        have hback : pair = (key, node) := by rw [← Prod.swap_swap pair, heq]; rfl
        exact hback ▸ hpair
      · intro h
        exact List.mem_map.mpr ⟨(key, node), h, rfl⟩
    simp only [isoIndexes, Index.mem_values_ofPairs]
    rw [hswap, mem_isoPairs]
  unfold missingIsos
  by_cases hempty : (isoIndexes repr isoItems).isoByContent.keys = ∅
  · have hnone : ¬∃ other, IsoOn repr isoItems key other := by
      rw [← hkey, hempty]
      exact Finset.notMem_empty key
    simp [hempty, hnone]
  · simp only [hempty, if_false, mem_sorted, Finset.mem_filter, hkey, hvalues]

/-- No key is reported twice for a node. -/
theorem missingIsos_nodup {indexes : IsoIndexes} {node : String} :
    (missingIsos indexes node).Nodup := by
  unfold missingIsos
  dsimp only
  split
  · exact List.nodup_nil
  · exact nodup_sorted

/-! ## The constraints -/

/-- Whether a policy spreads the machines: it is one of the two balancing ones, and there is more
than one online node to spread them over. -/
def Spreads (onlineNodes : Finset String) (placementPolicy : Option String) : Prop :=
  (placementPolicy = some "balanced" ∨ placementPolicy = some "prefer_default_then_balance") ∧
    ∃ a ∈ onlineNodes, ∃ b ∈ onlineNodes, a ≠ b

/-- The nodes that have to hold every asset: the online ones where the policy spreads the machines,
and else the eligible ones. -/
def Required (onlineNodes eligibleNodes : Finset String) (placementPolicy : Option String)
    (node : String) : Prop :=
  Spreads onlineNodes placementPolicy ∧ node ∈ onlineNodes ∨
    ¬ Spreads onlineNodes placementPolicy ∧ node ∈ eligibleNodes

/-- The set that the code requires holds just the required nodes. -/
theorem mem_requiredNodes {onlineNodes eligibleNodes : Finset String}
    {placementPolicy : Option String} {node : String} :
    node ∈ requiredNodes onlineNodes eligibleNodes placementPolicy ↔
      Required onlineNodes eligibleNodes placementPolicy node := by
  have hspreads : (placementPolicy ∈ [some "balanced", some "prefer_default_then_balance"] ∧
      1 < onlineNodes.card) ↔ Spreads onlineNodes placementPolicy := by
    unfold Spreads
    rw [Finset.one_lt_card]
    simp
  unfold requiredNodes Required
  by_cases h : Spreads onlineNodes placementPolicy
  · rw [if_pos (hspreads.mpr h)]
    simp [h]
  · rw [if_neg fun hcode => h (hspreads.mp hcode)]
    simp [h]

/-- The rows `templates` and `isoItems` divide the nodes that policy, online and eligible nodes
require into ready and constrained ones, and every node lacks what is not on it. -/
structure Classified (repr : Json → String) (onlineNodes eligibleNodes : Finset String)
    (templates isoItems : List Dict) (placementPolicy : Option String) (c : Constraints) :
    Prop where
  ready : ∀ node, node ∈ c.assetReadyNodes ↔
    Required onlineNodes eligibleNodes placementPolicy node ∧
    (∀ vmid other, TemplateOn repr templates vmid other → TemplateOn repr templates vmid node) ∧
    ∀ key other, IsoOn repr isoItems key other → IsoOn repr isoItems key node
  readyOnce : c.assetReadyNodes.Nodup
  constrained : ∀ node, node ∈ c.constrainedNodes ↔
    Required onlineNodes eligibleNodes placementPolicy node ∧ node ∉ c.assetReadyNodes
  constrainedOnce : c.constrainedNodes.Nodup
  templatesReported : ∀ node, node ∈ c.missingTemplatesByNode ↔
    Required onlineNodes eligibleNodes placementPolicy node ∧
      ∃ vmid, (∃ other, TemplateOn repr templates vmid other) ∧
        ¬TemplateOn repr templates vmid node
  missingTemplates : ∀ node missing, c.missingTemplatesByNode.lookup node = some missing →
    missing.Nodup ∧ ∀ vmid, vmid ∈ missing ↔
      (∃ other, TemplateOn repr templates vmid other) ∧ ¬TemplateOn repr templates vmid node
  isosReported : ∀ node, node ∈ c.missingIsosByNode ↔
    Required onlineNodes eligibleNodes placementPolicy node ∧
      ∃ key, (∃ other, IsoOn repr isoItems key other) ∧ ¬IsoOn repr isoItems key node
  missingIsos : ∀ node missing, c.missingIsosByNode.lookup node = some missing →
    missing.Nodup ∧ ∀ key, key ∈ missing ↔
      (∃ other, IsoOn repr isoItems key other) ∧ ¬IsoOn repr isoItems key node

/-- The constraints are the same for the rows in any other order. -/
def OrderFree (repr : Json → String) (onlineNodes eligibleNodes : Finset String)
    (templates isoItems : List Dict) (placementPolicy : Option String) : Prop :=
  ∀ templates' isoItems', templates.Perm templates' → isoItems.Perm isoItems' →
    computeAssetConstraints repr onlineNodes eligibleNodes templates' isoItems' placementPolicy =
      computeAssetConstraints repr onlineNodes eligibleNodes templates isoItems placementPolicy

section

variable {templates isoItems : List Dict} {required : Finset String} {node : String}

/-- A node is reported for templates when it is required and lacks one. -/
theorem mem_reports_missingTemplates :
    node ∈ reports (missingTemplates (templateIndex repr templates)) (sorted required) ↔
      node ∈ required ∧ ∃ vmid, (∃ other, TemplateOn repr templates vmid other) ∧
        ¬TemplateOn repr templates vmid node := by
  rw [mem_reports, mem_sorted]
  simp only [mem_missingTemplates]

/-- A node is reported for ISO images when it is required and lacks one. -/
theorem mem_reports_missingIsos :
    node ∈ reports (missingIsos (isoIndexes repr isoItems)) (sorted required) ↔
      node ∈ required ∧ ∃ key, (∃ other, IsoOn repr isoItems key other) ∧
        ¬IsoOn repr isoItems key node := by
  rw [mem_reports, mem_sorted]
  simp only [mem_missingIsos]

/-- A required node that is in neither report lacks nothing. -/
theorem unreported_iff :
    node ∈ (required.filter fun node =>
        node ∉ reports (missingTemplates (templateIndex repr templates)) (sorted required) ∧
          node ∉ reports (missingIsos (isoIndexes repr isoItems)) (sorted required)) ↔
      node ∈ required ∧
        (∀ vmid other, TemplateOn repr templates vmid other →
          TemplateOn repr templates vmid node) ∧
        ∀ key other, IsoOn repr isoItems key other → IsoOn repr isoItems key node := by
  rw [Finset.mem_filter, mem_reports_missingTemplates, mem_reports_missingIsos]
  constructor
  · rintro ⟨hrequired, htemplates, hisos⟩
    refine ⟨hrequired, fun vmid other hon => ?_, fun key other hon => ?_⟩
    · by_contra hlacks
      exact htemplates ⟨hrequired, vmid, ⟨other, hon⟩, hlacks⟩
    · by_contra hlacks
      exact hisos ⟨hrequired, key, ⟨other, hon⟩, hlacks⟩
  · rintro ⟨hrequired, htemplates, hisos⟩
    refine ⟨hrequired, ?_, ?_⟩
    · rintro ⟨-, vmid, ⟨other, hon⟩, hlacks⟩
      exact hlacks (htemplates vmid other hon)
    · rintro ⟨-, key, ⟨other, hon⟩, hlacks⟩
      exact hlacks (hisos key other hon)

end

/-- The rows divide the required nodes, in whatever order they come. -/
theorem computeAssetConstraints_classified (repr : Json → String)
    (onlineNodes eligibleNodes : Finset String) (templates isoItems : List Dict)
    (placementPolicy : Option String) :
    Classified repr onlineNodes eligibleNodes templates isoItems placementPolicy
        (computeAssetConstraints repr onlineNodes eligibleNodes templates isoItems
          placementPolicy) ∧
      OrderFree repr onlineNodes eligibleNodes templates isoItems placementPolicy := by
  constructor
  · unfold computeAssetConstraints
    rw [foldl_addTemplate_empty, foldl_addIso_empty]
    exact
      { ready := by
          intro node
          rw [mem_sorted, ← mem_requiredNodes]
          exact unreported_iff
        readyOnce := nodup_sorted
        constrained := by
          intro node
          rw [mem_sorted, Finset.mem_filter, mem_requiredNodes]
        constrainedOnce := nodup_sorted
        templatesReported := by
          intro node
          rw [← mem_requiredNodes]
          exact mem_reports_missingTemplates
        missingTemplates := by
          intro node missing hlookup
          rw [eq_of_lookup_reports hlookup]
          exact ⟨nodup_sorted, fun vmid => mem_missingTemplates⟩
        isosReported := by
          intro node
          rw [← mem_requiredNodes]
          exact mem_reports_missingIsos
        missingIsos := by
          intro node missing hlookup
          rw [eq_of_lookup_reports hlookup]
          exact ⟨missingIsos_nodup, fun key => mem_missingIsos⟩ }
  · intro templates' isoItems' htemplates hisos
    unfold computeAssetConstraints
    rw [foldl_addTemplate_empty, foldl_addTemplate_empty, foldl_addIso_empty, foldl_addIso_empty,
      templateIndex_perm htemplates, isoIndexes_perm hisos]

namespace Fixture

/-- A template on both nodes, and one on the first only. -/
def rows : List Dict :=
  [[("vmid", .int 100), ("node", .text "a")], [("vmid", .text "100"), ("node", .text "b")],
    [("vmid", .int 200), ("node", .text "a")], [("vmid", .null), ("node", .text "b")]]

/-- An ISO image on the first node only. -/
def images : List Dict := [[("content_id", .text "local:iso/x"), ("node", .text "a")]]

def twoNodes : Constraints :=
  computeAssetConstraints (fun _ => "") {"a", "b"} {"a"} rows images (some "balanced")

/-- A list that holds one element, once. -/
theorem eq_singleton {α : Type} {l : List α} {a : α} (hnodup : l.Nodup)
    (h : ∀ b, b ∈ l ↔ b = a) : l = [a] := by
  apply List.perm_singleton.mp
  rw [List.perm_ext_iff_of_nodup hnodup (List.nodup_singleton a)]
  simpa using h

/-- Where the templates are. -/
theorem templateOn_rows {vmid : ℤ} {node : String} :
    TemplateOn (fun _ => "") rows vmid node ↔
      vmid = 100 ∧ node = "a" ∨ vmid = 100 ∧ node = "b" ∨ vmid = 200 ∧ node = "a" := by
  have hpairs :
      rows.filterMap (templatePair fun _ => "") = [(100, "a"), (100, "b"), (200, "a")] := by
    decide +kernel
  rw [← mem_templatePairs, hpairs]
  simp

/-- Where the images are. -/
theorem isoOn_images {key node : String} :
    IsoOn (fun _ => "") images key node ↔ key = "local:iso/x" ∧ node = "a" := by
  have hpairs : images.filterMap (isoPair fun _ => "") = [("local:iso/x", "a")] := by
    decide +kernel
  rw [← mem_isoPairs, hpairs]
  simp

/-- Of two online nodes the one that is not eligible is required too, and lacks a template and the
image. -/
theorem computeAssetConstraints_twoNodes :
    twoNodes.assetReadyNodes = ["a"] ∧ twoNodes.constrainedNodes = ["b"] ∧
      twoNodes.missingTemplatesByNode.lookup "b" = some [200] ∧
      twoNodes.missingIsosByNode.lookup "b" = some ["local:iso/x"] := by
  have hspreads : Spreads {"a", "b"} (some "balanced") :=
    ⟨.inl rfl, "a", by simp, "b", by simp, by decide⟩
  have hrequired (node : String) :
      Required {"a", "b"} {"a"} (some "balanced") node ↔ node = "a" ∨ node = "b" := by
    unfold Required
    simp [hspreads]
  have hclassified : Classified (fun _ => "") {"a", "b"} {"a"} rows images (some "balanced")
      twoNodes :=
    (computeAssetConstraints_classified _ _ _ _ _ _).1
  have hready (node : String) : node ∈ twoNodes.assetReadyNodes ↔ node = "a" := by
    refine (hclassified.ready node).trans ?_
    simp only [hrequired, templateOn_rows, isoOn_images]
    constructor
    · rintro ⟨-, -, hisos⟩
      exact (hisos _ _ ⟨rfl, rfl⟩).2
    · rintro rfl
      refine ⟨.inl rfl, ?_, fun key _ h => ⟨h.1, rfl⟩⟩
      rintro vmid other (h | h | h)
      · exact .inl ⟨h.1, rfl⟩
      · exact .inl ⟨h.1, rfl⟩
      · exact .inr (.inr ⟨h.1, rfl⟩)
  have hconstrained (node : String) : node ∈ twoNodes.constrainedNodes ↔ node = "b" := by
    refine (hclassified.constrained node).trans ?_
    rw [hrequired, hready]
    constructor
    · rintro ⟨rfl | rfl, hnot⟩
      · exact absurd rfl hnot
      · rfl
    · rintro rfl
      exact ⟨.inr rfl, by decide⟩
  refine ⟨eq_singleton hclassified.readyOnce hready,
    eq_singleton hclassified.constrainedOnce hconstrained,
    ?_, ?_⟩
  · have hreported : "b" ∈ twoNodes.missingTemplatesByNode := by
      refine (hclassified.templatesReported "b").mpr ⟨(hrequired "b").mpr (.inr rfl), 200, ?_⟩
      simp [templateOn_rows]
    obtain ⟨missing, hmissing⟩ := Finmap.mem_iff.mp hreported
    obtain ⟨hnodup, hiff⟩ := hclassified.missingTemplates "b" missing hmissing
    rw [hmissing, eq_singleton hnodup fun vmid => (hiff vmid).trans ?_]
    simp only [templateOn_rows]
    constructor
    · rintro ⟨⟨other, h | h | h⟩, hnot⟩
      · exact absurd (.inr (.inl ⟨h.1, trivial⟩)) hnot
      · exact absurd (.inr (.inl ⟨h.1, trivial⟩)) hnot
      · exact h.1
    · rintro rfl
      exact ⟨⟨"a", .inr (.inr ⟨rfl, rfl⟩)⟩, by simp⟩
  · have hreported : "b" ∈ twoNodes.missingIsosByNode := by
      refine (hclassified.isosReported "b").mpr
        ⟨(hrequired "b").mpr (.inr rfl), "local:iso/x", ?_⟩
      simp [isoOn_images]
    obtain ⟨missing, hmissing⟩ := Finmap.mem_iff.mp hreported
    obtain ⟨hnodup, hiff⟩ := hclassified.missingIsos "b" missing hmissing
    rw [hmissing, eq_singleton hnodup fun key => (hiff key).trans ?_]
    simp [isoOn_images]

end Fixture

end LabGoblin.Readiness
