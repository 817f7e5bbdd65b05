import LabGoblin.Computation.IpRoundTrip

/-!
# Addresses in lower case

The hexadecimal digits of an address of version 6 are read in both cases, so the lower case of a
text that is read as an address is read as one, too. The texts consist of hexadecimal digits,
colons and dots, and have a colon, and may have a zone after a percent sign.
-/

set_option autoImplicit false

namespace Interactive.Ip

/-! ## Splitting a text in lower case -/

/-- A map that keeps the separators maps the parts that a text is split into. -/
theorem splitOnPPrepend_map {p : Char → Bool} {f : Char → Char} (h : ∀ c, p (f c) = p c)
    (s acc : List Char) : (s.map f).splitOnPPrepend p (acc.map f) =
      (s.splitOnPPrepend p acc).map (List.map f) := by
  induction s generalizing acc with
  | nil => simp
  | cons c s ih =>
    rw [List.map_cons, List.splitOnPPrepend_cons_eq_if, List.splitOnPPrepend_cons_eq_if, h c]
    have hnil := ih []
    have hcons := ih (c :: acc)
    rw [List.map_nil, List.splitOnPPrepend_nil_right, List.splitOnPPrepend_nil_right] at hnil
    rw [List.map_cons] at hcons
    split
    · rw [hnil, List.map_cons, List.map_reverse]
    · exact hcons

/-- A text is split at a mark as its lower case is. -/
theorem splitOn_map_toLower {d : Char} (hd : Hex.isMark d = true) (s : List Char) :
    (s.map Char.toLower).splitOn d = (s.splitOn d).map (List.map Char.toLower) := by
  have hsame : ∀ c : Char, (c.toLower == d) = (c == d) := by
    intro c
    rw [Bool.eq_iff_iff, beq_iff_eq, beq_iff_eq]
    exact Hex.toLower_eq_iff hd
  exact splitOnPPrepend_map hsame s []

/-! ## Reading the parts -/

/-- A hexadecimal digit in lower case has the same value. -/
theorem value_toLower (c : Char) : Hex.value c.toLower = Hex.value c := by
  have hc := Hex.toNat_toLower c
  have hnat : ∀ d : Char, d.val.toNat = d.toNat := fun _ => rfl
  unfold Hex.value
  simp only [Char.le_def, UInt32.le_iff_toNat_le, hnat, Char.reduceToNat]
  split at hc <;> split <;> split <;> grind

/-- A hexadecimal number in lower case is the same number. -/
theorem readFrom_map_toLower (n : ℕ) (s : List Char) :
    Hex.readFrom n (s.map Char.toLower) = Hex.readFrom n s := by
  induction s generalizing n with
  | nil => rfl
  | cons c s ih =>
    rw [List.map_cons, Hex.readFrom, Hex.readFrom, value_toLower]
    cases Hex.value c with
    | none => rfl
    | some v => exact ih _

/-- A hextet in lower case is the same hextet. -/
theorem parseHextet_map_toLower (s : List Char) :
    parseHextet (s.map Char.toLower) = parseHextet s := by
  have hread := readFrom_map_toLower 0 s
  have hlength : (4 < (s.map Char.toLower).length ∨ s.map Char.toLower = []) ↔
      4 < s.length ∨ s = [] := by simp
  unfold parseHextet
  by_cases h : 4 < s.length ∨ s = []
  · rw [dif_pos h, dif_pos (hlength.mpr h)]
  · rw [dif_neg h, dif_neg (mt hlength.mp h)]
    split <;> split <;> grind

/-- Parts in lower case are the same hextets. -/
theorem mapM_parseHextet_map_toLower (parts : List (List Char)) :
    (parts.map (List.map Char.toLower)).mapM parseHextet = parts.mapM parseHextet := by
  induction parts with
  | nil => rfl
  | cons part parts ih =>
    rw [List.map_cons, List.mapM_cons, List.mapM_cons, parseHextet_map_toLower, ih]

/-- The empty parts are empty in lower case, and no others are. -/
theorem skips_map_toLower (parts : List (List Char)) :
    skips (parts.map (List.map Char.toLower)) = skips parts := by
  unfold skips
  rw [List.length_map]
  refine List.filter_congr fun i _ => ?_
  rw [List.getElem?_map, decide_eq_decide]
  cases parts[i]? with
  | none => simp
  | some part => simp

/-- The hextets around a skipped part are the same in lower case. -/
theorem aroundSkip_map_toLower (high low : List (List Char)) :
    aroundSkip (high.map (List.map Char.toLower)) (low.map (List.map Char.toLower)) =
      aroundSkip high low := by
  unfold aroundSkip
  simp only [List.length_map, mapM_parseHextet_map_toLower]

/-- The hextets are read from the parts in lower case. -/
theorem readHextets_map_toLower (parts : List (List Char)) :
    readHextets (parts.map (List.map Char.toLower)) = readHextets parts := by
  have hhead : ∀ ps : List (List Char),
      (ps.map (List.map Char.toLower)).head? = some [] ↔ ps.head? = some [] := by
    intro ps
    cases ps <;> simp
  have hlast : ∀ ps : List (List Char),
      (ps.map (List.map Char.toLower)).getLast? = some [] ↔ ps.getLast? = some [] := by
    intro ps
    rw [List.getLast?_map]
    cases ps.getLast? <;> simp
  have hempty : ∀ (p : Prop) [Decidable p] (ps : List (List Char)),
      (if p then [] else ps.map (List.map Char.toLower)) =
        (if p then [] else ps).map (List.map Char.toLower) := by
    intro p _ ps
    split <;> rfl
  unfold readHextets
  rw [skips_map_toLower, List.length_map, mapM_parseHextet_map_toLower]
  simp only [← List.map_take, ← List.map_drop, hhead, hlast, List.length_map, hempty,
    aroundSkip_map_toLower]

/-! ## The parts of an address -/

/-- A decimal digit is in lower case. -/
theorem toLower_of_isDigit {c : Char} (h : c.isDigit = true) : c.toLower = c := by
  have hmark : Hex.isMark c = true := by
    simp only [Char.isDigit, Bool.and_eq_true, decide_eq_true_eq, UInt32.le_iff_toNat_le] at h
    have hhigh : c.toNat ≤ 57 := h.2
    simp only [Hex.isMark, Bool.or_eq_true, decide_eq_true_eq]
    omega
  exact (Hex.toLower_eq_iff hmark).mpr rfl

/-- The digits that a number is written with are in lower case. -/
theorem toLower_of_mem_digits {n : ℕ} {c : Char} (h : c ∈ Hex.digits n) : c.toLower = c := by
  have hdigit : ∀ d < 16, (Nat.digitChar d).toLower = Nat.digitChar d := by decide
  induction n using Nat.strongRecOn with
  | ind n ih =>
    by_cases hn : n < 16
    · rw [Hex.digits_of_lt hn, List.mem_singleton] at h
      rw [h]
      exact hdigit n hn
    · have hle : 16 ≤ n := by omega
      rw [Hex.digits_of_le hle] at h
      rcases List.mem_append.mp h with hhigh | hlow
      · exact ih (n / 16) (by omega) hhigh
      · rw [List.mem_singleton.mp hlow]
        exact hdigit _ (Nat.mod_lt n (by decide))

/-- A text of letters in lower case is its own text in lower case. -/
theorem map_toLower_of_forall {s : List Char} (h : ∀ c ∈ s, c.toLower = c) :
    s.map Char.toLower = s :=
  (List.map_congr_left h).trans (List.map_id s)

/-- What stands for an address of version 4 is in lower case. -/
theorem V4.hextetTexts_map_toLower (a : V4) :
    a.hextetTexts.map (List.map Char.toLower) = a.hextetTexts := by
  unfold V4.hextetTexts
  split
  · simp only [List.map_cons, List.map_nil,
      map_toLower_of_forall fun _ hc => toLower_of_mem_digits hc]
  · rfl

/-- The parts of a text in lower case are those of the text, in lower case. -/
theorem splitParts_map_toLower {s : List Char} {parts : List (List Char)}
    (h : splitParts s = some parts) :
    splitParts (s.map Char.toLower) = some (parts.map (List.map Char.toLower)) := by
  have hsplit := splitOn_map_toLower (d := ':') (by decide) s
  unfold splitParts at h ⊢
  have hlast : ((s.splitOn ':').map (List.map Char.toLower)).getLastD [] =
      ((s.splitOn ':').getLastD []).map Char.toLower := by
    rw [List.getLastD_eq_getLast?, List.getLastD_eq_getLast?, List.getLast?_map]
    cases (s.splitOn ':').getLast? <;> rfl
  by_cases hs : s = []
  · rw [if_pos hs] at h
    cases h
  have hs' : ¬s.map Char.toLower = [] := by simpa using hs
  rw [if_neg hs] at h
  rw [if_neg hs', hsplit]
  dsimp only at h ⊢
  rw [List.length_map, hlast]
  by_cases hshort : (s.splitOn ':').length < 3
  · rw [if_pos hshort] at h
    cases h
  rw [if_neg hshort] at h ⊢
  by_cases hdot : '.' ∈ (s.splitOn ':').getLastD []
  · rw [if_pos hdot] at h
    obtain ⟨a, ha, rfl⟩ := Option.map_eq_some_iff.mp h
    have hsame : ((s.splitOn ':').getLastD []).map Char.toLower = (s.splitOn ':').getLastD [] := by
      refine map_toLower_of_forall fun c hc => ?_
      rcases V4.mem_of_parse ha c hc with hdigit | rfl
      · exact toLower_of_isDigit hdigit
      · decide
    rw [hsame, if_pos hdot, ha, List.map_append, V4.hextetTexts_map_toLower, List.map_dropLast]
    rfl
  · rw [if_neg hdot] at h
    rw [if_neg (mt (Hex.mem_map_toLower (by decide)).mp hdot)]
    rw [Option.some.inj h]

/-- Every part around a skipped one is a hextet. -/
theorem part_of_aroundSkip {high low : List (List Char)}
    (h : (aroundSkip high low).isSome = true) :
    ∀ part, part ∈ high ∨ part ∈ low → (parseHextet part).isSome = true := by
  obtain ⟨hs, hread⟩ := Option.isSome_iff_exists.mp h
  unfold aroundSkip at hread
  split at hread
  · cases hread
  · obtain ⟨hi, hhi, hmap⟩ := Option.bind_eq_some_iff.mp hread
    obtain ⟨lo, hlo, -⟩ := Option.map_eq_some_iff.mp hmap
    rintro part (hhigh | hlow)
    · exact read_of_mapM hhi part hhigh
    · exact read_of_mapM hlo part hlow

/-- A part is empty or a number. -/
theorem part_of_readHextets {parts : List (List Char)} (h : (readHextets parts).isSome = true) :
    ∀ part ∈ parts, part = [] ∨ (parseHextet part).isSome = true := by
  intro part hpart
  unfold readHextets at h
  split at h
  · cases h
  · split at h
    · split at h
      · cases h
      · obtain ⟨hs, hread⟩ := Option.isSome_iff_exists.mp h
        exact .inr (read_of_mapM hread part hpart)
    · rename_i skip hskips
      dsimp only at h
      split at h
      · cases h
      · rename_i hends
        have hread := part_of_aroundSkip h part
        have hskip : parts[skip]? = some [] := by
          have hmem : skip ∈ skips parts := by
            rw [hskips]
            exact List.mem_singleton.mpr rfl
          exact of_decide_eq_true (List.mem_filter.mp hmem).2
        by_cases hempty : part = []
        · exact .inl hempty
        refine .inr (hread ?_)
        -- what is left out at an end is empty
        have hkept : ∀ {l : List (List Char)} {p : Prop} [Decidable p],
            (p → l = [[]]) → part ∈ l → part ∈ if p then [] else l := by
          intro l p _ hl hmem
          split
          · rename_i hp
            rw [hl hp] at hmem
            exact absurd (List.mem_singleton.mp hmem) hempty
          · exact hmem
        obtain ⟨hlt, hget⟩ := List.getElem?_eq_some_iff.mp hskip
        rw [← List.take_append_drop skip parts, List.drop_eq_getElem_cons hlt, hget] at hpart
        have hsides : part ∈ parts.take skip ∨ part ∈ parts.drop (skip + 1) := by
          simpa [hempty] using hpart
        refine hsides.imp (hkept fun hhead => ?_) (hkept fun hlast => ?_)
        · have hone : (parts.take skip).length = 1 := by
            by_contra hne
            exact hends (.inl ⟨hhead, hne⟩)
          obtain ⟨first, hfirst⟩ := List.length_eq_one_iff.mp hone
          rw [hfirst] at hhead ⊢
          rw [Option.some.inj hhead]
        · have hone : (parts.drop (skip + 1)).length = 1 := by
            by_contra hne
            exact hends (.inr ⟨hlast, hne⟩)
          obtain ⟨last, hlast'⟩ := List.length_eq_one_iff.mp hone
          rw [hlast'] at hlast ⊢
          have hnil : some last = some [] := hlast
          rw [Option.some.inj hnil]
    · cases h

/-- A text that is read as a number is made of hexadecimal digits. -/
theorem value_of_readFrom {s : List Char} {n : ℕ} (h : (Hex.readFrom n s).isSome = true) :
    ∀ c ∈ s, (Hex.value c).isSome = true := by
  induction s generalizing n with
  | nil => exact fun c hc => absurd hc List.not_mem_nil
  | cons d s ih =>
    rw [Hex.readFrom] at h
    intro c hc
    cases hd : Hex.value d with
    | none =>
      rw [hd] at h
      cases h
    | some v =>
      rw [hd] at h
      rcases List.mem_cons.mp hc with rfl | hc
      · rw [hd]
        rfl
      · exact ih h c hc

/-- A hextet is made of hexadecimal digits. -/
theorem value_of_parseHextet {s : List Char} (h : (parseHextet s).isSome = true) :
    ∀ c ∈ s, (Hex.value c).isSome = true := by
  refine value_of_readFrom (n := 0) ?_
  unfold parseHextet at h
  split at h
  · cases h
  · split at h
    · cases h
    · rename_i n hread
      rw [hread]
      rfl

/-- Before its zone an address consists of hexadecimal digits, colons and dots, and it has a
colon. -/
theorem mem_of_splitParts {s : List Char} {parts : List (List Char)} (h : splitParts s = some parts)
    (hread : (readHextets parts).isSome = true) :
    ':' ∈ s ∧ ∀ c ∈ s, c = ':' ∨ c = '.' ∨ (Hex.value c).isSome = true := by
  have hparts := part_of_readHextets hread
  have hdigit : ∀ c : Char, c.isDigit = true → (Hex.value c).isSome = true := by
    intro c hc
    simp only [Char.isDigit, Bool.and_eq_true, decide_eq_true_eq] at hc
    have hrange : '0' ≤ c ∧ c ≤ '9' := hc
    unfold Hex.value
    rw [if_pos hrange]
    rfl
  unfold splitParts at h
  split at h
  · cases h
  dsimp only at h
  split at h
  · cases h
  rename_i hlong
  refine ⟨?_, fun c hc => ?_⟩
  · by_contra hno
    rw [List.splitOn_eq_singleton hno] at hlong
    exact hlong (by simp)
  have hjoined : [':'].intercalate (s.splitOn ':') = s := List.intercalate_splitOn ':'
  rw [← hjoined] at hc
  rcases mem_of_mem_intercalate hc with hcolon | ⟨part, hpart, hmem⟩
  · exact .inl (List.mem_singleton.mp hcolon)
  have hnumber : part ∈ parts → (Hex.value c).isSome = true := by
    intro hin
    rcases hparts part hin with rfl | hsome
    · cases hmem
    · exact value_of_parseHextet hsome c hmem
  split at h
  · obtain ⟨a, ha, rfl⟩ := Option.map_eq_some_iff.mp h
    have hne : s.splitOn ':' ≠ [] := List.splitOn_ne_nil ':' s
    rw [← List.dropLast_append_getLast hne] at hpart
    rcases List.mem_append.mp hpart with hfront | hlast
    · exact .inr (.inr (hnumber (List.mem_append_left _ hfront)))
    · rw [List.mem_singleton.mp hlast] at hmem
      rw [List.getLastD_eq_getLast?, List.getLast?_eq_some_getLast hne] at ha
      rcases V4.mem_of_parse ha c hmem with hd | hdot
      · exact .inr (.inr (hdigit c hd))
      · exact .inr (.inl hdot)
  · rw [Option.some.inj h] at hpart
    exact .inr (.inr (hnumber hpart))

/-! ## Addresses -/

/-- The text is an address without a zone. -/
def IsBase (s : List Char) : Prop :=
  ∃ parts, splitParts s = some parts ∧ (readHextets parts).isSome = true

/-- An address is an address in lower case. -/
theorem IsBase.map_toLower {s : List Char} (h : IsBase s) : IsBase (s.map Char.toLower) := by
  obtain ⟨parts, hparts, hread⟩ := h
  refine ⟨_, splitParts_map_toLower hparts, ?_⟩
  rw [readHextets_map_toLower]
  exact hread

/-- An address without a zone has a colon. -/
theorem IsBase.colon {s : List Char} (h : IsBase s) : ':' ∈ s := by
  obtain ⟨parts, hparts, hread⟩ := h
  exact (mem_of_splitParts hparts hread).1

/-- An address without a zone is made of colons, dots and hexadecimal digits. -/
theorem IsBase.mem {s : List Char} (h : IsBase s) :
    ∀ c ∈ s, c = ':' ∨ c = '.' ∨ (Hex.value c).isSome = true := by
  obtain ⟨parts, hparts, hread⟩ := h
  exact (mem_of_splitParts hparts hread).2

/-- The characters of an address without a zone are no letters that ask for a zone or a path. -/
theorem IsBase.notMem {s : List Char} (h : IsBase s) {d : Char} (hcolon : d ≠ ':')
    (hdot : d ≠ '.') (hvalue : Hex.value d = none) : d ∉ s := by
  intro hd
  rcases h.mem d hd with heq | heq | hsome
  · exact hcolon heq
  · exact hdot heq
  · rw [hvalue] at hsome
    cases hsome

/-- A hexadecimal digit is a character of ASCII. -/
theorem toNat_lt_of_value {c : Char} (h : (Hex.value c).isSome = true) : c.toNat < 128 := by
  have hnat : ∀ d : Char, d.val.toNat = d.toNat := fun _ => rfl
  unfold Hex.value at h
  simp only [Char.le_def, UInt32.le_iff_toNat_le, hnat, Char.reduceToNat] at h
  split at h
  · omega
  · split at h
    · omega
    · split at h
      · omega
      · cases h

/-- An address is one without a zone, and perhaps a percent sign and a zone. -/
theorem V6.isSome_parse_iff {s : List Char} : (V6.parse s).isSome = true ↔
    ∃ (base : List Char) (scopeId : Option ScopeId), IsBase base ∧
      s = base ++ scopeId.elim [] fun zone => '%' :: zone.text := by
  constructor
  · intro h
    obtain ⟨a, ha⟩ := Option.isSome_iff_exists.mp h
    unfold V6.parse at ha
    split at ha
    · cases ha
    obtain ⟨⟨base, scopeId⟩, hscope, hbind⟩ := Option.bind_eq_some_iff.mp ha
    obtain ⟨parts, hparts, hmatch⟩ := Option.bind_eq_some_iff.mp hbind
    have hread : (readHextets parts).isSome = true := by
      split at hmatch
      · cases hmatch
      · rename_i hextets hextets_eq
        rw [hextets_eq]
        rfl
    refine ⟨base, scopeId, ⟨parts, hparts, hread⟩, ?_⟩
    have hsplit : s.takeWhile (· ≠ '%') ++ s.dropWhile (· ≠ '%') = s :=
      List.takeWhile_append_dropWhile
    unfold splitScope at hscope
    split at hscope
    · cases hscope
      exact (List.append_nil _).symm
    · rename_i c scope hdrop
      split at hscope
      · cases hscope
        have hc : c = '%' := by
          have hhead := List.head?_dropWhile_not (fun c => decide (c ≠ '%')) s
          rw [hdrop] at hhead
          simpa using hhead
        rw [hdrop, hc] at hsplit
        exact hsplit.symm
      · cases hscope
  · rintro ⟨base, scopeId, hbase, rfl⟩
    have hslash : '/' ∉ base ++ scopeId.elim [] fun zone => '%' :: zone.text := by
      intro hmem
      rcases List.mem_append.mp hmem with hin | hin
      · exact hbase.notMem (by decide) (by decide) (by decide) hin
      · cases scopeId with
        | none => cases hin
        | some zone =>
          rcases List.mem_cons.mp hin with heq | hin
          · cases heq
          · exact zone.no_slash hin
    have hpercent : '%' ∉ base := hbase.notMem (by decide) (by decide) (by decide)
    obtain ⟨parts, hparts, hread⟩ := hbase
    unfold V6.parse
    rw [if_neg hslash, splitScope_append hpercent, Option.bind_some]
    dsimp only
    rw [hparts, Option.bind_some]
    split
    · rename_i hnone
      rw [hnone] at hread
      cases hread
    · rfl

/-- Every IPv6 address has a colon, with a zone or without one. -/
theorem V6.colon_mem_of_parse {s : List Char} (h : (V6.parse s).isSome = true) : ':' ∈ s := by
  obtain ⟨base, scopeId, hbase, rfl⟩ := V6.isSome_parse_iff.mp h
  exact List.mem_append_left _ hbase.colon

/-- No text is an address of both versions. -/
theorem V6.not_isSome_parse_v4 {s : List Char} (h : (V6.parse s).isSome = true) :
    ¬(V4.parse s).isSome = true := by
  intro h4
  obtain ⟨a, ha⟩ := Option.isSome_iff_exists.mp h4
  rcases V4.mem_of_parse ha ':' (V6.colon_mem_of_parse h) with hdigit | hdot
  · exact absurd hdigit (by decide)
  · cases hdot

end Interactive.Ip
