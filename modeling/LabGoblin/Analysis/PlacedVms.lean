import LabGoblin.Analysis.ConductSound
import LabGoblin.Analysis.NodeChoice
import LabGoblin.Analysis.Provisioning

/-!
# The nodes of the VMs

Whatever the other requests do meanwhile and whatever Proxmox reports, the node that is stored on
a VM record was eligible in what its `create_vm` read and was told.
-/

set_option autoImplicit false

namespace LabGoblin

open Interactive

/-! ## Eligible nodes -/

/-- The row of `proxmox_cluster_defaults` of a cluster. -/
def Db.clusterDefault (db : Db) (cluster : ℕ) : Option ProxmoxClusterDefault :=
  db.proxmoxClusterDefaults.first fun d => d.clusterId = cluster

/-- What a process was told in the log: the storage is active on the node. -/
def StorageFound (p : Pid) (log : List Entry) (cluster : ℕ) (storage : Option String)
    (node : String) : Prop :=
  ∀ name, storage = some name → ∃ rows, Entry.reply p (.discoverStorage cluster) (.ok rows) ∈ log ∧
    ∃ row ∈ rows, row.storage = some name ∧ row.active = true ∧ row.node = node

/-- The bridge is on the node. -/
def BridgeFound (p : Pid) (log : List Entry) (cluster : ℕ) (bridge : Option String)
    (node : String) : Prop :=
  ∀ name, bridge = some name → ∃ rows, Entry.reply p (.discoverNetworks cluster) (.ok rows) ∈ log ∧
    ∃ row ∈ rows, row.bridge = some name ∧ row.node = node

/-- The template is on the node. -/
def TemplateFound (p : Pid) (log : List Entry) (cluster sourceVmid : ℕ) (node : String) : Prop :=
  ∃ rows, Entry.reply p (.discoverTemplates cluster) (.ok rows) ∈ log ∧
    ∃ row ∈ rows, row.vmid = some sourceVmid ∧ row.node = some node

/-- The node is online and has what the cluster defaults ask for. -/
structure Eligible (p : Pid) (log : List Entry) (db : Db) (cluster sourceVmid : ℕ)
    (node : String) : Prop where
  online : ∃ row ∈ db.proxmoxNodes.rows, row.clusterId = cluster ∧ row.nodeName = node ∧
    row.isOnline = true
  template : TemplateFound p log cluster sourceVmid node
  storage : StorageFound p log cluster
    (nonblank ((db.clusterDefault cluster).bind ProxmoxClusterDefault.defaultStorage)) node
  bridge : BridgeFound p log cluster
    (nonblank ((db.clusterDefault cluster).bind ProxmoxClusterDefault.defaultBridge)) node

/-- A process has placed the VM: it is serving `create_vm`, and the node is eligible in what it
read and was told. -/
structure Placed (p : Pid) (log : List Entry) (vm : StudentVM) : Prop where
  serves : ∃ caller payload, Entry.enter p (.createVm caller payload) ∈ log
  eligible : ∃ cluster template found seen, vm.proxmoxClusterId = some cluster ∧
    Entry.stmt p (.select .rows) found ∈ log ∧
    found.db.vmTemplates.get? vm.templateId = some template ∧
    Entry.stmt p (.select .rows) seen ∈ log ∧
    Eligible p log seen.db cluster template.sourceVmid vm.proxmoxNode

/-- What a log says that a longer log also says. -/
def Lasting (F : List Entry → Prop) : Prop := ∀ log log', log <:+ log' → F log → F log'

/-- Two facts that last do so together. -/
theorem Lasting.and {F G : List Entry → Prop} (hF : Lasting F) (hG : Lasting G) :
    Lasting fun log => F log ∧ G log :=
  fun log log' h hlog => ⟨hF log log' h hlog.1, hG log log' h hlog.2⟩

/-- A family of facts lasts when each of them does. -/
theorem Lasting.all {ι : Type} {P : ι → Prop} {F : ι → List Entry → Prop}
    (hF : ∀ i, Lasting (F i)) : Lasting fun log => ∀ i, P i → F i log :=
  fun log log' h hlog i hi => hF i log log' h (hlog i hi)

/-- An entry stays in the log. -/
theorem lasting_mem (e : Entry) : Lasting fun log => e ∈ log :=
  fun _ _ h he => h.subset he

/-- What a process was told about a storage stays told. -/
theorem lasting_storageFound (p : Pid) (cluster : ℕ) (storage : Option String) (node : String) :
    Lasting fun log => StorageFound p log cluster storage node := by
  intro log log' h hfound name hname
  obtain ⟨rows, hreply, hrow⟩ := hfound name hname
  exact ⟨rows, h.subset hreply, hrow⟩

/-- What a process was told about a bridge stays told. -/
theorem lasting_bridgeFound (p : Pid) (cluster : ℕ) (bridge : Option String) (node : String) :
    Lasting fun log => BridgeFound p log cluster bridge node := by
  intro log log' h hfound name hname
  obtain ⟨rows, hreply, hrow⟩ := hfound name hname
  exact ⟨rows, h.subset hreply, hrow⟩

/-- What a process was told about a template stays told. -/
theorem lasting_templateFound (p : Pid) (cluster sourceVmid : ℕ) (node : String) :
    Lasting fun log => TemplateFound p log cluster sourceVmid node := by
  rintro log log' h ⟨rows, hreply, hrow⟩
  exact ⟨rows, h.subset hreply, hrow⟩

/-- A node that was eligible stays so by the log. -/
theorem lasting_eligible (p : Pid) (db : Db) (cluster sourceVmid : ℕ) (node : String) :
    Lasting fun log => Eligible p log db cluster sourceVmid node := by
  intro log log' h heligible
  exact {
    online := heligible.online
    template := lasting_templateFound p cluster sourceVmid node log log' h heligible.template
    storage := lasting_storageFound p cluster _ node log log' h heligible.storage
    bridge := lasting_bridgeFound p cluster _ node log log' h heligible.bridge }

/-- A VM that was placed stays placed. -/
theorem lasting_placed (p : Pid) (vm : StudentVM) : Lasting fun log => Placed p log vm := by
  intro log log' h hplaced
  obtain ⟨caller, payload, hserves⟩ := hplaced.serves
  obtain ⟨cluster, template, found, seen, hcluster, hfound, htemplate, hseen, heligible⟩ :=
    hplaced.eligible
  exact {
    serves := ⟨caller, payload, h.subset hserves⟩
    eligible := ⟨cluster, template, found, seen, hcluster, h.subset hfound, htemplate,
      h.subset hseen, lasting_eligible p seen.db cluster _ _ log log' h heligible⟩ }

/-- The row may change, but not in what placement has decided. -/
theorem Placed.sameRecord {p : Pid} {log : List Entry} {vm vm' : StudentVM}
    (h : Placed p log vm) (hsame : vm.SameRecord vm') : Placed p log vm' where
  serves := h.serves
  eligible := by
    rw [hsame.proxmoxClusterId, hsame.templateId, hsame.proxmoxNode]
    exact h.eligible

section Placing

variable {H : Type} {settings : Settings} {outside : Outside H} {p : Pid}

/-- A commit inserts only VMs that are placed. -/
def InsertsPlaced (p : Pid) (q : Stmt) (t : Sys H) : Prop :=
  ∀ ws, q = .commit ws → ∀ vm, .vm (.insert vm) ∈ ws → Placed p t.log vm

/-- The discipline in which every VM that is inserted is placed. -/
def placing (settings : Settings) (outside : Outside H) : Discipline Api (Sys H) Request :=
  (conduct settings outside).layer (fun _ _ _ => True) InsertsPlaced

/-- A process may rely on what the log says, and may insert what is placed. -/
theorem placing_tolerates {F : List Entry → Prop} (hF : Lasting F) {W : Write → Prop}
    (hW : ∀ log vm, F log → W (.vm (.insert vm)) → Placed p log vm) :
    ((placing settings outside).contract p).Tolerates (fun t => F t.log) (Commits W)
      (fun _ => True) where
  stable := fun t t' h hr _ => hF _ _ hr.1.log h
  stmt := by
    intro q t hq _ h _
    refine ⟨?_, hF _ _ (List.suffix_cons _ _) h⟩
    rintro ws rfl vm hvm
    exact hW t.log vm h (hq _ hvm)
  call := by
    intro c t _ _ h
    refine ⟨trivial, ?_⟩
    rintro reply t' ⟨-, hyper, -, rfl⟩
    exact hF _ _ ((List.suffix_cons _ _).trans (List.suffix_cons _ _)) h

/-- A write that inserts no VM. -/
def Write.insertsNoVm (w : Write) : Prop := ∀ vm, w ≠ .vm (.insert vm)

variable {F : List Entry → Prop} {α β : Type} {t : Sys H}

/-- A program that inserts no VM runs first. -/
theorem wp_noting (hF : Lasting F) {prog : Action α} {R : α → Prop} {f : α → Action β}
    (hprog : Keeps Write.insertsNoVm (fun _ => True) R prog)
    (hf : ∀ a t, R a → F t.log →
      wp ((placing settings outside).contract p) (f a) (fun _ _ => True) t)
    (ht : F t.log) :
    wp ((placing settings outside).contract p) (prog >>= f) (fun _ _ => True) t := by
  have hT : ((placing settings outside).contract p).Tolerates (fun t => F t.log)
      (Commits Write.insertsNoVm) (fun _ => True) :=
    placing_tolerates hF fun _ vm _ h => absurd rfl (h vm)
  exact Maintains.seq (Maintains.of_ensures hT hprog) hf (fun _ _ _ => trivial) ht

/-- What a query saw is in the log. -/
theorem wp_select_noting (hF : Lasting F) {f : Store → Action β}
    (hf : ∀ s t, F t.log → Entry.stmt p (.select .rows) s ∈ t.log →
      wp ((placing settings outside).contract p) (f s) (fun _ _ => True) t)
    (ht : F t.log) :
    wp ((placing settings outside).contract p) (select >>= f) (fun _ _ => True) t := by
  rw [wp_bind, wp_select]
  intro t' hr _ _
  refine ⟨fun ws hws => (by cases hws), ?_⟩
  have ht' : F t'.log := hF _ _ hr.1.log ht
  exact hf _ _ (hF _ _ (List.suffix_cons _ _) ht') List.mem_cons_self

/-- What a call was answered is in the log. -/
theorem wp_await_noting (hF : Lasting F) {c : Call} {f : c.Reply → Action β}
    (hf : ∀ reply t, F t.log → Entry.reply p c (.ok reply) ∈ t.log →
      wp ((placing settings outside).contract p) (f reply) (fun _ _ => True) t)
    (ht : F t.log) :
    wp ((placing settings outside).contract p) (await c >>= f) (fun _ _ => True) t := by
  rw [wp_bind]
  refine (wp_await (G := Api) c _ t).mpr ?_
  intro t' hr _
  refine ⟨trivial, ?_⟩
  rintro reply t'' ⟨-, hyper, -, rfl⟩
  have ht' : F t'.log := hF _ _ hr.1.log ht
  cases reply with
  | error e => trivial
  | ok reply =>
    refine hf reply _ ?_ List.mem_cons_self
    exact hF _ _ ((List.suffix_cons _ _).trans (List.suffix_cons _ _)) ht'

/-! ## `create_vm` -/

/-- A check that raises commits and calls nothing. -/
theorem keeps_raising {W : Write → Prop} {K : Call → Prop} (c : Prop) [Decidable c] (e : Exc) :
    Keeps W K (fun _ => True) (raiseIf c e) :=
  (keeps_raiseIf c e _).mpr fun _ => trivial

/-- The allowed nodes are narrowed to those that an answer names. -/
theorem wp_narrow (hF : Lasting F) (c : Call) (nodes : c.Reply → List String)
    (Found : List Entry → String → Prop) {allowed : List String} {e : Exc}
    (hfound : ∀ reply log node, Entry.reply p c (.ok reply) ∈ log → node ∈ nodes reply →
      Found log node) {f : List String → Action β}
    (hf : ∀ left t, F t.log → (∀ node ∈ left, node ∈ allowed ∧ Found t.log node) →
      wp ((placing settings outside).contract p) (f left) (fun _ _ => True) t)
    (ht : F t.log) :
    wp ((placing settings outside).contract p) (await c >>= fun reply =>
      raiseIf (allowed.filter (nodes reply).contains = []) e >>= fun _ =>
        f (allowed.filter (nodes reply).contains)) (fun _ _ => True) t := by
  refine wp_await_noting hF ?_ ht
  intro reply t₁ h₁ hreply
  refine wp_noting (hF.and (lasting_mem _)) (keeps_raising _ _) ?_ ⟨h₁, hreply⟩
  rintro - t₂ - ⟨h₂, hreply⟩
  refine hf _ t₂ h₂ ?_
  intro node hnode
  obtain ⟨hallowed, hin⟩ := List.mem_filter.mp hnode
  exact ⟨hallowed, hfound reply t₂.log node hreply (List.contains_iff_mem.mp hin)⟩

/-- The nodes that `withStorage` leaves have the storage. -/
theorem wp_withStorage (hF : Lasting F) {cluster : ProxmoxCluster} {storage : Option String}
    {allowed : List String} {f : List String → Action β}
    (hf : ∀ left t, F t.log →
      (∀ node ∈ left, node ∈ allowed ∧ StorageFound p t.log cluster.id storage node) →
      wp ((placing settings outside).contract p) (f left) (fun _ _ => True) t)
    (ht : F t.log) :
    wp ((placing settings outside).contract p) (withStorage cluster storage allowed >>= f)
      (fun _ _ => True) t := by
  unfold withStorage
  cases storage with
  | none =>
    refine hf allowed t ht ?_
    intro node hnode
    refine ⟨hnode, ?_⟩
    intro name hname
    cases hname
  | some name =>
    simp only [bind_assoc, pure_bind]
    refine wp_narrow hF (.discoverStorage cluster.id) (fun rows =>
        (rows.filter fun r => r.storage = some name && r.active).map DiscoveredStorage.node)
      (fun log node => StorageFound p log cluster.id (some name) node) ?_ hf ht
    rintro rows log node hreply hin _ ⟨⟩
    obtain ⟨row, hrow, rfl⟩ := List.mem_map.mp hin
    obtain ⟨hrow, hactive⟩ := List.mem_filter.mp hrow
    simp only [Bool.and_eq_true, decide_eq_true_eq] at hactive
    exact ⟨rows, hreply, row, hrow, hactive.1, hactive.2, rfl⟩

/-- The nodes that `withBridge` leaves have the bridge. -/
theorem wp_withBridge (hF : Lasting F) {cluster : ProxmoxCluster} {bridge : Option String}
    {allowed : List String} {f : List String → Action β}
    (hf : ∀ left t, F t.log →
      (∀ node ∈ left, node ∈ allowed ∧ BridgeFound p t.log cluster.id bridge node) →
      wp ((placing settings outside).contract p) (f left) (fun _ _ => True) t)
    (ht : F t.log) :
    wp ((placing settings outside).contract p) (withBridge cluster bridge allowed >>= f)
      (fun _ _ => True) t := by
  unfold withBridge
  cases bridge with
  | none =>
    refine hf allowed t ht ?_
    intro node hnode
    refine ⟨hnode, ?_⟩
    intro name hname
    cases hname
  | some name =>
    simp only [bind_assoc, pure_bind]
    refine wp_narrow hF (.discoverNetworks cluster.id) (fun rows =>
        (rows.filter fun r => r.bridge = some name).map DiscoveredNetwork.node)
      (fun log node => BridgeFound p log cluster.id (some name) node) ?_ hf ht
    rintro rows log node hreply hin _ ⟨⟩
    obtain ⟨row, hrow, rfl⟩ := List.mem_map.mp hin
    obtain ⟨hrow, hbridge⟩ := List.mem_filter.mp hrow
    exact ⟨rows, hreply, row, hrow, of_decide_eq_true hbridge, rfl⟩

/-- The decision is for a node that is online and allowed. -/
theorem chooseClusterNode_online {nodes : List ProxmoxNode} {running : String → ℕ}
    {policy : PlacementPolicy} {defaultNode : Option String} {allowed : List String}
    {node reason : String}
    (h : chooseClusterNode nodes running policy defaultNode allowed = .ok (node, reason)) :
    node ∈ allowed ∧ ∃ row ∈ nodes, row.nodeName = node ∧ row.isOnline = true := by
  have hmem : ∀ row ∈ nodes.filter fun n => n.isOnline && allowed.contains n.nodeName,
      row.nodeName ∈ allowed ∧ ∃ row' ∈ nodes, row'.nodeName = row.nodeName ∧
        row'.isOnline = true := by
    intro row hrow
    obtain ⟨hrow, hcond⟩ := List.mem_filter.mp hrow
    rw [Bool.and_eq_true, List.contains_iff_mem] at hcond
    exact ⟨hcond.2, row, hrow, rfl, hcond.1⟩
  unfold chooseClusterNode at h
  dsimp only at h
  generalize (nodes.filter fun n => n.isOnline && allowed.contains n.nodeName) = online at h hmem
  have hany : ∀ name, (online.any fun n => n.nodeName = name) = true →
      name ∈ allowed ∧ ∃ row ∈ nodes, row.nodeName = name ∧ row.isOnline = true := by
    intro name hname
    obtain ⟨row, hrow, hname⟩ := List.any_eq_true.mp hname
    rw [← of_decide_eq_true hname]
    exact hmem row hrow
  cases hbest : bestNode running online with
  | none =>
    rw [hbest] at h
    cases h
  | some best =>
    have hbalanced := hmem best (Placement.bestNode_spec hbest).1
    rw [hbest] at h
    dsimp only at h
    split at h
    · cases h
    · split at h
      · next hdefault =>
        cases h
        exact hany _ hdefault
      · cases h
    · split at h
      · next hdefault =>
        cases h
        exact hany _ hdefault
      · cases h
        exact hbalanced
    · cases h
      exact hbalanced

/-- `placeVm` returns an eligible node. -/
theorem wp_placeVm (hF : Lasting F) {cluster : ProxmoxCluster} {template : VMTemplate}
    {f : String × String → Action β}
    (hf : ∀ decision t, F t.log → (∃ seen, Entry.stmt p (.select .rows) seen ∈ t.log ∧
        Eligible p t.log seen.db cluster.id template.sourceVmid decision.1) →
      wp ((placing settings outside).contract p) (f decision) (fun _ _ => True) t)
    (ht : F t.log) :
    wp ((placing settings outside).contract p) (placeVm cluster template >>= f)
      (fun _ _ => True) t := by
  unfold placeVm
  simp only [bind_assoc]
  refine wp_select_noting hF ?_ ht
  intro seen t₁ h₁ hseen
  have hF₁ := hF.and (lasting_mem (.stmt p (.select .rows) seen))
  refine wp_await_noting hF₁ ?_ ⟨h₁, hseen⟩
  intro templates t₂ h₂ htemplates
  have hF₂ := hF₁.and (lasting_mem (.reply p (.discoverTemplates cluster.id) (.ok templates)))
  refine wp_noting hF₂ (keeps_raising _ _) ?_ ⟨h₂, htemplates⟩
  rintro - t₃ - h₃
  refine wp_withStorage hF₂ ?_ h₃
  intro stored t₄ h₄ hstored
  have hF₄ := hF₂.and (Lasting.all (P := (· ∈ stored)) fun node =>
    lasting_storageFound p cluster.id (nonblank
      ((seen.db.clusterDefault cluster.id).bind ProxmoxClusterDefault.defaultStorage)) node)
  refine wp_withBridge hF₄ ?_ ⟨h₄, fun node hnode => (hstored node hnode).2⟩
  intro left t₅ h₅ hleft
  obtain ⟨⟨⟨hF₅, hseen⟩, htemplates⟩, hstorage⟩ := h₅
  split
  · trivial
  · next _ decision hdecision =>
    obtain ⟨node, reason⟩ := decision
    refine hf _ t₅ hF₅ ⟨seen, hseen, ?_⟩
    obtain ⟨hnode, row, hrow, hname, honline⟩ := chooseClusterNode_online hdecision
    obtain ⟨hin, hbridge⟩ := hleft node hnode
    obtain ⟨hrow, hcluster⟩ := List.mem_filter.mp hrow
    obtain ⟨found, hfound, hheld⟩ := List.mem_filterMap.mp (hstored node hin).1
    have htemplate : found.vmid = some template.sourceVmid ∧ found.node = some node := by
      split at hheld
      · next hvmid =>
        exact ⟨hvmid, (Option.filter_eq_some_iff.mp hheld).1⟩
      · cases hheld
    exact {
      online := ⟨row, hrow, of_decide_eq_true hcluster, hname, honline⟩
      template := ⟨templates, htemplates, found, hfound, htemplate⟩
      storage := hstorage node hin
      bridge := hbridge }

/-- The second half of `create_vm` inserts the VM with the node it is given. -/
theorem keeps_provisionVm {user : User} {organization : OrganizationContext}
    {payload : CreateVMRequest} {template : VMTemplate} {assignment : Option LabAssignment}
    {cluster : ProxmoxCluster} {node reason : String} :
    Keeps (fun w => ∀ vm, w = .vm (.insert vm) → vm.proxmoxClusterId = some cluster.id ∧
        vm.templateId = template.id ∧ vm.proxmoxNode = node) (fun _ => True) (fun _ => True)
      (provisionVm user organization payload template assignment cluster node reason) := by
  unfold provisionVm
  rw [keeps_bind]
  refine Keeps.mono (keeps_allocateVmid cluster.id) ?_
  rintro ⟨vmid, allocated⟩ hallocated
  rw [keeps_bind, keeps_draw]
  intro s
  rw [keeps_bind]
  refine Keeps.mono (keeps_enqueueOperation _ [] (fun r => ∀ w ∈ r.2, ∃ o, w = .operation o)
    (fun _ _ hw => by cases hw) ?_) ?_
  · intro row _ w hw
    exact ⟨_, List.mem_singleton.mp hw⟩
  rintro ⟨operation, queued⟩ hqueued
  rw [keeps_bind, keeps_commit]
  refine ⟨?_, fun _ => trivial⟩
  rintro w hw vm rfl
  simp only [List.mem_append, List.mem_singleton] at hw
  rcases hw with ((hw | hw) | hw) | hw
  · obtain ⟨a, ha⟩ := hallocated _ hw
    cases ha
  · cases hw
    exact ⟨rfl, rfl, rfl⟩
  · unfold linkWrites at hw
    split at hw
    · cases List.mem_singleton.mp hw
    · cases hw
  · obtain ⟨o, ho⟩ := hqueued _ hw
    cases ho

/-- What a process is known to have read of the template it serves. -/
theorem wp_createVm_placing {caller : Caller} {payload : CreateVMRequest}
    (ht : Entry.enter p (.createVm caller payload) ∈ t.log) :
    wp ((placing settings outside).contract p) (discard (createVm caller payload))
      (fun _ _ => True) t := by
  have hF := lasting_mem (.enter p (.createVm caller payload))
  unfold discard createVm
  simp only [bind_assoc]
  refine wp_noting hF (keeps_currentCaller caller) ?_ ht
  rintro ⟨user, organization⟩ t₁ - h₁
  refine wp_select_noting hF ?_ h₁
  intro found t₂ h₂ hfound
  have hF₂ := hF.and (lasting_mem (.stmt p (.select .rows) found))
  refine wp_noting hF₂ ((keeps_check _ _).mpr fun _ h => h) ?_ ⟨h₂, hfound⟩
  intro template t₃ htemplate h₃
  refine wp_noting hF₂ (keeps_requestedAssignment _ _ _ _) ?_ h₃
  intro assignment t₄ _ h₄
  refine wp_noting hF₂ (R := fun _ => True) ((keeps_select _).mpr fun _ => trivial) ?_ h₄
  intro s t₅ _ h₅
  refine wp_noting hF₂ (R := fun _ => True) ((keeps_check _ _).mpr fun _ _ => trivial) ?_ h₅
  intro cluster t₆ _ h₆
  refine wp_placeVm hF₂ ?_ h₆
  rintro ⟨node, reason⟩ t₇ h₇ ⟨seen, hseen, heligible⟩
  have hget : found.db.vmTemplates.get? template.id = some template := by
    obtain ⟨hget, -, -⟩ := enabledTemplate_ok.mp htemplate
    have hid : template.id = payload.templateId := Table.get?_key hget
    rw [hid]
    exact hget
  have hF₇ := (hF₂.and (lasting_mem (.stmt p (.select .rows) seen))).and
    (lasting_eligible p seen.db cluster.id template.sourceVmid node)
  have hT : ((placing settings outside).contract p).Tolerates _ (Commits _) (fun _ => True) :=
    placing_tolerates hF₇ (W := fun w => ∀ vm, w = .vm (.insert vm) →
      vm.proxmoxClusterId = some cluster.id ∧ vm.templateId = template.id ∧
        vm.proxmoxNode = node) ?_
  · refine Maintains.seq (Maintains.of_ensures hT keeps_provisionVm) ?_ (fun _ _ _ => trivial)
      ⟨⟨h₇, hseen⟩, heligible⟩
    exact fun _ _ _ _ => trivial
  · rintro log vm ⟨⟨⟨hserves, hfound⟩, hseen⟩, heligible⟩ hinsert
    obtain ⟨hcluster, htemplateId, hnode⟩ := hinsert vm rfl
    rw [← htemplateId] at hget
    rw [← hnode] at heligible
    exact ⟨⟨caller, payload, hserves⟩, cluster.id, template, found, seen, hcluster, hfound, hget,
      hseen, heligible⟩

/-- Other requests than `create_vm` insert no VM. -/
theorem Request.mayWrite_vmInsert {r : Request} {vm : StudentVM}
    (h : r.mayWrite (.vm (.insert vm))) : ∃ caller payload, r = .createVm caller payload := by
  cases r with
  | createVm caller payload => exact ⟨caller, payload, rfl⟩
  | bulkVmAction caller run action =>
    obtain ⟨type, -, hqueues⟩ := h
    cases hqueues
  | createLabRun caller payload =>
    obtain ⟨row, hrow⟩ := h
    cases hrow
  | revokeRunAssignment caller run a => cases h
  | _ => exact h.elim

/-- A conducted commit inserts VMs for `create_vm` only. -/
theorem Stmt.Conducted.insertsVm {ws : List Write} {vm : StudentVM}
    (h : Stmt.Conducted p (.commit ws) t) (hvm : .vm (.insert vm) ∈ ws) :
    ∃ caller payload, Entry.enter p (.createVm caller payload) ∈ t.log := by
  obtain ⟨r, hr, hconducts⟩ := h.split
  cases hconducts with
  | inl hworker => exact (hworker.2 _ hvm).elim
  | inr hrequest =>
    obtain ⟨caller, payload, rfl⟩ := Request.mayWrite_vmInsert (hrequest.2 _ hvm).1
    exact ⟨caller, payload, hr⟩

/-- Every program keeps the discipline. -/
theorem wp_program_placing {r : Request} (ht : Entry.enter p r ∈ t.log) :
    wp ((placing settings outside).contract p) (program settings r) (fun _ _ => True) t := by
  by_cases hcreate : ∃ caller payload, r = .createVm caller payload
  · obtain ⟨caller, payload, rfl⟩ := hcreate
    exact wp_createVm_placing ht
  · have hT : ((placing settings outside).contract p).Tolerates
        (fun t => Entry.enter p r ∈ t.log) (fun _ => True) (fun _ => True) := by
      refine ⟨fun t t' h hr _ => hr.1.log.subset h, ?_, ?_⟩
      · rintro q t - - h ⟨-, hlogged, -, hconducted⟩
        refine ⟨?_, List.mem_cons_of_mem _ h⟩
        rintro ws rfl vm hvm
        obtain ⟨caller, payload, hserves⟩ := hconducted.insertsVm hvm
        exact absurd ⟨caller, payload, hlogged.request p _ _ h hserves⟩ hcreate
      · rintro c t - - h
        refine ⟨trivial, ?_⟩
        rintro reply t' ⟨-, hyper, -, rfl⟩
        exact List.mem_cons_of_mem _ (List.mem_cons_of_mem _ h)
    exact Maintains.safe (R := fun _ => True)
      (Maintains.of_ensures hT (Program.ensures_anything _)) ht

/-- The discipline in which every VM is placed is sound. -/
theorem placing_sound (settings : Settings) (outside : Outside H) :
    (placing settings outside).Sound := by
  refine (conduct_sound settings outside).layer ?_ ?_
  · exact ⟨fun _ _ => trivial, fun _ _ _ _ _ _ _ _ => trivial, fun _ _ _ _ _ _ => trivial,
      fun _ _ _ _ _ _ _ _ => trivial, fun _ _ _ _ _ => trivial, fun _ _ _ _ _ => trivial,
      fun _ _ _ _ => trivial⟩
  · intro r t _ _
    exact wp_program_placing List.mem_cons_self

/-! ## Runs -/

/-- Every VM record was there at the start, or has been placed. -/
def AllPlaced (start t : Sys H) : Prop :=
  ∀ i vm, t.store.db.studentVms.get? i = some vm →
    (start.store.db.studentVms.get? i).isSome = true ∨ ∃ p, Placed p t.log vm

/-- A step that changes no VM record leaves all of them placed. -/
theorem AllPlaced.suffix {start t t' : Sys H} (h : AllPlaced start t) (hlog : t.log <:+ t'.log)
    (hrows : ∀ i, t'.store.db.studentVms.get? i = t.store.db.studentVms.get? i) :
    AllPlaced start t' := by
  intro i vm hvm
  rw [hrows i] at hvm
  cases h i vm hvm with
  | inl hstart => exact Or.inl hstart
  | inr hplaced =>
    obtain ⟨p, hplaced⟩ := hplaced
    exact Or.inr ⟨p, lasting_placed p vm _ _ hlog hplaced⟩

/-- A commit that inserts placed VMs leaves all VMs placed. -/
theorem AllPlaced.commit {start t : Sys H} {ws : List Write}
    {db : { db : Db // db.Constraints }} (h : AllPlaced start t)
    (hcommit : t.store.afterCommit ws = some db)
    (hinserts : ∀ vm, .vm (.insert vm) ∈ ws → Placed p t.log vm) (i : ℕ) (vm : StudentVM)
    (hvm : db.1.studentVms.get? i = some vm) :
    (start.store.db.studentVms.get? i).isSome = true ∨ ∃ p, Placed p t.log vm := by
  refine Store.vm_afterCommit (P := fun vm =>
    (start.store.db.studentVms.get? i).isSome = true ∨ ∃ p, Placed p t.log vm) hcommit ?_ ?_ ?_
    vm hvm
  · exact fun vm hvm => h i vm hvm
  · exact fun vm _ hmem _ => Or.inr ⟨p, hinserts vm hmem⟩
  · rintro w _ _ vm _ (hstart | ⟨p', hplaced⟩)
    · exact Or.inl hstart
    · exact Or.inr ⟨p', hplaced.sameRecord (w.onRow_sameRecord vm)⟩

/-- Every step keeps the VMs placed. -/
theorem allPlaced_preserved (start : Sys H) :
    (placing settings outside).allowed.Preserves (AllPlaced start) where
  stmt := by
    rintro p q t h ⟨-, -, -, hinserts⟩
    have hlog : t.log <:+ ((machine outside).exec p q t).log := List.suffix_cons _ _
    rcases Store.exec_cases p q t.store with ⟨ws, db, rfl, hcommit, hdb, -⟩ | ⟨-, -, hsame⟩
    · intro i vm hvm
      have hvm : (t.store.exec p (.commit ws)).db.studentVms.get? i = some vm := hvm
      rw [hdb] at hvm
      cases h.commit hcommit (hinserts ws rfl) i vm hvm with
      | inl hstart => exact Or.inl hstart
      | inr hplaced =>
        obtain ⟨p', hplaced⟩ := hplaced
        exact Or.inr ⟨p', lasting_placed p' vm _ _ hlog hplaced⟩
    · exact h.suffix hlog fun i => hsame.vm i
  call := by
    rintro p c t r t' h ⟨-, -, hyper, -, rfl⟩
    exact h.suffix ((List.suffix_cons _ _).trans (List.suffix_cons _ _)) fun _ => rfl
  enter := fun r t h _ => h.suffix (List.suffix_cons _ _) fun _ => rfl
  leave := fun p t h => h.suffix (List.suffix_cons _ _) fun _ => rfl
  env := by
    rintro t t' h ⟨-, -, henv, hlog⟩
    refine h.suffix ?_ fun i => henv.sameRows.vm i
    exact hlog ▸ List.suffix_refl _

/-- What `create_vm` sees of a choice among rows is the choice among their dictionaries. -/
def ChoosesAmongRows : Prop :=
  ∀ (nodes : List Placement.Node) (rows : List ProxmoxNode) (counts : String → Option ℤ)
    (running : String → ℕ) (placementPolicy : Option Text) (defaultNode : Option String)
    (allowed : List String), List.Forall₂ Placement.Node.Records nodes rows →
    (∀ row ∈ rows, (counts row.nodeName).getD 0 = running row.nodeName) →
    chooseClusterNode rows running
        (Placement.readPolicy (Placement.effectivePolicy placementPolicy defaultNode))
        (nonblank defaultNode) allowed =
      (Placement.chooseClusterNode nodes counts placementPolicy defaultNode (some allowed)).map
        fun decision => (decision.selectedNode, decision.reason)

/-- In every run of the system the node of a VM was eligible when the VM was placed, and the
choice among the eligible nodes is as promised, for any nodes; for those of the database it is the
choice that `create_vm` makes. -/
theorem vms_placed_best (settings : Settings) (outside : Outside H) (start : Sys H)
    (hstart : start.Initial) :
    (∀ w, World.Reach (system settings outside) (World.idle start) w →
      ∀ vm ∈ w.shared.store.db.studentVms.rows,
        (start.store.db.studentVms.get? vm.id).isSome = true ∨ ∃ p, Placed p w.shared.log vm) ∧
      (∀ nodes counts placementPolicy defaultNode allowedNodes,
        Placement.Chooses nodes counts placementPolicy defaultNode allowedNodes) ∧
      ChoosesAmongRows := by
  refine ⟨?_, Placement.chooses, ?_⟩
  · intro w hreach vm hvm
    have hlogged : WellLogged start.log := by
      rw [hstart.log]
      exact wellLogged_nil
    have hconduct := (conduct_sound settings outside).reach_allowed
      (Discipline.holds_idle hlogged) hreach
    have hallowed := (placing_sound settings outside).reach_allowed
      (Discipline.holds_idle hlogged) hconduct
    have hinitial : AllPlaced start (World.idle (G := Api) start).shared := by
      intro i vm hvm
      have hvm : start.store.db.studentVms.get? i = some vm := hvm
      rw [hvm]
      exact Or.inl rfl
    exact (allPlaced_preserved start).of_reach hinitial hallowed vm.id vm (Table.get?_of_mem hvm)
  · intro nodes rows counts running placementPolicy defaultNode allowed hrows hcounts
    exact Placement.chooseClusterNode_rows hrows hcounts allowed

end Placing

namespace Fixture

/-- The cluster prefers its node, and asks for a storage and a bridge. -/
def demandingStore : Store where
  db := { baseDb with
    proxmoxClusterDefaults := ⟨[⟨1, 1, some "n", some "local", some "vmbr0", none⟩], 2,
      by decide, by decide⟩ }
  valid := by decide
  clock := 100
  locks := []
  nonce := 0

/-- The node has what the cluster asks for. -/
def equipped : (c : Call) → Except Exc c.Reply
  | .discoverTemplates _ => .ok [⟨some "n", some 9000⟩]
  | .discoverStorage _ => .ok [⟨"n", some "local", true⟩]
  | .discoverNetworks _ => .ok [⟨"n", some "vmbr0"⟩]
  | _ => .error (.transport "")

/-- The instructor creates a VM. -/
def createOne : List (Move Api Request) :=
  [.spawn (.createVm ⟨3, some 1⟩ { templateId := 1, labName := "l" }), .run 0 13 equipped]

set_option maxRecDepth 100000 in
/-- The VM that is created has been placed. -/
theorem vms_placed_best_created : ∃ w, World.Reach (system {} anything)
    (World.idle (start demandingStore)) w ∧
      ∃ vm ∈ w.shared.store.db.studentVms.rows, vm.proxmoxNode = "n" ∧
        ∃ p, Placed p w.shared.log vm := by
  have hplay : (player.play (World.idle (start demandingStore)) createOne).any (fun w =>
      w.shared.store.db.studentVms.rows.any fun vm => vm.proxmoxNode = "n") = true := by
    decide +kernel
  obtain ⟨w, hr, hw⟩ := player.exists_of_play hplay
  obtain ⟨vm, hvm, hnode⟩ := List.any_eq_true.mp hw
  refine ⟨w, hr, vm, hvm, of_decide_eq_true hnode, ?_⟩
  cases (vms_placed_best {} anything (start demandingStore) ⟨rfl, rfl⟩).1 w hr vm hvm with
  | inl hold => cases hold
  | inr hplaced => exact hplaced

/-- A node with 2^53 bytes of memory, and one with a byte more, which a double does not tell. -/
def smaller : Placement.Node :=
  { nodeName := some "a", status := some "online".toList, memoryTotal := some (2 ^ 53) }

def larger : Placement.Node :=
  { nodeName := some "b", status := some "online".toList, memoryTotal := some (2 ^ 53 + 1) }

/-- The node with one more byte of memory is better by its exact figures. -/
theorem better_larger : Placement.Better (fun _ => none) larger smaller := by
  left
  decide +kernel

set_option maxRecDepth 100000 in
/-- The node with more free memory is not chosen. -/
theorem not_choosesBest_smaller :
    ¬ ∀ nodes counts placementPolicy defaultNode allowedNodes,
      (nodes.map Placement.Node.nodeName).Nodup →
      Placement.ChoosesBest Placement.Better nodes counts placementPolicy defaultNode
        allowedNodes := by
  intro h
  have hchosen : (Placement.chooseClusterNode [smaller, larger] (fun _ => none) none none
      none).toOption.map Placement.PlacementDecision.selectedNode = some "a" := by
    decide +kernel
  cases hresult : Placement.chooseClusterNode [smaller, larger] (fun _ => none) none none none with
  | error e =>
    rw [hresult] at hchosen
    cases hchosen
  | ok decision =>
    rw [hresult] at hchosen
    have hselected : decision.selectedNode = "a" := Option.some.inj hchosen
    obtain ⟨n, hn, hname, hrivals⟩ :=
      h [smaller, larger] (fun _ => none) none none none (by decide) decision hresult nofun
    have hlarger : Placement.Candidate [smaller, larger] none larger :=
      ⟨by simp, by decide, nofun⟩
    have hmem : n = smaller ∨ n = larger := by simpa using hn.mem
    rw [hselected] at hname
    rcases hmem with rfl | rfl
    · exact hrivals larger hlarger better_larger
    · revert hname
      decide

end Fixture

end LabGoblin
