import Mathlib.Data.List.Pairwise
import Mathlib.Logic.Function.Defs

/-!
# Registers that forget

A register admits a key once: it keeps an entry for every key it admitted, refuses a key that
it has an entry for, and drops the entries that are no longer live when it is used.
`Once` is what it stands for: the register that never forgets. The two take the same
decisions on every sequence of uses in which each key comes back only while the entries that
its earlier uses would have made are live.
-/

set_option autoImplicit false

namespace Interactive.Register

variable {T K D : Type}

/-- One use of a register: the instant, the key, and what the entry for it would say of the
time for which it is kept. -/
structure Use (T K D : Type) where
  instant : T
  key : K
  limit : D

section Forgetful

variable [DecidableEq K] (live : T → D → Bool)

/-- The entries that are live at an instant. -/
def kept (now : T) (entries : List (K × D)) : List (K × D) :=
  entries.filter fun e => live now e.2

/-- Use a register: whether the key is admitted, and the entries that are left. -/
def use (u : Use T K D) (entries : List (K × D)) : Bool × List (K × D) :=
  if ((kept live u.instant entries).lookup u.key).isSome then
    (false, kept live u.instant entries)
  else (true, (u.key, u.limit) :: kept live u.instant entries)

/-- What a register answers to each of a sequence of uses. -/
def answers : List (Use T K D) → List (K × D) → List Bool
  | [], _ => []
  | u :: us, entries => (use live u entries).1 :: answers us (use live u entries).2

end Forgetful

section Once

variable [DecidableEq K]

/-- What the register that never forgets answers to each of a sequence of keys. -/
def once : List K → List K → List Bool
  | [], _ => []
  | k :: ks, used => decide (k ∉ used) :: once ks (k :: used)

/-- The keys that were answered with `true`, in order. -/
def admitted : List K → List Bool → List K
  | k :: ks, true :: bs => k :: admitted ks bs
  | _ :: ks, false :: bs => admitted ks bs
  | _, _ => []

/-- The register answers every key. -/
theorem once_length {K : Type} [DecidableEq K] (ks used : List K) :
    (once ks used).length = ks.length := by
  induction ks generalizing used with
  | nil => rfl
  | cons k ks ih => simp [once, ih]

/-- What the register that never forgets answers depends on which keys are the same only. -/
theorem once_map {K' : Type} [DecidableEq K'] {f : K → K'} (hf : Function.Injective f)
    (ks used : List K) : once (ks.map f) (used.map f) = once ks used := by
  induction ks generalizing used with
  | nil => rfl
  | cons k ks ih =>
    have hmem : f k ∈ used.map f ↔ k ∈ used := by
      rw [List.mem_map]
      constructor
      · rintro ⟨k', hk', heq⟩
        rw [← hf heq]
        exact hk'
      · exact fun hk => ⟨k, hk, rfl⟩
    have ih' := ih (k :: used)
    rw [List.map_cons] at ih'
    rw [List.map_cons, once, once, ih']
    simp [hmem]

/-- The register that never forgets admits no key that was used before, and none twice. -/
theorem once_admitted (ks used : List K) :
    (admitted ks (once ks used)).Nodup ∧ ∀ k ∈ admitted ks (once ks used), k ∉ used := by
  induction ks generalizing used with
  | nil =>
    have hnil : admitted ([] : List K) (once [] used) = [] := rfl
    rw [hnil]
    exact ⟨List.nodup_nil, fun k hk => absurd hk List.not_mem_nil⟩
  | cons k ks ih =>
    obtain ⟨hnodup, hfresh⟩ := ih (k :: used)
    by_cases hk : k ∈ used
    · have hcons : admitted (k :: ks) (once (k :: ks) used) =
          admitted ks (once ks (k :: used)) := by
        simp [once, hk, admitted]
      rw [hcons]
      refine ⟨hnodup, fun k' hk' hused => hfresh k' hk' ?_⟩
      exact List.mem_cons_of_mem k hused
    · have hcons : admitted (k :: ks) (once (k :: ks) used) =
          k :: admitted ks (once ks (k :: used)) := by
        simp [once, hk, admitted]
      rw [hcons]
      constructor
      · rw [List.nodup_cons]
        refine ⟨fun hmem => hfresh k hmem List.mem_cons_self, hnodup⟩
      · intro k' hk'
        rcases List.mem_cons.mp hk' with rfl | hk'
        · exact hk
        · exact fun hused => hfresh k' hk' (List.mem_cons_of_mem k hused)

end Once

/-! ## What a register decides -/

section Decisions

variable [DecidableEq K] {live : T → D → Bool}

/-- A key is found exactly when it has an entry. -/
theorem lookup_isSome {k : K} {entries : List (K × D)} :
    (entries.lookup k).isSome ↔ ∃ limit, (k, limit) ∈ entries := by
  induction entries with
  | nil => simp
  | cons e entries ih =>
    obtain ⟨k', limit⟩ := e
    by_cases hk : k = k'
    · subst hk
      simp
    · have hne : (k == k') = false := by simp [hk]
      rw [List.lookup_cons, hne]
      simp [ih, hk]

/-- The entries agree with the keys used so far, as far as one use can see: those of its key
are live, and there is one if and only if the key was used. -/
structure Agrees (live : T → D → Bool) (entries : List (K × D)) (used : List K)
    (u : Use T K D) : Prop where
  live : ∀ limit, (u.key, limit) ∈ entries → live u.instant limit = true
  used : (∃ limit, (u.key, limit) ∈ entries) ↔ u.key ∈ used

/-- A later use finds what the earlier one saw and made: the entries that are live then are live
before, and the entry for its own key is live then. -/
def Covered (live : T → D → Bool) (u v : Use T K D) : Prop :=
  (∀ limit, live v.instant limit = true → live u.instant limit = true) ∧
    (u.key = v.key → live v.instant u.limit = true)

omit [DecidableEq K] in
/-- Dropping entries early loses none of the key of a later use. -/
theorem Agrees.kept {u v : Use T K D} {entries : List (K × D)} {used : List K}
    (h : Agrees live entries used v) (hcovered : Covered live u v) (limit : D) :
    (v.key, limit) ∈ kept live u.instant entries ↔ (v.key, limit) ∈ entries := by
  constructor
  · intro hmem
    exact (List.mem_filter.mp hmem).1
  · intro hmem
    have hlive := hcovered.1 limit (h.live limit hmem)
    exact List.mem_filter.mpr ⟨hmem, hlive⟩

/-- A use is answered as by the register that never forgets. -/
theorem Agrees.answer {u : Use T K D} {entries : List (K × D)} {used : List K}
    (h : Agrees live entries used u) : (use live u entries).1 = decide (u.key ∉ used) := by
  have hsome : ((Register.kept live u.instant entries).lookup u.key).isSome ↔
      u.key ∈ used := by
    rw [lookup_isSome, ← h.used]
    constructor
    · rintro ⟨limit, hmem⟩
      exact ⟨limit, (List.mem_filter.mp hmem).1⟩
    · rintro ⟨limit, hmem⟩
      exact ⟨limit, List.mem_filter.mpr ⟨hmem, h.live limit hmem⟩⟩
  by_cases hu : u.key ∈ used
  · simp [use, hsome.mpr hu, hu]
  · have hnone := mt hsome.mp hu
    simp [use, hnone, hu]

/-- One use keeps the agreement for the covered ones after it. -/
theorem Agrees.after {u v : Use T K D} {entries : List (K × D)} {used : List K}
    (hu : Agrees live entries used u) (hv : Agrees live entries used v)
    (hcovered : Covered live u v) :
    Agrees live (use live u entries).2 (u.key :: used) v := by
  have hanswer := hu.answer
  by_cases hused : u.key ∈ used
  · have hstate : (use live u entries).2 = Register.kept live u.instant entries := by
      unfold use at hanswer ⊢
      split
      · rfl
      · rename_i hnone
        simp [hnone, hused] at hanswer
    rw [hstate]
    constructor
    · intro limit hmem
      exact hv.live limit ((hv.kept hcovered limit).mp hmem)
    · have hexists : (∃ limit, (v.key, limit) ∈ Register.kept live u.instant entries) ↔
          v.key ∈ used := by
        simp only [hv.kept hcovered, hv.used]
      rw [hexists, List.mem_cons]
      constructor
      · exact .inr
      · rintro (heq | hmem)
        · rw [heq]
          exact hused
        · exact hmem
  · have hstate : (use live u entries).2 =
        (u.key, u.limit) :: Register.kept live u.instant entries := by
      unfold use at hanswer ⊢
      split
      · rename_i hsome
        simp [hsome, hused] at hanswer
      · rfl
    rw [hstate]
    constructor
    · intro limit hmem
      rcases List.mem_cons.mp hmem with heq | hmem
      · have hkey : v.key = u.key := congrArg Prod.fst heq
        have hlimit : limit = u.limit := congrArg Prod.snd heq
        rw [hlimit]
        exact hcovered.2 hkey.symm
      · exact hv.live limit ((hv.kept hcovered limit).mp hmem)
    · have hexists : (∃ limit, (v.key, limit) ∈ Register.kept live u.instant entries) ↔
          v.key ∈ used := by
        simp only [hv.kept hcovered, hv.used]
      rw [List.mem_cons, ← hexists]
      constructor
      · rintro ⟨limit, hmem⟩
        rcases List.mem_cons.mp hmem with heq | hmem
        · exact .inl (congrArg Prod.fst heq)
        · exact .inr ⟨limit, hmem⟩
      · rintro (heq | ⟨limit, hmem⟩)
        · rw [heq]
          exact ⟨u.limit, List.mem_cons_self⟩
        · exact ⟨limit, List.mem_cons_of_mem _ hmem⟩

/-- On covered uses a register decides as the one that never forgets. -/
theorem answers_eq_once {us : List (Use T K D)} {entries : List (K × D)} {used : List K}
    (hcovered : us.Pairwise (Covered live)) (h : ∀ u ∈ us, Agrees live entries used u) :
    answers live us entries = once (us.map Use.key) used := by
  induction us generalizing entries used with
  | nil => rfl
  | cons u us ih =>
    obtain ⟨hfirst, hrest⟩ := List.pairwise_cons.mp hcovered
    have hu := h u List.mem_cons_self
    have hafter : ∀ v ∈ us, Agrees live (use live u entries).2 (u.key :: used) v := by
      intro v hv
      exact hu.after (h v (List.mem_cons_of_mem u hv)) (hfirst v hv)
    rw [answers, List.map_cons, once, hu.answer, ih hrest hafter]

omit [DecidableEq K] in
/-- Before its first use a register has no entries. -/
theorem agrees_nil (u : Use T K D) : Agrees live [] [] u where
  live := fun _ h => absurd h List.not_mem_nil
  used := by simp

/-- From its first use on, a register decides on covered uses as the one that never forgets. -/
theorem answers_nil {us : List (Use T K D)} (hcovered : us.Pairwise (Covered live)) :
    answers live us [] = once (us.map Use.key) [] :=
  answers_eq_once hcovered fun u _ => agrees_nil u

end Decisions

end Interactive.Register
