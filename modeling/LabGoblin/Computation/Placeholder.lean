import Mathlib.Data.List.Infix

/-!
# Placeholders

A text is split where it contains a placeholder, and joined with what stands in for it. Replacing
two placeholders one after the other is rendering one list of pieces, as long as what stands in
for the first has nothing in common with the second. A rendering determines what stands in for the
placeholders when the lengths move together. Where they do not, a sign in front of what stands in
for the second placeholder tells where the placeholders are.
-/

set_option autoImplicit false

namespace Interactive.Placeholder

variable {α : Type} [DecidableEq α]

/-! ## Splitting and replacing -/

/-- Put a letter in front of the first part. -/
def extend (a : α) : List (List α) → List (List α)
  | [] => [[a]]
  | part :: parts => (a :: part) :: parts

/-- The parts of a text between the occurrences of `old`, from left to right. The number counts
the letters that still belong to the last occurrence. -/
def splitFrom (old : List α) : ℕ → List α → List (List α)
  | _, [] => [[]]
  | skip + 1, _ :: s => splitFrom old skip s
  | 0, a :: s =>
    if old.isPrefixOf (a :: s) then [] :: splitFrom old (old.length - 1) s
    else extend a (splitFrom old 0 s)

def split (old s : List α) : List (List α) := splitFrom old 0 s

/-- The text with `new` instead of `old`. -/
def replace (old new s : List α) : List α := new.intercalate (split old s)

variable {old new : List α} {a : α} {s : List α}

/-- Splitting always leaves at least one part. -/
theorem splitFrom_ne_nil (old : List α) (skip : ℕ) (s : List α) : splitFrom old skip s ≠ [] := by
  induction s generalizing skip with
  | nil =>
    unfold splitFrom
    simp
  | cons a s ih =>
    cases skip with
    | succ skip => exact ih skip
    | zero =>
      unfold splitFrom
      split
      · simp
      · unfold extend
        split <;> simp

omit [DecidableEq α] in
/-- A letter put before the first part stands before the joined text. -/
theorem intercalate_extend {parts : List (List α)} (h : parts ≠ []) :
    new.intercalate (extend a parts) = a :: new.intercalate parts := by
  cases parts with
  | nil => exact absurd rfl h
  | cons part parts =>
    unfold extend
    cases parts with
    | nil => simp
    | cons part' parts => simp [List.intercalate_cons_cons]

/-- What `replace` makes of the rest of a text. -/
def replaceFrom (old new : List α) (skip : ℕ) (s : List α) : List α :=
  new.intercalate (splitFrom old skip s)

/-- Nothing is replaced in the empty text. -/
theorem replaceFrom_nil (skip : ℕ) : replaceFrom old new skip [] = [] := by
  unfold replaceFrom splitFrom
  simp

/-- Where the placeholder starts, its replacement is written and its letters are skipped. -/
theorem replaceFrom_of_prefix (h : old <+: a :: s) :
    replaceFrom old new 0 (a :: s) = new ++ replaceFrom old new (old.length - 1) s := by
  unfold replaceFrom
  rw [splitFrom, if_pos (List.isPrefixOf_iff_prefix.mpr h)]
  rw [List.intercalate_cons_of_ne_nil (splitFrom_ne_nil _ _ _)]
  rfl

/-- Where the placeholder does not start, the letter is kept. -/
theorem replaceFrom_of_not_prefix (h : ¬ old <+: a :: s) :
    replaceFrom old new 0 (a :: s) = a :: replaceFrom old new 0 s := by
  have hno : ¬ old.isPrefixOf (a :: s) = true := fun hp => h (List.isPrefixOf_iff_prefix.mp hp)
  unfold replaceFrom
  rw [splitFrom, if_neg hno, intercalate_extend (splitFrom_ne_nil _ _ _)]

/-- A text without a letter of `old` in front stays as it is. -/
theorem replaceFrom_append_of_disjoint {between : List α} (hold : old ≠ [])
    (h : ∀ c ∈ between, c ∉ old) :
    replaceFrom old new 0 (between ++ s) = between ++ replaceFrom old new 0 s := by
  induction between with
  | nil => rfl
  | cons c between ih =>
    have hno : ¬ old <+: c :: (between ++ s) := by
      intro hp
      cases old with
      | nil => exact hold rfl
      | cons o old =>
        have hco : o = c := (List.cons_prefix_cons.mp hp).1
        apply h c List.mem_cons_self
        rw [hco]
        exact List.mem_cons_self
    rw [List.cons_append, replaceFrom_of_not_prefix hno, List.cons_append]
    rw [ih fun d hd => h d (List.mem_cons_of_mem _ hd)]

omit [DecidableEq α] in
/-- No occurrence of `old` reaches into letters that are not in it. -/
theorem prefix_of_prefix_append {between t : List α} (hne : between ≠ [])
    (h : ∀ c ∈ between, c ∉ old) (hp : old <+: s ++ between ++ t) : old <+: s := by
  rw [List.append_assoc] at hp
  have hs : s <+: s ++ (between ++ t) := List.prefix_append _ _
  cases List.prefix_or_prefix_of_prefix hp hs with
  | inl hle => exact hle
  | inr hge =>
    obtain ⟨rest, rfl⟩ := hge
    have hrest : rest <+: between ++ t := (List.prefix_append_right_inj s).mp hp
    cases rest with
    | nil => simp
    | cons r rest =>
      cases between with
      | nil => exact absurd rfl hne
      | cons c between =>
        have hrc : r = c := (List.cons_prefix_cons.mp hrest).1
        have hmem := h c List.mem_cons_self
        rw [← hrc] at hmem
        exact absurd (List.mem_append_right s List.mem_cons_self) hmem

/-- Letters that are not in `old` part a text for `replace`. -/
theorem replaceFrom_append {between t : List α} (hold : old ≠ []) (hne : between ≠ [])
    (h : ∀ c ∈ between, c ∉ old) {skip : ℕ} (hskip : skip ≤ s.length) :
    replaceFrom old new skip (s ++ between ++ t) =
      replaceFrom old new skip s ++ between ++ replaceFrom old new 0 t := by
  induction s generalizing skip with
  | nil =>
    have hzero : skip = 0 := by simpa using hskip
    rw [hzero, replaceFrom_nil]
    exact replaceFrom_append_of_disjoint hold h
  | cons a s ih =>
    cases skip with
    | succ skip =>
      have hskip : skip ≤ s.length := by simpa using hskip
      exact ih hskip
    | zero =>
      have hiff : old <+: a :: (s ++ between ++ t) ↔ old <+: a :: s := by
        constructor
        · intro hp
          exact prefix_of_prefix_append hne h hp
        · intro hp
          have happ : a :: s <+: a :: (s ++ between ++ t) :=
            ⟨between ++ t, by simp⟩
          exact hp.trans happ
      by_cases hp : old <+: a :: s
      · have hlength : old.length - 1 ≤ s.length := by
          have := hp.length_le
          rw [List.length_cons] at this
          omega
        rw [List.cons_append, List.cons_append, replaceFrom_of_prefix (hiff.mpr hp),
          replaceFrom_of_prefix hp, ih hlength]
        simp
      · rw [List.cons_append, List.cons_append, replaceFrom_of_not_prefix (mt hiff.mp hp),
          replaceFrom_of_not_prefix hp, ih (Nat.zero_le _)]
        simp

/-- A separator that shares no letter with the placeholder splits the replacement in two. -/
theorem replace_append {between t : List α} (hold : old ≠ []) (hne : between ≠ [])
    (h : ∀ c ∈ between, c ∉ old) :
    replace old new (s ++ between ++ t) = replace old new s ++ between ++ replace old new t :=
  replaceFrom_append hold hne h (Nat.zero_le _)

/-- `replace` works on the parts of a text one by one. -/
theorem replace_intercalate {between : List α} (hold : old ≠ []) (hne : between ≠ [])
    (h : ∀ c ∈ between, c ∉ old) (parts : List (List α)) :
    replace old new (between.intercalate parts) =
      between.intercalate (parts.map (replace old new)) := by
  induction parts with
  | nil => exact replaceFrom_nil 0
  | cons part parts ih =>
    cases parts with
    | nil => simp
    | cons part' parts =>
      rw [List.intercalate_cons_cons, replace_append hold hne h, ih]
      simp only [List.map_cons, List.intercalate_cons_cons]

/-! ## Where the placeholders are -/

/-- A text that does not contain `old` is not split. -/
theorem split_eq_singleton (h : ¬ old <:+: s) : split old s = [s] := by
  unfold split
  induction s with
  | nil => rfl
  | cons a s ih =>
    have hno : ¬ old.isPrefixOf (a :: s) = true := by
      intro hp
      exact h (List.isPrefixOf_iff_prefix.mp hp).isInfix
    have hs : ¬ old <:+: s := fun hin => h (List.infix_cons hin)
    rw [splitFrom, if_neg hno, ih hs]
    rfl

omit [DecidableEq α] in
/-- Putting a letter before the first part does not change the number of parts. -/
theorem length_extend {parts : List (List α)} (h : parts ≠ []) :
    (extend a parts).length = parts.length := by
  cases parts with
  | nil => exact absurd rfl h
  | cons part parts => rfl

/-- A text that contains `old` is split. -/
theorem one_lt_length_split (h : old <:+: s) (hold : old ≠ []) : 1 < (split old s).length := by
  unfold split
  induction s with
  | nil => exact absurd (List.infix_nil.mp h) hold
  | cons a s ih =>
    rw [splitFrom]
    by_cases hp : old.isPrefixOf (a :: s) = true
    · rw [if_pos hp, List.length_cons]
      have hpos := List.length_pos_of_ne_nil (splitFrom_ne_nil old (old.length - 1) s)
      omega
    · rw [if_neg hp, length_extend (splitFrom_ne_nil _ _ _)]
      cases List.infix_cons_iff.mp h with
      | inl hprefix => exact absurd (List.isPrefixOf_iff_prefix.mpr hprefix) hp
      | inr hin => exact ih hin

/-! ## Pieces -/

/-- A letter of a text, or one of its two placeholders. -/
inductive Piece (α : Type) where
  | letter (a : α)
  | first
  | second
  deriving DecidableEq

/-- A text with what stands in for its placeholders. -/
def render (first second : List α) : List (Piece α) → List α
  | [] => []
  | .letter a :: pieces => a :: render first second pieces
  | .first :: pieces => first ++ render first second pieces
  | .second :: pieces => second ++ render first second pieces

/-- A text as pieces. -/
def pieces (old₁ old₂ s : List α) : List (Piece α) :=
  [Piece.first].intercalate ((split old₁ s).map fun part =>
    [Piece.second].intercalate ((split old₂ part).map fun part => part.map Piece.letter))

section Rendering

variable {old₁ old₂ first second : List α}

omit [DecidableEq α] in
/-- Two lists of pieces are rendered one after the other. -/
theorem render_append (first second : List α) (ps qs : List (Piece α)) :
    render first second (ps ++ qs) = render first second ps ++ render first second qs := by
  induction ps with
  | nil => rfl
  | cons p ps ih => cases p <;> simp [render, ih]

omit [DecidableEq α] in
/-- Letters are rendered as themselves. -/
theorem render_letters (first second s : List α) :
    render first second (s.map Piece.letter) = s := by
  induction s with
  | nil => rfl
  | cons a s ih => simp [render, ih]

omit [DecidableEq α] in
/-- Rendering goes through the parts of a text. -/
theorem render_intercalate (first second : List α) (hole : Piece α)
    (parts : List (List (Piece α))) :
    render first second ([hole].intercalate parts) =
      (render first second [hole]).intercalate (parts.map (render first second)) := by
  induction parts with
  | nil => rfl
  | cons part parts ih =>
    cases parts with
    | nil => simp
    | cons part' parts =>
      rw [List.intercalate_cons_cons, render_append, render_append, ih]
      simp only [List.map_cons, List.intercalate_cons_cons]

/-- Replacing one placeholder after the other renders the pieces. -/
theorem replace_replace (hold₂ : old₂ ≠ []) (hfirst : first ≠ [])
    (h : ∀ c ∈ first, c ∉ old₂) (s : List α) :
    replace old₂ second (replace old₁ first s) = render first second (pieces old₁ old₂ s) := by
  have hpart : ∀ part, render first second ([Piece.second].intercalate
      ((split old₂ part).map fun part => part.map Piece.letter)) = replace old₂ second part := by
    intro part
    have hsecond : render first second [Piece.second] = second := by simp [render]
    rw [render_intercalate, hsecond, List.map_map]
    have hletters : (render first second ∘ fun part => List.map Piece.letter part) = id := by
      funext part
      exact render_letters first second part
    rw [hletters, List.map_id]
    rfl
  have hhole : render first second [Piece.first] = first := by simp [render]
  unfold pieces
  rw [render_intercalate, hhole, List.map_map]
  show replace old₂ second (first.intercalate (split old₁ s)) = _
  rw [replace_intercalate hold₂ hfirst h]
  exact congrArg _ (List.map_congr_left fun part _ => (hpart part).symm)

/-! ### Placeholders among the pieces -/

omit [DecidableEq α] in
/-- A piece of a joined list is the separator, once there are two parts, or a piece of a part. -/
theorem mem_intercalate {hole p : Piece α} {parts : List (List (Piece α))} :
    p ∈ [hole].intercalate parts ↔ (p = hole ∧ 1 < parts.length) ∨ ∃ part ∈ parts, p ∈ part := by
  induction parts with
  | nil => simp
  | cons part parts ih =>
    cases parts with
    | nil => simp
    | cons part' parts =>
      rw [List.intercalate_cons_cons, List.mem_append, List.mem_append, ih]
      simp only [List.mem_cons, List.not_mem_nil, or_false, List.length_cons, exists_eq_or_imp]
      constructor
      · rintro ((hp | hp) | ⟨hp, -⟩ | hp | hp)
        · exact Or.inr (Or.inl hp)
        · exact Or.inl ⟨hp, by omega⟩
        · exact Or.inl ⟨hp, by omega⟩
        · exact Or.inr (Or.inr (Or.inl hp))
        · exact Or.inr (Or.inr (Or.inr hp))
      · rintro (⟨hp, -⟩ | hp | hp | hp)
        · exact Or.inl (Or.inr hp)
        · exact Or.inl (Or.inl hp)
        · exact Or.inr (Or.inr (Or.inl hp))
        · exact Or.inr (Or.inr (Or.inr hp))

/-- The first sign is among the pieces exactly when its placeholder occurs in the text. -/
theorem first_mem_pieces (hold₁ : old₁ ≠ []) : Piece.first ∈ pieces old₁ old₂ s ↔ old₁ <:+: s := by
  unfold pieces
  constructor
  · intro h
    by_contra hno
    rw [split_eq_singleton hno] at h
    simp [mem_intercalate] at h
  · intro h
    rw [mem_intercalate, List.length_map]
    exact Or.inl ⟨rfl, one_lt_length_split h hold₁⟩

/-- In a text without the first placeholder, an occurrence of the second one yields its sign. -/
theorem second_mem_pieces (hold₂ : old₂ ≠ []) (hno : ¬ old₁ <:+: s) (h : old₂ <:+: s) :
    Piece.second ∈ pieces old₁ old₂ s := by
  unfold pieces
  rw [split_eq_singleton hno]
  simp only [List.map_cons, List.map_nil, List.intercalate_singleton]
  rw [mem_intercalate, List.length_map]
  exact Or.inl ⟨rfl, one_lt_length_split h hold₂⟩

/-! ### What a rendering tells -/

variable {first' second' : List α} {ps : List (Piece α)}

omit [DecidableEq α] in
/-- A rendering grows with what stands in for the placeholders that occur. -/
theorem length_render_le (hfirst : Piece.first ∈ ps → first.length ≤ first'.length)
    (hsecond : Piece.second ∈ ps → second.length ≤ second'.length) :
    (render first second ps).length ≤ (render first' second' ps).length ∧
      ((render first second ps).length = (render first' second' ps).length →
        (Piece.first ∈ ps → first.length = first'.length) ∧
        (Piece.second ∈ ps → second.length = second'.length)) := by
  induction ps with
  | nil => simp [render]
  | cons p ps ih =>
    obtain ⟨hle, heq⟩ := ih (fun h => hfirst (List.mem_cons_of_mem _ h))
      (fun h => hsecond (List.mem_cons_of_mem _ h))
    cases p with
    | letter a =>
      simp only [render, List.length_cons]
      refine ⟨by omega, fun h => ?_⟩
      have hrest := heq (by omega)
      simpa using hrest
    | first =>
      have hf := hfirst List.mem_cons_self
      simp only [render, List.length_append]
      refine ⟨by omega, fun h => ?_⟩
      have hrest := heq (by omega)
      refine ⟨fun _ => by omega, fun hmem => hrest.2 ?_⟩
      simpa using hmem
    | second =>
      have hs := hsecond List.mem_cons_self
      simp only [render, List.length_append]
      refine ⟨by omega, fun h => ?_⟩
      have hrest := heq (by omega)
      refine ⟨fun hmem => hrest.1 ?_, fun _ => by omega⟩
      simpa using hmem

omit [DecidableEq α] in
/-- Where the lengths agree, a rendering determines what stands in for the placeholders. -/
theorem render_inj (hfirst : Piece.first ∈ ps → first.length = first'.length)
    (hsecond : Piece.second ∈ ps → second.length = second'.length)
    (h : render first second ps = render first' second' ps) :
    (Piece.first ∈ ps → first = first') ∧ (Piece.second ∈ ps → second = second') := by
  induction ps with
  | nil => simp
  | cons p ps ih =>
    have ih := ih (fun h => hfirst (List.mem_cons_of_mem _ h))
      (fun h => hsecond (List.mem_cons_of_mem _ h))
    cases p with
    | letter a =>
      simp only [render, List.cons.injEq, true_and] at h
      simpa using ih h
    | first =>
      simp only [render] at h
      obtain ⟨heq, hrest⟩ := List.append_inj h (hfirst List.mem_cons_self)
      refine ⟨fun _ => heq, fun hmem => (ih hrest).2 ?_⟩
      simpa using hmem
    | second =>
      simp only [render] at h
      obtain ⟨heq, hrest⟩ := List.append_inj h (hsecond List.mem_cons_self)
      refine ⟨fun hmem => (ih hrest).1 ?_, fun _ => heq⟩
      simpa using hmem

omit [DecidableEq α] in
/-- Where the lengths move together, a rendering determines what stands in for the placeholders. -/
theorem render_inj_of_le (hfirst : Piece.first ∈ ps → first.length ≤ first'.length)
    (hsecond : Piece.second ∈ ps → second.length ≤ second'.length)
    (h : render first second ps = render first' second' ps) :
    (Piece.first ∈ ps → first = first') ∧ (Piece.second ∈ ps → second = second') := by
  obtain ⟨hf, hs⟩ := (length_render_le hfirst hsecond).2 (congrArg List.length h)
  exact render_inj hf hs h

end Rendering

/-! ### Signs -/

section Signs

variable {first first' second second' : List α} {c : α} {ps : List (Piece α)}

omit [DecidableEq α] in
/-- Letters only read the same whatever stands in for the placeholders. -/
theorem render_letters_append (first second s : List α) (ps : List (Piece α)) :
    render first second (s.map Piece.letter ++ ps) = s ++ render first second ps := by
  rw [render_append, render_letters]

/-- A letter that is in no text that stands in occurs as often in both renderings. -/
theorem count_render (hsecond : Piece.second ∉ ps) (h : c ∉ first) (h' : c ∉ first') :
    (render first second ps).count c = (render first' second' ps).count c := by
  induction ps with
  | nil => rfl
  | cons p ps ih =>
    have hrest := ih fun hmem => hsecond (List.mem_cons_of_mem _ hmem)
    cases p with
    | letter a => simp [render, List.count_cons, hrest]
    | first => simp [render, List.count_append, List.count_eq_zero.mpr h,
        List.count_eq_zero.mpr h', hrest]
    | second => exact absurd List.mem_cons_self hsecond

/-- Where the first placeholder stands before the second, a longer text for it moves the sign in
front of the second: the renderings differ. -/
theorem render_ne_of_first_leading {pre post : List (Piece α)} (hpre : Piece.second ∉ pre)
    (hfirst : Piece.first ∈ pre) (hlt : first.length < first'.length) (h : c ∉ first)
    (h' : c ∉ first') {rest : List α} (hsecond : second = c :: rest) :
    render first second (pre ++ .second :: post) ≠
      render first' second' (pre ++ .second :: post) := by
  intro heq
  obtain ⟨hle, hlength⟩ := @length_render_le _ first second first' second' pre
    (fun _ => le_of_lt hlt) fun hmem => absurd hmem hpre
  have hshort : (render first second pre).length < (render first' second' pre).length := by
    refine lt_of_le_of_ne hle fun hsame => ?_
    have := (hlength hsame).1 hfirst
    omega
  rw [render_append, render_append] at heq
  -- the sign falls into the first part of the other rendering
  have hpart : render first second pre ++ [c] <+: render first' second' pre := by
    have hleft : render first second pre ++ [c] <+:
        render first second pre ++ render first second (.second :: post) := by
      rw [List.prefix_append_right_inj]
      simp [render, hsecond]
    have hright : render first' second' pre <+:
        render first second pre ++ render first second (.second :: post) := by
      rw [heq]
      exact List.prefix_append _ _
    exact List.prefix_of_prefix_length_le hleft hright (by simp; omega)
  have hcount := hpart.sublist.count_le c
  have hsame : (render first second pre).count c = (render first' second' pre).count c :=
    count_render hpre h h'
  have hone : [c].count c = 1 := List.count_singleton_self
  rw [List.count_append, hone] at hcount
  omega

omit [DecidableEq α] in
/-- Behind the last sign two texts are the same. -/
theorem eq_of_append_cons_eq {s s' t t' : List α} (h : c ∉ t) (h' : c ∉ t')
    (heq : s ++ c :: t = s' ++ c :: t') : t = t' := by
  rcases List.append_eq_append_iff.mp heq with ⟨u, hs, ht⟩ | ⟨u, hs, ht⟩
  · cases u with
    | nil => exact (List.cons.inj ht).2
    | cons d u =>
      have := (List.cons.inj ht).2
      exact absurd (this ▸ by simp) h
  · cases u with
    | nil => exact (List.cons.inj ht).2.symm
    | cons d u =>
      have := (List.cons.inj ht).2
      exact absurd (this ▸ by simp) h'
end Signs

/-! ### The placeholders of a text -/

section Holes

/-- Whether a piece is a placeholder. -/
def Piece.isHole : Piece α → Bool
  | .letter _ => false
  | _ => true

omit [DecidableEq α] in
/-- Pieces none of which is a sign are the letters of a text. -/
theorem letters_of_not_isHole {ps : List (Piece α)} (h : ∀ p ∈ ps, p.isHole = false) :
    ∃ s : List α, ps = s.map Piece.letter := by
  induction ps with
  | nil => exact ⟨[], rfl⟩
  | cons p ps ih =>
    obtain ⟨s, hs⟩ := ih fun p hp => h p (List.mem_cons_of_mem _ hp)
    cases p with
    | letter a => exact ⟨a :: s, by rw [hs]; rfl⟩
    | _ => exact absurd (h _ List.mem_cons_self) (by simp [Piece.isHole])

omit [DecidableEq α] in
/-- Only letters stand in front of the first placeholder. -/
theorem eq_of_head?_isHole {ps : List (Piece α)} {p : Piece α}
    (h : (ps.filter Piece.isHole).head? = some p) :
    ∃ (s : List α) (rest : List (Piece α)), ps = s.map Piece.letter ++ p :: rest := by
  rw [List.head?_filter, List.find?_eq_some_iff_append] at h
  obtain ⟨-, before, rest, rfl, hbefore⟩ := h
  obtain ⟨s, rfl⟩ := letters_of_not_isHole fun q hq => by simpa using hbefore q hq
  exact ⟨s, rest, rfl⟩

omit [DecidableEq α] in
/-- Only letters stand behind the last placeholder. -/
theorem eq_of_getLast?_isHole {ps : List (Piece α)} {p : Piece α}
    (h : (ps.filter Piece.isHole).getLast? = some p) :
    ∃ (rest : List (Piece α)) (s : List α), ps = rest ++ p :: s.map Piece.letter := by
  rw [← List.head?_reverse, ← List.filter_reverse] at h
  obtain ⟨s, rest, hps⟩ := eq_of_head?_isHole h
  refine ⟨rest.reverse, s.reverse, ?_⟩
  have := congrArg List.reverse hps
  simpa using this

end Holes


/-! ### Renderings that read the same -/

section Same

variable {first first' second second' : List α} {c : α} {ps : List (Piece α)}

omit [DecidableEq α] in
/-- A placeholder that occurs is found among the placeholders, from either side. -/
theorem isHole_head? (hps : ps.filter Piece.isHole ≠ []) :
    (ps.filter Piece.isHole).head? = some .first ∨
      (ps.filter Piece.isHole).head? = some .second := by
  cases hholes : ps.filter Piece.isHole with
  | nil => exact absurd hholes hps
  | cons p holes =>
    have hp : p.isHole = true := (List.mem_filter.mp (hholes ▸ List.mem_cons_self)).2
    cases p with
    | letter a => cases hp
    | first => exact Or.inl rfl
    | second => exact Or.inr rfl

omit [DecidableEq α] in
/-- The last sign of a list that has one is the first or the second. -/
theorem isHole_getLast? (hps : ps.filter Piece.isHole ≠ []) :
    (ps.filter Piece.isHole).getLast? = some .first ∨
      (ps.filter Piece.isHole).getLast? = some .second := by
  have hreverse : ps.reverse.filter Piece.isHole ≠ [] := by
    rw [List.filter_reverse]
    simpa using hps
  rw [← List.head?_reverse, ← List.filter_reverse]
  exact isHole_head? hreverse

/-- What two renderings that read the same have in common when the text for the first placeholder
gets longer, and the text for the second, which starts with a sign of its own, gets shorter. -/
theorem holes_of_render_eq (hfirst : Piece.first ∈ ps) (hlt : first.length < first'.length)
    (hlt' : second'.length < second.length) (h : c ∉ first) (h' : c ∉ first') {rest : List α}
    (hsecond : second = c :: rest) (hrest : c ∉ rest) (hne : second' ≠ [])
    (hrest' : ∀ rest', second' = c :: rest' → c ∉ rest')
    (heq : render first second ps = render first' second' ps) :
    ((ps.filter Piece.isHole).head? = some .second ∧
      (ps.filter Piece.isHole).getLast? = some .first) ∧ first <:+ first' ∧ second' <+: second := by
  have hholes : ps.filter Piece.isHole ≠ [] :=
    List.ne_nil_of_mem (List.mem_filter.mpr ⟨hfirst, rfl⟩)
  have hoccurs : Piece.second ∈ ps := by
    by_contra hno
    have hlength := (@length_render_le _ first second first' second' ps
      (fun _ => le_of_lt hlt) fun hmem => absurd hmem hno).2 (congrArg List.length heq)
    have := hlength.1 hfirst
    omega
  -- the second placeholder comes first, or its sign would move
  have hhead : (ps.filter Piece.isHole).head? = some .second := by
    obtain ⟨pre, post, rfl, hpre⟩ := List.eq_append_cons_of_mem hoccurs
    have hlead : Piece.first ∉ pre := fun hmem =>
      render_ne_of_first_leading hpre hmem hlt h h' hsecond heq
    have hnone : pre.filter Piece.isHole = [] := by
      refine List.filter_eq_nil_iff.mpr fun p hp hhole => ?_
      cases p with
      | letter a => cases hhole
      | first => exact hlead hp
      | second => exact hpre hp
    rw [List.filter_append, hnone]
    rfl
  have hprefix : second' <+: second := by
    obtain ⟨s, tail, rfl⟩ := eq_of_head?_isHole hhead
    rw [render_letters_append, render_letters_append] at heq
    have heq := List.append_cancel_left heq
    have hleft : second' <+: second ++ render first second tail := by
      have hright : second ++ render first second tail = second' ++ render first' second' tail :=
        heq
      rw [hright]
      exact List.prefix_append _ _
    exact List.prefix_of_prefix_length_le hleft (List.prefix_append _ _) (le_of_lt hlt')
  obtain ⟨rest', hsign⟩ : ∃ rest', second' = c :: rest' := by
    cases second' with
    | nil => exact absurd rfl hne
    | cons d rest' =>
      rw [hsecond] at hprefix
      rw [(List.cons_prefix_cons.mp hprefix).1]
      exact ⟨rest', rfl⟩
  -- the first placeholder comes last, or what is behind the last sign would differ
  have hlast : (ps.filter Piece.isHole).getLast? = some .first := by
    refine (isHole_getLast? hholes).resolve_right fun hend => ?_
    obtain ⟨init, s, rfl⟩ := eq_of_getLast?_isHole hend
    have hrender : ∀ f g : List α, render f g (init ++ .second :: s.map Piece.letter) =
        render f g init ++ (g ++ s) := by
      intro f g
      rw [render_append]
      exact congrArg _ (congrArg _ (render_letters f g s))
    rw [hrender, hrender, ← List.append_assoc, ← List.append_assoc, hsecond, hsign] at heq
    have hsame := eq_of_append_cons_eq hrest (hrest' rest' hsign) (List.append_cancel_right heq)
    rw [hsecond, hsign, hsame] at hlt'
    exact absurd hlt' (lt_irrefl _)
  refine ⟨⟨hhead, hlast⟩, ?_, hprefix⟩
  obtain ⟨init, s, rfl⟩ := eq_of_getLast?_isHole hlast
  have hrender : ∀ f g : List α, render f g (init ++ .first :: s.map Piece.letter) =
      render f g init ++ f ++ s := by
    intro f g
    rw [render_append, List.append_assoc]
    exact congrArg _ (congrArg _ (render_letters f g s))
  rw [hrender, hrender] at heq
  have heq := List.append_cancel_right heq
  have hsuffix : first <:+ render first' second' init ++ first' := by
    rw [← heq]
    exact List.suffix_append _ _
  exact List.suffix_of_suffix_length_le hsuffix (List.suffix_append _ _) (le_of_lt hlt)

end Same

end Interactive.Placeholder
