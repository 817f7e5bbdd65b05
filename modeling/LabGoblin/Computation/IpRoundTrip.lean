import LabGoblin.Computation.IpAddress

/-!
# Addresses are read back from their texts

The text of a version 4 address consists of digits and dots, so no text with a colon is one. The
text of a version 6 address leaves out a run of at least two zeros, and what stands before and
after the run determines it.
-/

set_option autoImplicit false

namespace Interactive.Ip

/-- A joined text consists of its parts and of the separator. -/
theorem mem_of_mem_intercalate {α : Type} {sep : List α} {parts : List (List α)} {c : α}
    (h : c ∈ sep.intercalate parts) : c ∈ sep ∨ ∃ part ∈ parts, c ∈ part := by
  induction parts with
  | nil =>
    rw [List.intercalate_nil] at h
    exact absurd h List.not_mem_nil
  | cons part parts ih =>
    by_cases hparts : parts = []
    · subst hparts
      rw [List.intercalate_singleton] at h
      exact .inr ⟨part, List.mem_singleton.mpr rfl, h⟩
    · rw [List.intercalate_cons_of_ne_nil hparts] at h
      simp only [List.mem_append] at h
      rcases h with (hpart | hsep) | hrest
      · exact .inr ⟨part, List.mem_cons_self, hpart⟩
      · exact .inl hsep
      · rcases ih hrest with hsep | ⟨later, hlater, hc⟩
        · exact .inl hsep
        · exact .inr ⟨later, List.mem_cons_of_mem _ hlater, hc⟩

/-! ## Version 4 -/

/-- An octet is read back from its digits. -/
theorem parseOctet_toDigits (o : Fin 256) : parseOctet (Nat.toDigits 10 o) = some o := by
  have hall : ∀ o : Fin 256, parseOctet (Nat.toDigits 10 o) = some o := by decide +kernel
  exact hall o

/-- What is read as an octet consists of digits. -/
theorem isDigit_of_parseOctet {s : List Char} (h : (parseOctet s).isSome = true) :
    ∀ c ∈ s, c.isDigit = true := by
  unfold parseOctet at h
  split at h
  · cases h
  · split at h
    · cases h
    · rename_i hdigits
      exact List.all_eq_true.mp (Bool.not_eq_false _ ▸ hdigits)

namespace V4

/-- A text without a slash whose four parts are octets is their address. -/
theorem parse_of_read {s : List Char} {a : V4} (hslash : '/' ∉ s) (hne : s ≠ [])
    (hread : (s.splitOn '.').mapM parseOctet = some a.octets) : parse s = some a := by
  have hlength : (s.splitOn '.').length = 4 := (length_of_mapM hread).symm.trans a.length_eq
  have hrefused : ¬('/' ∈ s ∨ s = []) := not_or.mpr ⟨hslash, hne⟩
  unfold parse
  rw [if_neg hrefused, dif_pos hlength]
  split
  · rename_i octets hoctets
    have heq : octets = a.octets := Option.some.inj (hoctets.symm.trans hread)
    subst heq
    rfl
  · rename_i hnone
    rw [hread] at hnone
    cases hnone

/-- What is read as an address of version 4 consists of digits and dots. -/
theorem mem_of_parse {s : List Char} {a : V4} (h : parse s = some a) :
    ∀ c ∈ s, c.isDigit = true ∨ c = '.' := by
  unfold parse at h
  split at h
  · cases h
  · split at h
    · split at h
      · rename_i octets hread
        intro c hc
        have hjoined : ['.'].intercalate (s.splitOn '.') = s := List.intercalate_splitOn '.'
        rw [← hjoined] at hc
        rcases mem_of_mem_intercalate hc with hdot | ⟨part, hpart, hmem⟩
        · exact .inr (List.mem_singleton.mp hdot)
        · exact .inl (isDigit_of_parseOctet (read_of_mapM hread part hpart) c hmem)
      · cases h
    · cases h

/-- The text of an address consists of digits and dots. -/
theorem mem_str {a : V4} {c : Char} (h : c ∈ a.str) : c.isDigit = true ∨ c = '.' := by
  rcases mem_of_mem_intercalate h with hdot | ⟨part, hpart, hmem⟩
  · exact .inr (List.mem_singleton.mp hdot)
  · obtain ⟨o, -, rfl⟩ := List.mem_map.mp hpart
    exact .inl (Nat.isDigit_of_mem_toDigits (by decide) (by decide) hmem)

/-- The text of an address splits at its dots into the digits of the octets. -/
theorem splitOn_str (a : V4) :
    a.str.splitOn '.' = a.octets.map fun o : Fin 256 => Nat.toDigits 10 o := by
  apply List.splitOn_intercalate
  · intro part hpart hdot
    obtain ⟨o, -, rfl⟩ := List.mem_map.mp hpart
    have hdigit := Nat.isDigit_of_mem_toDigits (by decide) (by decide) hdot
    exact absurd hdigit (by decide)
  · intro hnil
    have hlength := a.length_eq
    rw [List.map_eq_nil_iff.mp hnil] at hlength
    cases hlength

/-- An address of version 4 is read back. -/
theorem parse_str (a : V4) : parse a.str = some a := by
  apply parse_of_read
  · intro hslash
    rcases mem_str hslash with hdigit | hdot
    · exact absurd hdigit (by decide)
    · exact absurd hdot (by decide)
  · intro hnil
    have hsplit := splitOn_str a
    rw [hnil] at hsplit
    have hlength := congrArg List.length hsplit
    rw [List.length_map, a.length_eq] at hlength
    exact absurd hlength (by decide)
  · rw [splitOn_str]
    exact mapM_map_of_read parseOctet_toDigits a.octets

end V4

/-! ## The longest run of zeros -/

/-- What the loop has found in the hextets that it has seen. -/
structure Runs.Found (seen : List (List Char)) (r : Runs) : Prop where
  fits : r.bestStart + r.bestLen ≤ seen.length
  best : ∀ i, r.bestStart ≤ i → i < r.bestStart + r.bestLen → seen[i]? = some ['0']
  current : ∀ s, r.start = some s → s + r.len = seen.length ∧
    ∀ i, s ≤ i → i < seen.length → seen[i]? = some ['0']
  idle : r.start = none → r.len = 0

/-- One more hextet keeps what the loop knows about the runs that it has seen. -/
theorem Runs.Found.next {seen : List (List Char)} {r : Runs} (h : r.Found seen)
    (hextet : List Char) : (r.next seen.length hextet).Found (seen ++ [hextet]) := by
  have hold : ∀ {i : ℕ}, seen[i]? = some ['0'] → (seen ++ [hextet])[i]? = some ['0'] := by
    intro i hi
    have hlt : i < seen.length := (List.getElem?_eq_some_iff.mp hi).1
    rw [List.getElem?_append_left hlt]
    exact hi
  unfold Runs.next
  by_cases hzero : hextet = ['0']
  · rw [if_pos hzero]
    have hlast : (seen ++ [hextet])[seen.length]? = some ['0'] := by
      rw [List.getElem?_concat_length, hzero]
    have hrun : ∀ i, r.start.getD seen.length ≤ i → i < seen.length + 1 →
        (seen ++ [hextet])[i]? = some ['0'] := by
      intro i hle hlt
      by_cases hi : i = seen.length
      · rw [hi]
        exact hlast
      · cases hstart : r.start with
        | none =>
          rw [hstart, Option.getD_none] at hle
          omega
        | some s =>
          rw [hstart, Option.getD_some] at hle
          exact hold ((h.current s hstart).2 i hle (by omega))
    have hlen : r.start.getD seen.length + (r.len + 1) = seen.length + 1 := by
      cases hstart : r.start with
      | none =>
        have hidle := h.idle hstart
        rw [Option.getD_none]
        omega
      | some s =>
        have hcurrent := (h.current s hstart).1
        rw [Option.getD_some]
        omega
    have hcurrent : ∀ s, some (r.start.getD seen.length) = some s →
        s + (r.len + 1) = (seen ++ [hextet]).length ∧
          ∀ i, s ≤ i → i < (seen ++ [hextet]).length → (seen ++ [hextet])[i]? = some ['0'] := by
      intro s hs
      rw [← Option.some.inj hs, List.length_append, List.length_singleton]
      exact ⟨hlen, hrun⟩
    dsimp only
    split
    · refine ⟨?_, ?_, hcurrent, fun hnone => nomatch hnone⟩
      · rw [List.length_append, List.length_singleton]
        exact hlen.le
      · intro i hle hlt
        exact hrun i hle (hlt.trans_eq hlen)
    · refine ⟨?_, ?_, hcurrent, fun hnone => nomatch hnone⟩
      · rw [List.length_append, List.length_singleton]
        exact h.fits.trans (Nat.le_succ _)
      · intro i hle hlt
        exact hold (h.best i hle hlt)
  · rw [if_neg hzero]
    refine ⟨?_, ?_, fun _ hs => (nomatch hs), fun _ => rfl⟩
    · rw [List.length_append, List.length_singleton]
      exact h.fits.trans (Nat.le_succ _)
    · intro i hle hlt
      exact hold (h.best i hle hlt)

/-- The loop knows about the hextets it has gone through, by induction on those that are left. -/
theorem Runs.Found.foldl (hextets seen : List (List Char)) {r : Runs} (h : r.Found seen) :
    ((hextets.zipIdx seen.length).foldl (fun r item => r.next item.2 item.1) r).Found
      (seen ++ hextets) := by
  induction hextets generalizing seen r with
  | nil => simpa using h
  | cons hextet hextets ih =>
    have hnext := ih (seen ++ [hextet]) (h.next hextet)
    rw [List.length_append, List.length_singleton, List.append_assoc, List.singleton_append]
      at hnext
    exact hnext

/-- At its end the loop knows about all hextets. -/
theorem found_zeroRuns (hextets : List (List Char)) : (zeroRuns hextets).Found hextets :=
  Runs.Found.foldl hextets [] ⟨Nat.le_refl 0, fun i _ hlt => absurd hlt (Nat.not_lt_zero i),
    fun _ hs => (nomatch hs), fun _ => rfl⟩

/-! ## Version 6 -/

/-- A hextet is read back from its digits. -/
theorem parseHextet_digits (h : Fin 65536) : parseHextet (Hex.digits h) = some h := by
  have hlength : ¬(4 < (Hex.digits h).length ∨ Hex.digits h = []) := by
    rintro (hlong | hnil)
    · have hle := Hex.length_digits_le (n := h) (k := 4) (by decide) h.isLt
      omega
    · exact Hex.digits_ne_nil h hnil
  unfold parseHextet
  rw [dif_neg hlength]
  split
  · rename_i hnone
    rw [Hex.readFrom_digits] at hnone
    cases hnone
  · rename_i n hread
    rw [Hex.readFrom_digits] at hread
    exact congrArg some (Fin.ext (Option.some.inj hread).symm)

/-- A part that stands for a hextet, or for none where it is empty. -/
def isPart (s : List Char) : Prop := s = [] ∨ ∃ h : Fin 65536, s = Hex.digits h

/-- A part is made of hexadecimal digits. -/
theorem mem_part {s : List Char} (h : isPart s) {c : Char} (hc : c ∈ s) :
    (Hex.value c).isSome = true := by
  rcases h with rfl | ⟨n, rfl⟩
  · exact absurd hc List.not_mem_nil
  · exact Hex.value_of_mem_digits hc

/-- Parts without an empty one between others have nothing skipped. -/
theorem skips_eq_nil {parts : List (List Char)} (h : ∀ part ∈ parts, part ≠ []) :
    skips parts = [] := by
  rw [skips, List.filter_eq_nil_iff]
  intro i _ hempty
  have hmem : [] ∈ parts := List.mem_of_getElem? (of_decide_eq_true hempty)
  exact h [] hmem rfl

/-- The one empty part between others is what is skipped. -/
theorem skips_eq_singleton {high low : List (List Char)} (hhigh : ∀ part ∈ high.tail, part ≠ [])
    (hlow : ∀ part ∈ low.dropLast, part ≠ []) (hne : high ≠ []) (hne' : low ≠ []) :
    skips (high ++ [] :: low) = [high.length] := by
  have hpos : 0 < high.length := List.length_pos_iff.mpr hne
  have hpos' : 0 < low.length := List.length_pos_iff.mpr hne'
  have hnodup : (skips (high ++ [] :: low)).Nodup := (List.nodup_range' 1).filter _
  have hmem : ∀ i, i ∈ skips (high ++ [] :: low) ↔ i ∈ [high.length] := by
    intro i
    rw [skips, List.mem_filter, List.mem_range'_1, List.mem_singleton, decide_eq_true_iff,
      List.length_append, List.length_cons]
    constructor
    · rintro ⟨⟨hfirst, hlast⟩, hempty⟩
      by_contra hother
      rcases Nat.lt_or_gt_of_ne hother with hbefore | hafter
      · rw [List.getElem?_append_left hbefore] at hempty
        have htail : [] ∈ high.tail := by
          apply List.mem_of_getElem? (i := i - 1)
          rw [List.getElem?_tail, Nat.sub_add_cancel hfirst]
          exact hempty
        exact hhigh [] htail rfl
      · rw [List.getElem?_append_right (by omega)] at hempty
        obtain ⟨k, hk⟩ : ∃ k, i - high.length = k + 1 := ⟨i - high.length - 1, by omega⟩
        rw [hk, List.getElem?_cons_succ] at hempty
        have hinit : [] ∈ low.dropLast := by
          apply List.mem_of_getElem? (i := k)
          rw [List.getElem?_dropLast, if_pos (by omega)]
          exact hempty
        exact hlow [] hinit rfl
    · rintro rfl
      refine ⟨by omega, ?_⟩
      rw [List.getElem?_append_right (Nat.le_refl _), Nat.sub_self]
      rfl
  have hsingle : [high.length].Nodup := List.nodup_cons.mpr ⟨List.not_mem_nil, List.nodup_nil⟩
  have hperm := (List.perm_ext_iff_of_nodup hnodup hsingle).mpr hmem
  exact List.perm_singleton.mp hperm

/-- The parts before or after what is skipped, where an empty part stands for none. -/
def orEmpty (parts : List (List Char)) : List (List Char) := if parts = [] then [[]] else parts

/-- There is always a part, if only the empty one. -/
theorem orEmpty_ne_nil (parts : List (List Char)) : orEmpty parts ≠ [] := by
  unfold orEmpty
  split
  · exact List.cons_ne_nil _ _
  · assumption

/-- The empty part counts where there is no other. -/
theorem length_orEmpty (parts : List (List Char)) :
    (orEmpty parts).length = max 1 parts.length := by
  unfold orEmpty
  split
  · rename_i hnil
    rw [hnil]
    rfl
  · rename_i hne
    have hpos : 0 < parts.length := List.length_pos_iff.mpr hne
    omega

/-- The texts of hextets. -/
def texts (hs : List (Fin 65536)) : List (List Char) := hs.map fun h : Fin 65536 => Hex.digits h

/-- No hextet has an empty text. -/
theorem ne_nil_of_mem_texts {hs : List (Fin 65536)} : ∀ part ∈ texts hs, part ≠ [] := by
  intro part hpart
  obtain ⟨h, -, rfl⟩ := List.mem_map.mp hpart
  exact Hex.digits_ne_nil h

/-- Only the first part may be empty. -/
theorem tail_orEmpty {hs : List (Fin 65536)} : ∀ part ∈ (orEmpty (texts hs)).tail, part ≠ [] := by
  intro part hpart
  unfold orEmpty at hpart
  split at hpart
  · cases hpart
  · exact ne_nil_of_mem_texts part (List.mem_of_mem_tail hpart)

/-- Only the last part may be empty, where it is the only one. -/
theorem dropLast_orEmpty {hs : List (Fin 65536)} :
    ∀ part ∈ (orEmpty (texts hs)).dropLast, part ≠ [] := by
  intro part hpart
  unfold orEmpty at hpart
  split at hpart
  · cases hpart
  · exact ne_nil_of_mem_texts part ((List.dropLast_sublist _).subset hpart)

/-- An end that is empty is one empty part, and no other end begins with one. -/
theorem head_orEmpty (hs : List (Fin 65536)) :
    (orEmpty (texts hs)).head? = some [] ∧ texts hs = [] ∨
      (orEmpty (texts hs)).head? ≠ some [] ∧ orEmpty (texts hs) = texts hs := by
  unfold orEmpty
  split
  · rename_i hnil
    exact .inl ⟨rfl, hnil⟩
  · refine .inr ⟨fun hhead => ?_, rfl⟩
    exact ne_nil_of_mem_texts [] (List.mem_of_mem_head? hhead) rfl

/-- The last part is empty exactly when there are no hextets. -/
theorem getLast_orEmpty (hs : List (Fin 65536)) :
    (orEmpty (texts hs)).getLast? = some [] ∧ texts hs = [] ∨
      (orEmpty (texts hs)).getLast? ≠ some [] ∧ orEmpty (texts hs) = texts hs := by
  unfold orEmpty
  split
  · rename_i hnil
    exact .inl ⟨rfl, hnil⟩
  · refine .inr ⟨fun hlast => ?_, rfl⟩
    exact ne_nil_of_mem_texts [] (List.mem_of_getLast? hlast) rfl

/-- Hextets are read back from their texts. -/
theorem mapM_texts (hs : List (Fin 65536)) : (texts hs).mapM parseHextet = some hs :=
  mapM_map_of_read parseHextet_digits hs

/-- The hextets around a skipped part are read back, with zeros for what was skipped. -/
theorem aroundSkip_texts {hi lo : List (Fin 65536)} (h : hi.length + lo.length ≤ 7) :
    aroundSkip (texts hi) (texts lo) =
      some (hi ++ List.replicate (8 - (hi.length + lo.length)) 0 ++ lo) := by
  have hhi : (texts hi).length = hi.length := List.length_map _
  have hlo : (texts lo).length = lo.length := List.length_map _
  unfold aroundSkip
  rw [if_neg (by omega), mapM_texts, mapM_texts, hhi, hlo]
  rfl

/-- Hextets around a skipped part are read with the zeros between them. -/
theorem readHextets_around {hi lo : List (Fin 65536)} (h : hi.length + lo.length ≤ 7) :
    readHextets (orEmpty (texts hi) ++ [] :: orEmpty (texts lo)) =
      some (hi ++ List.replicate (8 - (hi.length + lo.length)) 0 ++ lo) := by
  have hhi : (texts hi).length = hi.length := List.length_map _
  have hlo : (texts lo).length = lo.length := List.length_map _
  have hskips : skips (orEmpty (texts hi) ++ [] :: orEmpty (texts lo)) =
      [(orEmpty (texts hi)).length] :=
    skips_eq_singleton tail_orEmpty dropLast_orEmpty (orEmpty_ne_nil _) (orEmpty_ne_nil _)
  have hcount : ¬9 < (orEmpty (texts hi) ++ [] :: orEmpty (texts lo)).length := by
    rw [List.length_append, List.length_cons, length_orEmpty, length_orEmpty]
    omega
  have hends : ¬((orEmpty (texts hi)).head? = some [] ∧ (orEmpty (texts hi)).length ≠ 1 ∨
      (orEmpty (texts lo)).getLast? = some [] ∧ (orEmpty (texts lo)).length ≠ 1) := by
    rintro (⟨hhead, hlength⟩ | ⟨hlast, hlength⟩)
    · rcases head_orEmpty hi with ⟨-, hnil⟩ | ⟨hother, -⟩
      · exact hlength (by rw [length_orEmpty, hnil]; rfl)
      · exact hother hhead
    · rcases getLast_orEmpty lo with ⟨-, hnil⟩ | ⟨hother, -⟩
      · exact hlength (by rw [length_orEmpty, hnil]; rfl)
      · exact hother hlast
  have hhigh : (if (orEmpty (texts hi)).head? = some [] then [] else orEmpty (texts hi)) =
      texts hi := by
    rcases head_orEmpty hi with ⟨hhead, hnil⟩ | ⟨hhead, hsame⟩
    · rw [if_pos hhead, hnil]
    · rw [if_neg hhead, hsame]
  have hlow : (if (orEmpty (texts lo)).getLast? = some [] then [] else orEmpty (texts lo)) =
      texts lo := by
    rcases getLast_orEmpty lo with ⟨hlast, hnil⟩ | ⟨hlast, hsame⟩
    · rw [if_pos hlast, hnil]
    · rw [if_neg hlast, hsame]
  have hdrop : (orEmpty (texts hi) ++ [] :: orEmpty (texts lo)).drop
      ((orEmpty (texts hi)).length + 1) = orEmpty (texts lo) := by
    rw [← List.drop_drop, List.drop_left]
    rfl
  unfold readHextets
  rw [if_neg hcount, hskips]
  dsimp only
  rw [List.take_left, hdrop, if_neg hends, hhigh, hlow, aroundSkip_texts h]

/-- Eight hextets are read one by one. -/
theorem readHextets_all {hs : List (Fin 65536)} (h : hs.length = 8) :
    readHextets (texts hs) = some hs := by
  have hlength : (texts hs).length = 8 := (List.length_map _).trans h
  have hends : ¬((texts hs).length ≠ 8 ∨ (texts hs).head? = some [] ∨
      (texts hs).getLast? = some []) := by
    rintro (hcount | hhead | hlast)
    · exact hcount hlength
    · exact ne_nil_of_mem_texts [] (List.mem_of_mem_head? hhead) rfl
    · exact ne_nil_of_mem_texts [] (List.mem_of_getLast? hlast) rfl
  unfold readHextets
  rw [if_neg (by omega), skips_eq_nil ne_nil_of_mem_texts]
  dsimp only
  rw [if_neg hends, mapM_texts]

/-! ### The text of an address -/

/-- Only zero is written as the digit zero. -/
theorem eq_zero_of_digits {h : Fin 65536} (hzero : Hex.digits h = ['0']) : h = 0 := by
  have hread := Hex.readFrom_digits h
  rw [hzero] at hread
  exact Fin.ext (Option.some.inj hread).symm

/-- The run that is left out consists of zeros. -/
theorem run_eq_zeros {hs : List (Fin 65536)} {r : Runs} (hfound : r.Found (texts hs)) :
    (hs.drop r.bestStart).take r.bestLen = List.replicate r.bestLen 0 := by
  apply List.ext_getElem?
  intro i
  by_cases hi : i < r.bestLen
  · have hbest := hfound.best (r.bestStart + i) (by omega) (by omega)
    rw [texts, List.getElem?_map] at hbest
    obtain ⟨h, hget, hzero⟩ := Option.map_eq_some_iff.mp hbest
    rw [List.getElem?_take_of_lt hi, List.getElem?_drop, hget, List.getElem?_replicate_of_lt hi,
      eq_zero_of_digits hzero]
  · rw [List.getElem?_eq_none (by simp; omega), List.getElem?_eq_none (by simp; omega)]

/-- The parts before what is skipped, with the empty part that stands for none. -/
theorem orEmpty_take {parts : List (List Char)} {n : ℕ} (h : n = 0 ∨ parts ≠ []) :
    (if n = 0 then [[]] else []) ++ parts.take n = orEmpty (parts.take n) := by
  unfold orEmpty
  by_cases hzero : n = 0
  · subst hzero
    rfl
  · have hne : parts.take n ≠ [] := by
      intro hnil
      rcases List.take_eq_nil_iff.mp hnil with hn | hparts
      · exact hzero hn
      · rcases h with hn | hne
        · exact hzero hn
        · exact hne hparts
    rw [if_neg hzero, if_neg hne, List.nil_append]

/-- The parts after what is skipped, with the empty part that stands for none. -/
theorem orEmpty_drop {parts : List (List Char)} {n : ℕ} (h : n ≤ parts.length) :
    parts.drop n ++ (if n = parts.length then [[]] else []) = orEmpty (parts.drop n) := by
  unfold orEmpty
  by_cases hend : n = parts.length
  · rw [if_pos hend, hend, List.drop_length]
    rfl
  · have hne : parts.drop n ≠ [] := by
      intro hnil
      have hle := List.drop_eq_nil_iff.mp hnil
      omega
    rw [if_neg hend, if_neg hne, List.append_nil]

/-- What is left out of a text is a run of zeros. -/
theorem compressHextets_texts (hs : List (Fin 65536)) :
    compressHextets (texts hs) = texts hs ∨
      ∃ hi lo k, 2 ≤ k ∧ hs = hi ++ List.replicate k 0 ++ lo ∧
        compressHextets (texts hs) = orEmpty (texts hi) ++ [] :: orEmpty (texts lo) := by
  have hfound := found_zeroRuns (texts hs)
  have hlength : (texts hs).length = hs.length := List.length_map _
  unfold compressHextets
  dsimp only
  generalize zeroRuns (texts hs) = r at hfound
  have hfits := hfound.fits
  by_cases hrun : 1 < r.bestLen
  · right
    have htake : (texts hs).take r.bestStart = texts (hs.take r.bestStart) := List.map_take.symm
    have hdrop : (texts hs).drop (r.bestStart + r.bestLen) =
        texts (hs.drop (r.bestStart + r.bestLen)) := List.map_drop.symm
    have hne : texts hs ≠ [] := by
      intro hnil
      rw [hnil, List.length_nil] at hfits
      omega
    refine ⟨hs.take r.bestStart, hs.drop (r.bestStart + r.bestLen), r.bestLen, hrun, ?_, ?_⟩
    · rw [← run_eq_zeros hfound, ← List.drop_drop, List.append_assoc, List.take_append_drop,
        List.take_append_drop]
    · rw [if_pos hrun, orEmpty_take (.inr hne), List.append_assoc, List.append_assoc,
        orEmpty_drop hfits, htake, hdrop]
      rfl
  · left
    rw [if_neg hrun]

/-- The parts of a text are read as the hextets of the address. -/
theorem readHextets_compress {hs : List (Fin 65536)} (h : hs.length = 8) :
    readHextets (compressHextets (texts hs)) = some hs := by
  rcases compressHextets_texts hs with hall | ⟨hi, lo, k, hk, heq, haround⟩
  · rw [hall]
    exact readHextets_all h
  · have hlength : hi.length + k + lo.length = 8 := by
      rw [← h, heq, List.length_append, List.length_append, List.length_replicate]
    have hskipped : 8 - (hi.length + lo.length) = k := by omega
    rw [haround, readHextets_around (by omega), hskipped, heq]

/-- The parts of a text are those of hextets, and there are at least three of them. -/
theorem parts_of_compress {hs : List (Fin 65536)} (h : hs.length = 8) :
    (∀ part ∈ compressHextets (texts hs), isPart part) ∧
      3 ≤ (compressHextets (texts hs)).length := by
  have htexts : ∀ hs : List (Fin 65536), ∀ part ∈ texts hs, isPart part := by
    intro hs part hpart
    obtain ⟨n, -, rfl⟩ := List.mem_map.mp hpart
    exact .inr ⟨n, rfl⟩
  have hends : ∀ hs : List (Fin 65536), ∀ part ∈ orEmpty (texts hs), isPart part := by
    intro hs part hpart
    unfold orEmpty at hpart
    split at hpart
    · exact .inl (List.mem_singleton.mp hpart)
    · exact htexts hs part hpart
  rcases compressHextets_texts hs with hall | ⟨hi, lo, k, -, -, haround⟩
  · rw [hall]
    refine ⟨htexts hs, ?_⟩
    have hlength : (texts hs).length = 8 := (List.length_map _).trans h
    omega
  · rw [haround]
    constructor
    · intro part hpart
      rcases List.mem_append.mp hpart with hhigh | hrest
      · exact hends hi part hhigh
      · rcases List.mem_cons.mp hrest with hnil | hlow
        · exact .inl hnil
        · exact hends lo part hlow
    · rw [List.length_append, List.length_cons, length_orEmpty, length_orEmpty]
      omega

namespace V6

/-- An address without a zone is written with colons and hexadecimal digits. -/
theorem mem_baseStr {hs : List (Fin 65536)} (h : hs.length = 8) {c : Char} (hc : c ∈ baseStr hs) :
    c = ':' ∨ (Hex.value c).isSome = true := by
  rcases mem_of_mem_intercalate hc with hcolon | ⟨part, hpart, hmem⟩
  · exact .inl (List.mem_singleton.mp hcolon)
  · exact .inr (mem_part ((parts_of_compress h).1 part hpart) hmem)

/-- The text of an address splits at its colons into the compressed hextets. -/
theorem splitOn_baseStr {hs : List (Fin 65536)} (h : hs.length = 8) :
    (baseStr hs).splitOn ':' = compressHextets (texts hs) := by
  apply List.splitOn_intercalate
  · intro part hpart hcolon
    exact absurd (mem_part ((parts_of_compress h).1 part hpart) hcolon) (by decide)
  · intro hnil
    have hthree := (parts_of_compress h).2
    rw [texts, hnil] at hthree
    exact absurd hthree (by decide)

/-- The text of an address is taken apart into its compressed hextets, since no part is dotted. -/
theorem splitParts_baseStr {hs : List (Fin 65536)} (h : hs.length = 8) :
    splitParts (baseStr hs) = some (compressHextets (texts hs)) := by
  have hthree := (parts_of_compress h).2
  have hne : baseStr hs ≠ [] := by
    intro hnil
    have hsplit := splitOn_baseStr h
    rw [hnil] at hsplit
    rw [← hsplit] at hthree
    exact absurd hthree (by decide)
  have hdot : '.' ∉ (compressHextets (texts hs)).getLastD [] := by
    intro hmem
    have hnonempty : compressHextets (texts hs) ≠ [] := by
      intro hnil
      rw [hnil] at hthree
      exact absurd hthree (by decide)
    rw [List.getLastD_eq_getLast?, List.getLast?_eq_some_getLast hnonempty, Option.getD_some]
      at hmem
    exact absurd (mem_part ((parts_of_compress h).1 _ (List.getLast_mem hnonempty)) hmem)
      (by decide)
  unfold splitParts
  rw [if_neg hne, splitOn_baseStr h]
  dsimp only
  rw [if_neg (by omega), if_neg hdot]

/-- A text that begins with characters other than a percent sign is split after them. -/
theorem splitScope_append {base : List Char} (h : '%' ∉ base) (scopeId : Option ScopeId) :
    splitScope (base ++ scopeId.elim [] fun zone => '%' :: zone.text) = some (base, scopeId) := by
  have hbase : ∀ c ∈ base, decide (c ≠ '%') = true := by
    intro c hc
    rw [decide_eq_true_iff]
    rintro rfl
    exact h hc
  have htake : ∀ rest : List Char, rest.head? = none ∨ rest.head? = some '%' →
      (base ++ rest).takeWhile (· ≠ '%') = base ∧ (base ++ rest).dropWhile (· ≠ '%') = rest := by
    intro rest hrest
    rw [List.takeWhile_append_of_pos hbase, List.dropWhile_append_of_pos hbase]
    cases rest with
    | nil => exact ⟨List.append_nil _, rfl⟩
    | cons c rest =>
      have hc : c = '%' := by simpa using hrest
      subst hc
      exact ⟨by simp, by simp⟩
  cases scopeId with
  | none =>
    unfold splitScope
    rw [Option.elim_none, (htake [] (.inl rfl)).2]
    simp
  | some zone =>
    obtain ⟨htaken, hdropped⟩ := htake ('%' :: zone.text) (.inr rfl)
    unfold splitScope
    rw [Option.elim_some, hdropped]
    dsimp only
    rw [dif_pos ⟨zone.ne_nil, zone.no_percent, zone.no_slash⟩, htaken]

/-- An address of version 6 is read back. -/
theorem parse_str (a : V6) : parse a.str = some a := by
  have hpercent : '%' ∉ baseStr a.hextets := by
    intro hmem
    rcases mem_baseStr a.length_eq hmem with hcolon | hvalue
    · exact absurd hcolon (by decide)
    · exact absurd hvalue (by decide)
  have hslash : '/' ∉ a.str := by
    intro hmem
    rcases List.mem_append.mp hmem with hbase | hscope
    · rcases mem_baseStr a.length_eq hbase with hcolon | hvalue
      · exact absurd hcolon (by decide)
      · exact absurd hvalue (by decide)
    · cases hzone : a.scopeId with
      | none =>
        rw [hzone] at hscope
        exact absurd hscope List.not_mem_nil
      | some zone =>
        rw [hzone, Option.elim_some] at hscope
        rcases List.mem_cons.mp hscope with hc | hc
        · exact absurd hc (by decide)
        · exact zone.no_slash hc
  unfold parse
  rw [if_neg hslash, str, splitScope_append hpercent, Option.bind_some]
  dsimp only
  rw [splitParts_baseStr a.length_eq, Option.bind_some]
  split
  · rename_i hnone
    rw [readHextets_compress a.length_eq] at hnone
    cases hnone
  · rename_i hextets hread
    have heq : hextets = a.hextets :=
      Option.some.inj (hread.symm.trans (readHextets_compress a.length_eq))
    subst heq
    rfl

/-- The text of an address of version 6 has a colon. -/
theorem colon_mem_str (a : V6) : ':' ∈ a.str := by
  have hsplit := splitOn_baseStr a.length_eq
  have hthree := (parts_of_compress a.length_eq).2
  apply List.mem_append_left
  by_contra hcolon
  rw [List.splitOn_eq_singleton hcolon] at hsplit
  rw [← hsplit] at hthree
  exact absurd hthree (by simp)

end V6

/-! ## Both versions -/

namespace Address

/-- An address is read back from its text. -/
theorem parse_str (a : Address) : parse a.str = some a := by
  cases a with
  | v4 a =>
    unfold parse
    rw [str, V4.parse_str]
  | v6 a =>
    have hnot : V4.parse a.str = none := by
      cases hparse : V4.parse a.str with
      | none => rfl
      | some b =>
        rcases V4.mem_of_parse hparse ':' a.colon_mem_str with hdigit | hdot
        · exact absurd hdigit (by decide)
        · exact absurd hdot (by decide)
    unfold parse
    rw [str, hnot, V6.parse_str]
    rfl

end Address

end Interactive.Ip
