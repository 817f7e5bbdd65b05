import LabGoblin.Computation.Hexadecimal
import LabGoblin.Computation.Utf8
import Mathlib.Data.List.TakeWhile

/-!
# Percent encoding

`quote` and `unquote` of `urllib.parse`, and the decoder of UTF-8 that puts a replacement
character for what is no character. A text is read back from its encoding, and an ASCII character
that is no percent sign and no hexadecimal digit divides a text for the reader: what stands
before it and what stands after it are read apart.
-/

set_option autoImplicit false

namespace Interactive

/-! ## Decoding with replacement -/

namespace Utf8

/-- Whether a byte can follow others of a character. -/
def continues (b : UInt8) : Bool := 0x80 ≤ b.toNat && b.toNat ≤ 0xbf

/-- How many of the bytes that a first byte announces follow it. -/
def standing (l : Lead) (bytes : List UInt8) : ℕ :=
  match l.more, bytes with
  | 0, _ => 0
  | _, [] => 0
  | more + 1, b :: bs =>
    if l.low ≤ b.toNat ∧ b.toNat ≤ l.high then ((bs.take more).takeWhile continues).length + 1
    else 0

def replacement : Char := Char.ofNat 0xfffd

/-- One character off a first byte and the bytes after it. A first byte that announces more than
stands there is replaced together with what stands there. -/
def decodeOne (a : UInt8) (bytes : List UInt8) : Char × List UInt8 :=
  match lead a.toNat with
  | none => (replacement, bytes)
  | some l =>
    if standing l bytes = l.more then
      (Char.ofNat (assemble (leadBits a.toNat l.more) (bytes.take l.more)), bytes.drop l.more)
    else (replacement, bytes.drop (standing l bytes))

/-- Decoding a character leaves no more bytes than there were. -/
theorem length_decodeOne_le (a : UInt8) (bytes : List UInt8) :
    (decodeOne a bytes).2.length ≤ bytes.length := by
  unfold decodeOne
  cases lead a.toNat with
  | none => exact Nat.le_refl _
  | some l =>
    dsimp only
    split <;> rw [List.length_drop] <;> exact Nat.sub_le _ _

/-- The characters of at most so many first bytes. -/
def decodeFrom : ℕ → List UInt8 → List Char
  | 0, _ => []
  | _, [] => []
  | n + 1, a :: bytes => (decodeOne a bytes).1 :: decodeFrom n (decodeOne a bytes).2

/-- `bytes.decode("utf-8", "replace")` -/
def decodeReplace (bytes : List UInt8) : List Char := decodeFrom bytes.length bytes

/-- With fuel for every byte the bounded decoder is the decoder. -/
theorem decodeFrom_of_le {n : ℕ} {bytes : List UInt8} (h : bytes.length ≤ n) :
    decodeFrom n bytes = decodeReplace bytes := by
  have henough : ∀ k m (bytes : List UInt8), bytes.length ≤ k → bytes.length ≤ m →
      decodeFrom k bytes = decodeFrom m bytes := by
    intro k
    induction k with
    | zero =>
      intro m bytes hk _
      have hnil : bytes = [] := List.length_eq_zero_iff.mp (Nat.le_zero.mp hk)
      subst hnil
      cases m <;> rfl
    | succ k ih =>
      intro m bytes hk hm
      cases bytes with
      | nil => cases m <;> rfl
      | cons a bytes =>
        cases m with
        | zero => cases hm
        | succ m =>
          have hle := length_decodeOne_le a bytes
          rw [List.length_cons] at hk hm
          rw [decodeFrom, decodeFrom, ih m (decodeOne a bytes).2 (by omega) (by omega)]
  exact henough n bytes.length bytes h (Nat.le_refl _)

/-- The decoder takes one character and goes on with the bytes that it leaves. -/
theorem decodeReplace_cons (a : UInt8) (bytes : List UInt8) :
    decodeReplace (a :: bytes) = (decodeOne a bytes).1 :: decodeReplace (decodeOne a bytes).2 := by
  rw [← decodeFrom_of_le (length_decodeOne_le a bytes)]
  rfl

/-- Behind a first byte with all its bytes, the announced number stands. -/
theorem standing_of_follows {l : Lead} {tail : List UInt8} (hlength : tail.length = l.more)
    (h : follows l.low l.high tail = true) (rest : List UInt8) :
    standing l (tail ++ rest) = l.more := by
  unfold standing
  cases hmore : l.more with
  | zero => rfl
  | succ more =>
    rw [hmore] at hlength
    cases tail with
    | nil => cases hlength
    | cons b bs =>
      simp only [follows, Bool.and_eq_true, decide_eq_true_iff] at h
      have hbs : bs.length = more := by simpa using hlength
      have htake : (bs ++ rest).take more = bs := by rw [← hbs, List.take_left]
      have hall : bs.takeWhile continues = bs := by
        rw [List.takeWhile_eq_self_iff]
        intro c hc
        simpa [continues] using List.all_eq_true.mp h.2 c hc
      rw [List.cons_append]
      dsimp only
      rw [if_pos h.1, htake, hall, hbs]

/-- A character is read off its bytes. -/
theorem decodeReplace_encode (c : Char) (rest : List UInt8) :
    decodeReplace (String.utf8EncodeChar c ++ rest) = c :: decodeReplace rest := by
  obtain ⟨a, tail, l, h⟩ := exists_encodes c
  have hone : decodeOne a (tail ++ rest) = (c, rest) := by
    have hvalue : Char.ofNat c.val.toNat = c := Char.ofNat_toNat c
    unfold decodeOne
    rw [h.lead]
    dsimp only
    rw [if_pos (standing_of_follows h.length h.follows rest), ← h.length, List.take_left,
      List.drop_left, h.length, h.value, hvalue]
  rw [h.bytes, List.cons_append, decodeReplace_cons, hone]

/-- A text is read off its bytes. -/
theorem decodeReplace_flatMap (s : List Char) :
    decodeReplace (s.flatMap String.utf8EncodeChar) = s := by
  induction s with
  | nil => rfl
  | cons c s ih => rw [List.flatMap_cons, decodeReplace_encode, ih]

/-- The bytes that a first byte announces are not ASCII. -/
theorem low_of_lead {a : ℕ} {l : Lead} (h : lead a = some l) : 0x80 ≤ l.low := by
  unfold lead at h
  split at h
  · rw [← Option.some.inj h]
  · split at h
    · cases h
    · split at h
      · rw [← Option.some.inj h]
      · split at h
        · rw [← Option.some.inj h, ofThree]
          dsimp only
          split <;> omega
        · split at h
          · rw [← Option.some.inj h, ofFour]
            dsimp only
            split <;> omega
          · cases h

/-- No byte of ASCII follows a first byte. -/
theorem standing_append_ascii {a : ℕ} {l : Lead} (hl : lead a = some l) {b : UInt8}
    (hb : b.toNat < 0x80) (bytes rest : List UInt8) :
    standing l (bytes ++ b :: rest) = standing l bytes := by
  have hlow := low_of_lead hl
  unfold standing
  cases l.more with
  | zero => rfl
  | succ more =>
    cases bytes with
    | nil =>
      rw [List.nil_append]
      dsimp only
      rw [if_neg (by omega)]
    | cons c bytes =>
      have hstop : continues b = false := by
        unfold continues
        simp only [Bool.and_eq_false_iff, decide_eq_false_iff_not]
        omega
      have htaken : ((bytes ++ b :: rest).take more).takeWhile continues =
          (bytes.take more).takeWhile continues := by
        rw [List.take_append]
        by_cases hshort : more ≤ bytes.length
        · rw [Nat.sub_eq_zero_of_le hshort, List.take_zero, List.append_nil]
        · obtain ⟨k, hk⟩ : ∃ k, more - bytes.length = k + 1 := ⟨more - bytes.length - 1, by omega⟩
          rw [hk, List.take_succ_cons, List.takeWhile_append,
            List.takeWhile_cons_of_neg (by simp [hstop])]
          split
          · rename_i hall
            rw [List.append_nil]
            exact (List.takeWhile_prefix continues).eq_of_length hall |>.symm
          · rfl
      rw [List.cons_append]
      dsimp only
      rw [htaken]

/-- No more bytes stand there than there are. -/
theorem standing_le (l : Lead) (bytes : List UInt8) : standing l bytes ≤ bytes.length := by
  unfold standing
  cases l.more with
  | zero => exact Nat.zero_le _
  | succ more =>
    cases bytes with
    | nil => exact Nat.zero_le _
    | cons b bytes =>
      dsimp only
      split
      · have hprefix := (List.takeWhile_prefix (p := continues) (l := bytes.take more)).length_le
        rw [List.length_take] at hprefix
        rw [List.length_cons]
        omega
      · exact Nat.zero_le _

/-- An ASCII byte behind the bytes of a character does not take part in it. -/
theorem decodeOne_append_ascii (a : UInt8) {b : UInt8} (hb : b.toNat < 0x80)
    (bytes rest : List UInt8) :
    decodeOne a (bytes ++ b :: rest) =
      ((decodeOne a bytes).1, (decodeOne a bytes).2 ++ b :: rest) := by
  unfold decodeOne
  cases hl : lead a.toNat with
  | none => rfl
  | some l =>
    have hle := standing_le l bytes
    dsimp only
    rw [standing_append_ascii hl hb]
    split
    · rename_i hall
      rw [List.take_append_of_le_length (by omega), List.drop_append_of_le_length (by omega)]
    · rw [List.drop_append_of_le_length hle]

/-- A byte of ASCII divides the bytes that are read. -/
theorem decodeReplace_append_ascii {b : UInt8} (hb : b.toNat < 0x80) (bytes rest : List UInt8) :
    decodeReplace (bytes ++ b :: rest) =
      decodeReplace bytes ++ Char.ofNat b.toNat :: decodeReplace rest := by
  induction hn : bytes.length using Nat.strongRecOn generalizing bytes with
  | ind n ih =>
    cases bytes with
    | nil =>
      have hone : decodeOne b rest = (Char.ofNat b.toNat, rest) := by
        unfold decodeOne lead
        rw [if_pos hb]
        rfl
      rw [List.nil_append, decodeReplace_cons, hone]
      rfl
    | cons a bytes =>
      have hle := length_decodeOne_le a bytes
      rw [List.length_cons] at hn
      rw [List.cons_append, decodeReplace_cons, decodeReplace_cons, decodeOne_append_ascii a hb,
        ih (decodeOne a bytes).2.length (by omega) (decodeOne a bytes).2 rfl, List.cons_append]

end Utf8

/-! ## Percent encoding -/

namespace Percent

/-- A hexadecimal digit in upper case. -/
def upperDigit (d : ℕ) : Char := Char.ofNat (if d < 10 then 0x30 + d else 0x37 + d)

/-- The characters that are never encoded, among them the slash. -/
def safe (c : Char) : Bool := c.isAlphanum || c ∈ ['_', '.', '-', '~', '/']

def quoteByte (b : UInt8) : List Char :=
  if safe (Char.ofNat b.toNat) then [Char.ofNat b.toNat]
  else ['%', upperDigit (b.toNat / 16), upperDigit (b.toNat % 16)]

/-- `quote(text)` -/
def quote (s : List Char) : List Char := (s.flatMap String.utf8EncodeChar).flatMap quoteByte

/-- `unquote_to_bytes` of a text of ASCII. -/
def unquoteToBytes : List Char → List UInt8
  | [] => []
  | ['%'] => [0x25]
  | ['%', a] => 0x25 :: unquoteToBytes [a]
  | '%' :: a :: b :: rest =>
    match Hex.value a, Hex.value b with
    | some x, some y => UInt8.ofNat (16 * x + y) :: unquoteToBytes rest
    | _, _ => 0x25 :: unquoteToBytes (a :: b :: rest)
  | c :: rest => UInt8.ofNat c.toNat :: unquoteToBytes rest

/-- The characters that a run of ASCII is read as. -/
def unquoteRun (run : List Char) : List Char := Utf8.decodeReplace (unquoteToBytes run)

/-- `_generate_unquoted_parts`, after a run of ASCII. -/
def unquoteFrom (run : List Char) : List Char → List Char
  | [] => unquoteRun run
  | c :: s => if c.toNat < 0x80 then unquoteFrom (run ++ [c]) s
    else unquoteRun run ++ c :: unquoteFrom [] s

/-- `unquote(text)`. A text without a percent sign, which Python returns as it is, is read as
itself. -/
def unquote (s : List Char) : List Char := unquoteFrom [] s

/-! ### Dividing a text -/

/-- A character of ASCII that is no part of an encoded byte. -/
structure Divides (c : Char) : Prop where
  ascii : c.toNat < 0x80
  plain : c ≠ '%'
  noDigit : Hex.value c = none

/-- A letter other than the percent sign is its byte. -/
theorem unquoteToBytes_cons {c : Char} (h : c ≠ '%') (s : List Char) :
    unquoteToBytes (c :: s) = UInt8.ofNat c.toNat :: unquoteToBytes s := by
  rw [unquoteToBytes.eq_def]
  split <;> simp_all

/-- A percent sign stands for itself where no two digits follow it. -/
theorem unquoteToBytes_percent {a b : Char} (h : Hex.value a = none ∨ Hex.value b = none)
    (rest : List Char) :
    unquoteToBytes ('%' :: a :: b :: rest) = 0x25 :: unquoteToBytes (a :: b :: rest) := by
  rw [unquoteToBytes]
  rcases h with ha | hb
  · rw [ha]
  · rw [hb]
    cases Hex.value a <;> rfl

/-- A percent sign before something other than a digit stands for itself. -/
theorem unquoteToBytes_percent_cons {c : Char} (h : Hex.value c = none) (rest : List Char) :
    unquoteToBytes ('%' :: c :: rest) = 0x25 :: unquoteToBytes (c :: rest) := by
  cases rest with
  | nil => rfl
  | cons b rest => exact unquoteToBytes_percent (.inl h) rest

/-- A letter that divides ends every escape before it. -/
theorem unquoteToBytes_append {c : Char} (h : Divides c) (run rest : List Char) :
    unquoteToBytes (run ++ c :: rest) =
      unquoteToBytes run ++ UInt8.ofNat c.toNat :: unquoteToBytes rest := by
  fun_induction unquoteToBytes run with
  | case1 => exact unquoteToBytes_cons h.plain rest
  | case2 =>
    rw [List.cons_append, List.nil_append, unquoteToBytes_percent_cons h.noDigit,
      unquoteToBytes_cons h.plain]
    rfl
  | case3 a ih =>
    rw [List.cons_append, List.cons_append, List.nil_append,
      unquoteToBytes_percent (.inr h.noDigit)]
    exact congrArg (List.cons 0x25) ih
  | case4 a b run x y hy hx ih =>
    rw [List.cons_append, List.cons_append, List.cons_append, unquoteToBytes, hx, hy]
    exact congrArg (List.cons (UInt8.ofNat (16 * x + y))) ih
  | case5 a b run hnot ih =>
    have hnone : Hex.value a = none ∨ Hex.value b = none := by
      cases ha : Hex.value a with
      | none => exact .inl rfl
      | some x =>
        cases hb : Hex.value b with
        | none => exact .inr rfl
        | some y => exact (hnot x y ha hb).elim
    rw [List.cons_append, List.cons_append, List.cons_append, unquoteToBytes_percent hnone]
    exact congrArg (List.cons 0x25) ih
  | case6 x run hnil hone hmore ih =>
    have hplain : x ≠ '%' := by
      intro hx
      cases run with
      | nil => exact hnil hx rfl
      | cons a run => cases run with
        | nil => exact hone a hx rfl
        | cons b run => exact hmore a b run hx rfl
    rw [List.cons_append, unquoteToBytes_cons hplain, ih, List.cons_append]

/-- An ASCII letter and its byte have one number. -/
theorem toNat_byte {c : Char} (h : c.toNat < 0x80) : (UInt8.ofNat c.toNat).toNat = c.toNat := by
  rw [UInt8.toNat_ofNat']
  exact Nat.mod_eq_of_lt (by omega)

/-- A run of ASCII is read on both sides of a letter that divides. -/
theorem unquoteRun_append {c : Char} (h : Divides c) (run rest : List Char) :
    unquoteRun (run ++ c :: rest) = unquoteRun run ++ c :: unquoteRun rest := by
  have hbyte := toNat_byte h.ascii
  have hchar : Char.ofNat c.toNat = c := Char.ofNat_toNat c
  unfold unquoteRun
  rw [unquoteToBytes_append h, Utf8.decodeReplace_append_ascii (by rw [hbyte]; exact h.ascii),
    hbyte, hchar]

/-- What stands before a letter that divides can be read first. -/
theorem unquoteFrom_append_run {c : Char} (h : Divides c) (run run' s : List Char) :
    unquoteFrom (run ++ c :: run') s = unquoteRun run ++ c :: unquoteFrom run' s := by
  induction s generalizing run' with
  | nil => exact unquoteRun_append h run run'
  | cons d s ih =>
    rw [unquoteFrom, unquoteFrom]
    split
    · rw [List.append_assoc, List.cons_append, ih]
    · rw [unquoteRun_append h, List.append_assoc, List.cons_append]

/-- Reading a text up to a letter that divides, and from it on, by induction on the first part. -/
theorem unquoteFrom_append {c : Char} (h : Divides c) (run s rest : List Char) :
    unquoteFrom run (s ++ c :: rest) = unquoteFrom run s ++ c :: unquote rest := by
  induction s generalizing run with
  | nil =>
    simp only [List.nil_append, unquoteFrom, if_pos h.ascii]
    exact unquoteFrom_append_run h run [] rest
  | cons d s ih =>
    rw [List.cons_append, unquoteFrom, unquoteFrom]
    split
    · exact ih (run ++ [d])
    · rw [ih [], List.append_assoc, List.cons_append]

/-- What stands before and after a dividing character is read apart. -/
theorem unquote_append {c : Char} (h : Divides c) (s rest : List Char) :
    unquote (s ++ c :: rest) = unquote s ++ c :: unquote rest := unquoteFrom_append h [] s rest

/-! ### Reading an encoded text -/

/-- A capital hexadecimal digit has the value that it was written for. -/
theorem value_upperDigit {d : ℕ} (h : d < 16) : Hex.value (upperDigit d) = some d := by
  have hall : ∀ d < 16, Hex.value (upperDigit d) = some d := by decide
  exact hall d h

/-- The letters that are not quoted are ASCII. -/
theorem ascii_of_safe {c : Char} (h : safe c = true) : c.toNat < 0x80 := by
  unfold safe at h
  simp only [Bool.or_eq_true, decide_eq_true_iff, List.mem_cons, List.not_mem_nil, or_false] at h
  rcases h with halnum | hmark
  · have hnat : c.toNat = c.val.toNat := rfl
    have hcase : (c.isUpper = true ∨ c.isLower = true) ∨ c.isDigit = true := by
      rcases Bool.or_eq_true_iff.mp halnum with halpha | hdigit
      · exact .inl (Bool.or_eq_true_iff.mp halpha)
      · exact .inr hdigit
    rcases hcase with (hupper | hlower) | hdigit
    · have hle : c.val.toNat ≤ 0x5a := (of_decide_eq_true hupper).2
      omega
    · have hle : c.val.toNat ≤ 0x7a := of_decide_eq_true (Bool.and_eq_true_iff.mp hlower).2
      omega
    · have hle : c.val.toNat ≤ 0x39 := of_decide_eq_true (Bool.and_eq_true_iff.mp hdigit).2
      omega
  · rcases hmark with rfl | rfl | rfl | rfl | rfl <;> decide

/-- An encoded byte is safe, or it is a percent sign and two digits. -/
theorem quoteByte_cases (b : UInt8) :
    (∃ c, quoteByte b = [c] ∧ safe c = true ∧ UInt8.ofNat c.toNat = b) ∨
      ∃ x y, quoteByte b = ['%', upperDigit x, upperDigit y] ∧ x < 16 ∧ y < 16 ∧
        UInt8.ofNat (16 * x + y) = b := by
  have hlt : b.toNat < 256 := b.toNat_lt
  unfold quoteByte
  by_cases hsafe : safe (Char.ofNat b.toNat) = true
  · left
    refine ⟨Char.ofNat b.toNat, if_pos hsafe, hsafe, ?_⟩
    have hchars : ∀ n < 256, (Char.ofNat n).toNat = n := by decide +kernel
    rw [hchars b.toNat hlt, UInt8.ofNat_toNat]
  · right
    refine ⟨b.toNat / 16, b.toNat % 16, if_neg hsafe, by omega, by omega, ?_⟩
    have hdiv : 16 * (b.toNat / 16) + b.toNat % 16 = b.toNat := by omega
    rw [hdiv, UInt8.ofNat_toNat]

/-- The percent sign itself is quoted. -/
theorem safe_percent : safe '%' = false := by decide

/-- A quoted byte is read back. -/
theorem unquoteToBytes_quoteByte (b : UInt8) (rest : List Char) :
    unquoteToBytes (quoteByte b ++ rest) = b :: unquoteToBytes rest := by
  rcases quoteByte_cases b with ⟨c, hquote, hsafe, hbyte⟩ | ⟨x, y, hquote, hx, hy, hbyte⟩
  · have hplain : c ≠ '%' := by
      rintro rfl
      rw [safe_percent] at hsafe
      cases hsafe
    rw [hquote, List.cons_append, List.nil_append, unquoteToBytes_cons hplain, hbyte]
  · rw [hquote, List.cons_append, List.cons_append, List.cons_append, List.nil_append,
      unquoteToBytes, value_upperDigit hx, value_upperDigit hy]
    exact congrArg (fun b => b :: unquoteToBytes rest) hbyte

/-- Quoted bytes are read back, by induction on them. -/
theorem unquoteToBytes_flatMap (bytes : List UInt8) :
    unquoteToBytes (bytes.flatMap quoteByte) = bytes := by
  induction bytes with
  | nil => rfl
  | cons b bytes ih => rw [List.flatMap_cons, unquoteToBytes_quoteByte, ih]

/-- An encoded text consists of safe characters and of percent signs. -/
theorem mem_quote {s : List Char} {c : Char} (h : c ∈ quote s) : safe c = true ∨ c = '%' := by
  obtain ⟨b, -, hc⟩ := List.mem_flatMap.mp h
  have hupper : ∀ d < 16, safe (upperDigit d) = true := by decide
  rcases quoteByte_cases b with ⟨d, hquote, hsafe, -⟩ | ⟨x, y, hquote, hx, hy, -⟩
  · rw [hquote, List.mem_singleton] at hc
    exact .inl (hc ▸ hsafe)
  · rw [hquote] at hc
    simp only [List.mem_cons, List.not_mem_nil, or_false] at hc
    rcases hc with rfl | rfl | rfl
    · exact .inr rfl
    · exact .inl (hupper x hx)
    · exact .inl (hupper y hy)

/-- A letter that is quoted does not occur in a quoted text, the percent sign apart. -/
theorem notMem_quote {c : Char} (hsafe : safe c = false) (hplain : c ≠ '%') (s : List Char) :
    c ∉ quote s := by
  intro h
  rcases mem_quote h with h | h
  · rw [hsafe] at h
    cases h
  · exact hplain h

/-- A text of ASCII is one run. -/
theorem unquoteFrom_ascii {s : List Char} (h : ∀ c ∈ s, c.toNat < 0x80) (run : List Char) :
    unquoteFrom run s = unquoteRun (run ++ s) := by
  induction s generalizing run with
  | nil =>
    rw [List.append_nil]
    rfl
  | cons c s ih =>
    rw [unquoteFrom, if_pos (h c List.mem_cons_self),
      ih (fun d hd => h d (List.mem_cons_of_mem c hd)), List.append_assoc, List.singleton_append]

/-- A text is read back from its encoding. -/
theorem unquote_quote (s : List Char) : unquote (quote s) = s := by
  have hascii : ∀ c ∈ quote s, c.toNat < 0x80 := by
    intro c hc
    rcases mem_quote hc with hsafe | rfl
    · exact ascii_of_safe hsafe
    · decide
  unfold unquote
  rw [unquoteFrom_ascii hascii, List.nil_append, unquoteRun, quote, unquoteToBytes_flatMap,
    Utf8.decodeReplace_flatMap]

end Percent

end Interactive
