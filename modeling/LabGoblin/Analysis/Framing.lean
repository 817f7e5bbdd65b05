import LabGoblin.Model.Guacamole
import Mathlib.Data.List.TakeWhile

/-!
# Framing of Guacamole instructions

What `encode_instruction` writes, `InstructionParser` reads back, however the text is cut into
chunks: the parser takes exactly one encoded instruction off its buffer, and a beginning of one
is neither an error nor an instruction.
-/

set_option autoImplicit false

namespace LabGoblin.Guacamole

open Interactive Text

/-- What a parser with a limit gives for the chunks it is fed with. -/
def received (limit : ℕ) (chunks : List Text) : List Instruction × Exit Char ValueError Empty :=
  (parser limit).feedAll (refuses limit) Decoder.collect [] chunks

/-! ## Lengths -/

/-- A digit in Lean's sense is an ASCII digit. -/
theorem asciiDigit_of_isDigit {c : Char} (h : c.isDigit) : asciiDigit c := by
  simp only [Char.isDigit, ge_iff_le, UInt32.le_iff_toNat_le, Bool.and_eq_true,
    decide_eq_true_eq] at h
  simp only [asciiDigit, Bool.and_eq_true, decide_eq_true_eq]
  have hval : c.toNat = c.val.toNat := rfl
  simp at h
  omega

/-- ASCII digits are read as the number that they write. -/
theorem readDecimals_of_ascii {s : Text} (h : ∀ c ∈ s, asciiDigit c) (value : ℕ) :
    readDecimals value s = .ok (Nat.ofDigitChars 10 s value) := by
  induction s generalizing value with
  | nil => simp [readDecimals]
  | cons c s ih =>
    have hc := decimal_of_asciiDigit (h c (by simp))
    have hs := ih fun d hd => h d (by simp [hd])
    simp [readDecimals, hc, hs, Nat.ofDigitChars_cons]

/-- The digits of a length: they are ASCII digits, at most seven, and `int` reads the length. -/
structure LengthDigits (n : ℕ) (digits : Text) : Prop where
  ascii : ∀ c ∈ digits, asciiDigit c
  nonempty : digits ≠ []
  short : digits.length ≤ maxLengthDigits
  value : int digits = .ok n

/-- The decimal digits of a length up to seven digits are read as it. -/
theorem lengthDigits_toDigits {n : ℕ} (h : n ≤ 9999999) : LengthDigits n (Nat.toDigits 10 n) := by
  have hascii : ∀ c ∈ Nat.toDigits 10 n, asciiDigit c := fun c hc =>
    asciiDigit_of_isDigit (Nat.isDigit_of_mem_toDigits (by omega) (by omega) hc)
  have hne : Nat.toDigits 10 n ≠ [] := Nat.toDigits_ne_nil
  have hshort : (Nat.toDigits 10 n).length ≤ maxLengthDigits := by
    rw [maxLengthDigits, Nat.length_toDigits_le_iff (by omega) (by omega)]
    omega
  refine ⟨hascii, hne, hshort, ?_⟩
  have hlong : ¬ (Nat.toDigits 10 n).length > maxStrDigits := by
    simp only [maxStrDigits, maxLengthDigits] at hshort ⊢
    omega
  rw [int, if_neg (by simp), if_neg hlong, readDecimals_of_ascii hascii]
  rw [Nat.ofDigitChars_toDigits (by omega) (by omega)]

variable {n limit : ℕ} {digits : Text}

/-- The digits of a length pass `isdigit`. -/
theorem LengthDigits.isdigit (h : LengthDigits n digits) : isdigit digits := by
  have hall : ∀ c ∈ digits, digitChar c := by
    intro c hc
    simp [digitChar, decimal_of_asciiDigit (h.ascii c hc)]
  simp [Text.isdigit, h.nonempty, List.all_eq_true.2 hall]

/-- The digits of a length pass `isascii`. -/
theorem LengthDigits.isascii (h : LengthDigits n digits) : isascii digits := by
  refine List.all_eq_true.2 fun c hc => ?_
  have hascii := h.ascii c hc
  simp only [asciiDigit, Bool.and_eq_true, decide_eq_true_eq] at hascii
  simp only [decide_eq_true_eq]
  omega

/-- There is no dot among the digits of a length. -/
theorem LengthDigits.noDot (h : LengthDigits n digits) : ∀ c ∈ digits, c ≠ '.' := by
  rintro c hc rfl
  exact absurd (h.ascii _ hc) (by decide)

/-! ## Elements -/

/-- Where the length and the dot have arrived, `pop` looks for the element and its separator. -/
theorem readElement_length (h : LengthDigits n digits) (hn : n ≤ limit) (body : Text) :
    readElement limit (digits ++ '.' :: body) =
      match body.drop n with
      | [] => .incomplete
      | separator :: rest => .item (body.take n, separator) rest := by
  have hdots : ∀ c ∈ digits, decide (c ≠ '.') = true := by
    intro c hc
    simpa using h.noDot c hc
  have hdrop : (digits ++ '.' :: body).dropWhile (· ≠ '.') = '.' :: body := by
    rw [List.dropWhile_append_of_pos hdots]
    simp
  have htake : (digits ++ '.' :: body).takeWhile (· ≠ '.') = digits := by
    rw [List.takeWhile_append_of_pos hdots]
    simp
  have hshort : ¬ digits.length > maxLengthDigits := by
    have := h.short
    omega
  have hlimit : ¬ n > limit := by omega
  rw [readElement, hdrop, htake]
  cases hrest : body.drop n with
  | nil => simp [h.isascii, h.isdigit, h.value, hshort, hlimit, hrest]
  | cons separator rest => simp [h.isascii, h.isdigit, h.value, hshort, hlimit, hrest]

/-- An encoded element and its separator are read off the front of the text. -/
theorem readElement_encoded {value : Text} (separator : Char) (rest : Text)
    (hlimit : limit ≤ 9999999) (hvalue : value.length ≤ limit) :
    readElement limit (encodeElement value ++ separator :: rest) =
      .item (value, separator) rest := by
  have hdigits := lengthDigits_toDigits (Nat.le_trans hvalue hlimit)
  have hbody : encodeElement value ++ separator :: rest =
      Nat.toDigits 10 value.length ++ '.' :: (value ++ separator :: rest) := by
    simp [encodeElement]
  rw [hbody, readElement_length hdigits hvalue]
  simp

/-- Only a part of a length has arrived. -/
theorem readElement_digits (h : LengthDigits n digits) {p q : Text} (hp : digits = p ++ q) :
    readElement limit p = .incomplete := by
  have hdots : ∀ c ∈ p, decide (c ≠ '.') = true := by
    intro c hc
    simpa using h.noDot c (by simp [hp, hc])
  have hdrop : p.dropWhile (· ≠ '.') = [] := List.dropWhile_eq_nil_iff.2 hdots
  have hshort : ¬ p.length > maxLengthDigits := by
    have hlen := congrArg List.length hp
    have hdigits := h.short
    rw [List.length_append] at hlen
    omega
  rw [readElement, hdrop]
  simp only [hshort, if_false]

/-- An encoded element is incomplete without its separator, and so is every beginning of it. -/
theorem readElement_part {value p q : Text} (hlimit : limit ≤ 9999999)
    (hvalue : value.length ≤ limit) (h : encodeElement value = p ++ q) :
    readElement limit p = .incomplete := by
  have hdigits := lengthDigits_toDigits (Nat.le_trans hvalue hlimit)
  rw [encodeElement] at h
  rcases List.append_eq_append_iff.1 h with ⟨body, hp, hq⟩ | ⟨more, hp, -⟩
  · cases body with
    | nil => exact readElement_digits hdigits (q := []) (by simpa using hp.symm)
    | cons dot body =>
      simp only [List.cons_append, List.cons.injEq] at hq
      obtain ⟨rfl, hvalue'⟩ := hq
      have hlen := congrArg List.length hvalue'
      rw [List.length_append] at hlen
      have hdrop : body.drop value.length = [] := List.drop_eq_nil_of_le (by omega)
      rw [hp, readElement_length hdigits hvalue, hdrop]
  · exact readElement_digits hdigits hp

/-! ## Instructions -/

/-- An instruction of one element ends with a semicolon. -/
theorem encodeInstruction_singleton (value : Text) :
    encodeInstruction [value] = encodeElement value ++ [';'] := by
  simp [encodeInstruction, List.intercalate]

/-- The elements of an instruction are separated by commas. -/
theorem encodeInstruction_cons (value next : Text) (values : Instruction) :
    encodeInstruction (value :: next :: values) =
      encodeElement value ++ ',' :: encodeInstruction (next :: values) := by
  simp [encodeInstruction, List.intercalate]

/-- An instruction that the parser accepts whole: it has elements, not too many, and none is too
long. -/
structure Fits (limit room : ℕ) (elements : Instruction) : Prop where
  nonempty : elements ≠ []
  few : elements.length ≤ room
  short : ∀ value ∈ elements, value.length ≤ limit

/-- The loop of `pop` takes an encoded instruction off the text, adding its elements to those it
has read. -/
theorem popFrom_encoded (hlimit : limit ≤ 9999999) {room : ℕ} {elements : Instruction}
    (h : Fits limit room elements) (read : Instruction) (rest : Text) :
    popFrom limit room (encodeInstruction elements ++ rest) read =
      .item (read ++ elements) rest := by
  induction elements generalizing room read with
  | nil => exact absurd rfl h.nonempty
  | cons value values ih =>
    have hvalue := h.short value (by simp)
    obtain ⟨room, rfl⟩ : ∃ r, room = r + 1 := ⟨room - 1, by have := h.few; simp at this; omega⟩
    cases values with
    | nil =>
      have hread := readElement_encoded ';' rest hlimit hvalue
      rw [encodeInstruction_singleton, List.append_assoc, List.singleton_append, popFrom, hread]
      simp
    | cons next values =>
      have hread := readElement_encoded ',' (encodeInstruction (next :: values) ++ rest) hlimit
        hvalue
      have hfits : Fits limit room (next :: values) :=
        ⟨by simp, by have := h.few; simp at this ⊢; omega, fun v hv => h.short v (by simp [hv])⟩
      have hmore := ih hfits (read ++ [value])
      rw [encodeInstruction_cons, List.append_assoc, List.cons_append, popFrom, hread]
      simp [hmore]

/-- On a proper beginning of an encoded instruction the loop of `pop` finds it incomplete. -/
theorem popFrom_part (hlimit : limit ≤ 9999999) {room : ℕ} {elements : Instruction}
    (h : Fits limit room elements) (read : Instruction) {p q : Text}
    (hp : encodeInstruction elements = p ++ q) (hq : q ≠ []) :
    popFrom limit room p read = .incomplete := by
  induction elements generalizing room read p with
  | nil => exact absurd rfl h.nonempty
  | cons value values ih =>
    have hvalue := h.short value (by simp)
    obtain ⟨room, rfl⟩ : ∃ r, room = r + 1 := ⟨room - 1, by have := h.few; simp at this; omega⟩
    -- what follows the first element: its separator and the rest
    obtain ⟨separator, tail, htail⟩ : ∃ separator tail,
        encodeInstruction (value :: values) = encodeElement value ++ separator :: tail := by
      cases values with
      | nil => exact ⟨_, _, encodeInstruction_singleton value⟩
      | cons next values => exact ⟨_, _, encodeInstruction_cons value next values⟩
    rw [htail] at hp
    rcases List.append_eq_append_iff.1 hp with ⟨body, hbody, hrest⟩ | ⟨more, hmore, -⟩
    · cases body with
      | nil =>
        have hread := readElement_part hlimit hvalue (p := p) (q := []) (by simpa using hbody.symm)
        rw [popFrom, hread]
      | cons head body =>
        simp only [List.cons_append, List.cons.injEq] at hrest
        obtain ⟨rfl, hrest⟩ := hrest
        have hread := readElement_encoded separator body hlimit hvalue
        cases values with
        | nil =>
          rw [encodeInstruction_singleton] at htail
          simp_all
        | cons next values =>
          rw [encodeInstruction_cons] at htail
          simp only [List.append_cancel_left_eq, List.cons.injEq] at htail
          obtain ⟨rfl, rfl⟩ := htail
          have hfits : Fits limit room (next :: values) :=
            ⟨by simp, by have := h.few; simp at this ⊢; omega,
              fun v hv => h.short v (by simp [hv])⟩
          have hmore := ih hfits (read ++ [value]) hrest
          rw [hbody, popFrom, hread]
          simp [hmore]
    · rw [popFrom, readElement_part hlimit hvalue hmore]

/-- `encode_instruction` suits the parser. -/
theorem suits_encodeInstruction (hlimit : limit ≤ 9999999) {elements : Instruction}
    (h : Fits limit maxElements elements) :
    (parser limit).Suits encodeInstruction elements where
  whole := fun rest => popFrom_encoded hlimit h [] rest
  part := fun _ _ hp hq => popFrom_part hlimit h [] hp hq

/-- Instructions that the parser accepts are read back from their encodings. -/
theorem received_encoded (hlimit : limit ≤ 9999999) {instructions : List Instruction}
    (hfits : ∀ elements ∈ instructions, Fits limit maxElements elements)
    (htotal : (instructions.flatMap encodeInstruction).length ≤ limit) {chunks : List Text}
    (hchunks : chunks.flatten = instructions.flatMap encodeInstruction) :
    received limit chunks = (instructions, .waiting []) := by
  have hsuits : ∀ elements ∈ instructions, (parser limit).Suits encodeInstruction elements :=
    fun elements helements => suits_encodeInstruction hlimit (hfits elements helements)
  have hrefuses : ∀ c : Text, c.length ≤ (instructions.flatMap encodeInstruction).length →
      refuses limit c = none := by
    intro c hc
    rw [refuses, if_neg (by omega)]
  exact Decoder.feedAll_encoded hsuits hrefuses (parser limit).starved (by simpa using hchunks)

/-- Instructions of 1 to 256 elements, none longer than the parser's limit, are read back from
their encodings, in order and with nothing left over, however these are cut into chunks. -/
theorem framing_roundTrip (hlimit : limit ≤ 9999999) {instructions : List Instruction}
    (hfits : ∀ elements ∈ instructions, 1 ≤ elements.length ∧ elements.length ≤ 256 ∧
      ∀ value ∈ elements, value.length ≤ limit)
    (htotal : (instructions.flatMap encodeInstruction).length ≤ limit) {chunks : List Text}
    (hchunks : chunks.flatten = instructions.flatMap encodeInstruction) :
    received limit chunks = (instructions, .waiting []) := by
  refine received_encoded hlimit ?_ htotal hchunks
  intro elements helements
  obtain ⟨hpos, hfew, hshort⟩ := hfits elements helements
  have hne : elements ≠ [] := List.length_pos_iff.1 hpos
  exact ⟨hne, hfew, hshort⟩

/-- Digits, dots, commas and semicolons in the elements, cut inside a length, inside an element
and before a separator. -/
theorem framing_roundTrip_delimiters :
    received 40 ["1".toList, "0.1,2;3.4;".toList, "5!".toList, ",1.7;1.x;".toList] =
      ([["1,2;3.4;5!".toList, ['7']], [['x']]], .waiting []) :=
  framing_roundTrip (by decide) (by decide) (by decide) (by decide)

/-! ## Packet boundaries -/

/-- Where a text has a dot, what follows it does not matter for the part before the first dot. -/
theorem takeWhile_append_of_dot {text dot : Text} {c : Char} (more : Text)
    (h : text.dropWhile (· ≠ '.') = c :: dot) :
    (text ++ more).takeWhile (· ≠ '.') = text.takeWhile (· ≠ '.') ∧
      (text ++ more).dropWhile (· ≠ '.') = c :: (dot ++ more) := by
  induction text with
  | nil => cases h
  | cons d text ih =>
    by_cases hd : d = '.'
    · subst hd
      simp only [List.dropWhile_cons, ne_eq, not_true, decide_false] at h
      obtain ⟨rfl, rfl⟩ := List.cons.inj h
      simp
    · have hdrop : text.dropWhile (· ≠ '.') = c :: dot := by simpa [hd] using h
      obtain ⟨htake, hrest⟩ := ih hdrop
      simp only [ne_eq, decide_not] at htake hrest
      simp [hd, htake, hrest]

/-- An element that was read is read again when more has arrived. -/
theorem readElement_item_append {text more rest : Text} {element : Text × Char}
    (h : readElement limit text = .item element rest) :
    readElement limit (text ++ more) = .item element (rest ++ more) := by
  unfold readElement at h ⊢
  split at h
  · split at h <;> cases h
  · next dot body hbody =>
    obtain ⟨htake, hdrop⟩ := takeWhile_append_of_dot more hbody
    rw [htake, hdrop]
    split at h
    · cases h
    · next hlength =>
      dsimp only
      rw [if_neg hlength]
      split at h
      · cases h
      · next count _ =>
        split at h
        · cases h
        · next hlimit =>
          rw [if_neg hlimit]
          split at h
          · cases h
          · next separator rest' hrest =>
            cases h
            have hlt : count ≤ body.length := by
              have := congrArg List.length hrest
              simp only [List.length_drop, List.length_cons] at this
              omega
            rw [List.drop_append_of_le_length hlt, List.take_append_of_le_length hlt, hrest]
            rfl

/-- An error stays an error when more has arrived: a length that is too long has no dot in its
first seven characters, however it goes on. -/
theorem readElement_failed_append {text more : Text} {e : ValueError}
    (h : readElement limit text = .failed e) : readElement limit (text ++ more) = .failed e := by
  unfold readElement at h
  split at h
  · next hnodot =>
    split at h
    · next hlong =>
      cases h
      have hall : text.takeWhile (· ≠ '.') = text := by
        have hwhole := List.takeWhile_append_dropWhile (p := (· ≠ '.')) (l := text)
        rw [hnodot, List.append_nil] at hwhole
        exact hwhole
      have htake : (text ++ more).takeWhile (· ≠ '.') = text ++ more.takeWhile (· ≠ '.') := by
        rw [List.takeWhile_append, if_pos (by rw [hall])]
      unfold readElement
      rw [htake]
      have hlength : (text ++ more.takeWhile (· ≠ '.')).length > maxLengthDigits := by
        rw [List.length_append]
        omega
      cases (text ++ more).dropWhile (· ≠ '.') with
      | nil =>
        have hlonger : (text ++ more).length > maxLengthDigits := by
          rw [List.length_append]
          omega
        simp only [if_pos hlonger]
      | cons dot body =>
        dsimp only
        rw [if_pos]
        simp only [Bool.or_eq_true, decide_eq_true_eq]
        exact Or.inr hlength
    · cases h
  · next dot body hbody =>
    obtain ⟨htake, hdrop⟩ := takeWhile_append_of_dot more hbody
    unfold readElement
    rw [htake, hdrop]
    dsimp only
    split at h
    · next hlength =>
      rw [if_pos hlength]
      exact h
    · next hlength =>
      rw [if_neg hlength]
      split at h
      · exact h
      · next count _ =>
        split at h
        · next hlimit =>
          rw [if_pos hlimit]
          exact h
        · split at h <;> cases h

/-- A turn of the loop with an element read. -/
theorem popFrom_read {room : ℕ} {text value rest : Text} {separator : Char}
    (h : readElement limit text = .item (value, separator) rest) (elements : Instruction) :
    popFrom limit (room + 1) text elements =
      if separator = ';' then .item (elements ++ [value]) rest
      else if separator ≠ ',' then .failed (.message "Invalid Guacamole separator")
      else popFrom limit room rest (elements ++ [value]) := by
  rw [popFrom, h]

/-- More text behind a buffer does not change what is taken off it. -/
theorem popFrom_append {room : ℕ} {text : Text} {elements : Instruction} (more : Text) :
    popFrom limit room (text ++ more) elements =
      match popFrom limit room text elements with
      | .item x rest => .item x (rest ++ more)
      | .failed e => .failed e
      | .incomplete => popFrom limit room (text ++ more) elements := by
  induction room generalizing text elements with
  | zero =>
    rw [popFrom.eq_def limit 0 text]
    cases hread : readElement limit text with
    | incomplete => rfl
    | failed e => simp [popFrom, readElement_failed_append hread]
    | item element rest =>
      obtain ⟨value, separator⟩ := element
      simp [popFrom, readElement_item_append hread]
  | succ room ih =>
    rw [popFrom.eq_def limit (room + 1) text]
    cases hread : readElement limit text with
    | incomplete => rfl
    | failed e => simp [popFrom, readElement_failed_append hread]
    | item element rest =>
      obtain ⟨value, separator⟩ := element
      have hmore : readElement limit (text ++ more) = .item (value, separator) (rest ++ more) :=
        readElement_item_append hread
      have hrest := @ih rest (elements ++ [value])
      rw [popFrom_read hmore]
      dsimp only
      by_cases hend : separator = ';'
      · simp only [if_pos hend]
      · by_cases hcomma : separator ≠ ','
        · simp only [if_neg hend, if_pos hcomma]
        · simp only [if_neg hend, if_neg hcomma]
          exact hrest

/-- What `pop` has taken off or refused does not depend on what arrives later. -/
theorem parser_stable (limit : ℕ) : (parser limit).Stable where
  item := by
    intro b x rest more h
    have hpop : popFrom limit maxElements b [] = .item x rest := h
    show popFrom limit maxElements (b ++ more) [] = _
    rw [popFrom_append more, hpop]
  failed := by
    intro b e more h
    have hpop : popFrom limit maxElements b [] = .failed e := h
    show popFrom limit maxElements (b ++ more) [] = _
    rw [popFrom_append more, hpop]

/-- One turn of the loop of `pop`, which ends it or goes on with the text after the separator and
the elements so far. -/
def popTurn (limit : ℕ) (text : Text) (elements : Instruction) :
    Popped Char Instruction ValueError ⊕ (Text × Instruction) :=
  match readElement limit text with
  | .incomplete => .inl .incomplete
  | .failed e => .inl (.failed e)
  | .item (value, separator) rest =>
    if (elements ++ [value]).length > maxElements then
      .inl (.failed (.message "Too many Guacamole elements"))
    else if separator = ';' then .inl (.item (elements ++ [value]) rest)
    else if separator ≠ ',' then .inl (.failed (.message "Invalid Guacamole separator"))
    else .inr (rest, elements ++ [value])

/-- The loop of `pop` for a number of turns; `none` when it has not ended by then. -/
def popTurns (limit : ℕ) : ℕ → Text → Instruction → Option (Popped Char Instruction ValueError)
  | 0, _, _ => none
  | turns + 1, text, elements =>
    match popTurn limit text elements with
    | .inl result => some result
    | .inr (text, elements) => popTurns limit turns text elements

/-- The loop ends by the turn in which it has one element too many, with what `popFrom` says. -/
theorem popTurns_eq {room : ℕ} {text : Text} {elements : Instruction}
    (h : elements.length + room = maxElements) :
    popTurns limit (room + 1) text elements = some (popFrom limit room text elements) := by
  induction room generalizing text elements with
  | zero =>
    have hfull : elements.length = maxElements := by omega
    cases hread : readElement limit text with
    | incomplete => simp [popTurns, popTurn, popFrom, hread]
    | failed e => simp [popTurns, popTurn, popFrom, hread]
    | item element rest =>
      obtain ⟨value, separator⟩ := element
      simp [popTurns, popTurn, popFrom, hread, hfull]
  | succ room ih =>
    have hroom : ¬ (elements.length + 1 > maxElements) := by omega
    rw [popTurns]
    cases hread : readElement limit text with
    | incomplete =>
      rw [popFrom, hread]
      simp [popTurn, hread]
    | failed e =>
      rw [popFrom, hread]
      simp [popTurn, hread]
    | item element rest =>
      obtain ⟨value, separator⟩ := element
      have hlength : (elements ++ [value]).length + room = maxElements := by
        simp only [List.length_append, List.length_singleton]
        omega
      have hrest := @ih rest _ hlength
      rw [popFrom_read hread]
      by_cases hend : separator = ';'
      · simp [popTurn, hread, hroom, hend]
      · by_cases hcomma : separator ≠ ','
        · simp [popTurn, hread, hroom, hend, hcomma]
        · simp [popTurn, hread, hroom, hend, hcomma, hrest]

/-- Parsing does not depend on packet boundaries: every two ways of cutting a text within the
limit give the same instructions and end alike; an instruction or an error of `pop` stays when
more arrives; and the loop of `pop` ends. -/
theorem parsing_chunkIndependent (limit : ℕ) :
    (∀ chunks chunks' : List Text, chunks.flatten = chunks'.flatten →
      chunks.flatten.length ≤ limit → received limit chunks = received limit chunks') ∧
    (∀ buffer more e, pop limit buffer = .failed e → pop limit (buffer ++ more) = .failed e) ∧
    (∀ buffer more x rest, pop limit buffer = .item x rest →
      pop limit (buffer ++ more) = .item x (rest ++ more)) ∧
    ∀ buffer, ∃ turns, popTurns limit turns buffer [] = some (pop limit buffer) := by
  have hstable := parser_stable limit
  refine ⟨?_, ?_, ?_, ?_⟩
  · intro chunks chunks' hsame hlimit
    have hrefuses : ∀ c : Text, c.length ≤ limit → refuses limit c = none := by
      intro c hc
      rw [refuses, if_neg (by omega)]
    have hwhole : ∀ cs : List Text, cs.flatten.length ≤ limit →
        received limit cs = (parser limit).consume Decoder.collect cs.flatten := by
      intro cs hcs
      have hfeed : (parser limit).feedAll (refuses limit) Decoder.collect [] cs =
          (parser limit).consume Decoder.collect ([] ++ cs.flatten) :=
        hstable.feedAll_eq_consume (parser limit).starved
          fun c hc => hrefuses c (Nat.le_trans (by simpa using hc) hcs)
      simpa [received] using hfeed
    rw [hwhole chunks hlimit, hwhole chunks' (hsame ▸ hlimit), hsame]
  · exact fun buffer more e h => hstable.failed buffer e more h
  · exact fun buffer more x rest h => hstable.item buffer x rest more h
  · intro buffer
    exact ⟨maxElements + 1, popTurns_eq (by simp)⟩

/-- For instance, an instruction, a second one cut inside its length, and a length that is none. -/
theorem parsing_chunkIndependent_malformed :
    received 30 ["3.nop;1".toList, "0.0123456789;abcdefgh".toList] =
      received 30 ["3.nop;10.01".toList, "23456789;abcd".toList, "efgh".toList] :=
  (parsing_chunkIndependent 30).1 _ _ (by decide) (by decide)

end LabGoblin.Guacamole
