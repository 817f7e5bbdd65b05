import LabGoblin.Computation.Decoder
import Mathlib.Data.List.Basic
import Mathlib.Data.Nat.Notation

/-!
# Decoding UTF-8 as it arrives

A decoder that takes one character after the other off the bytes received so far. The first byte
of a character says how many bytes follow it; a byte that cannot stand where it does is an error
at once, and a character that is not whole is incomplete.
-/

set_option autoImplicit false

namespace Interactive

namespace Utf8

inductive Invalid where
  | startByte
  | continuationByte
  deriving DecidableEq, Repr

/-- What a first byte says: how many bytes follow it, and between which bounds the first of them
lies. -/
structure Lead where
  more : ℕ
  low : ℕ
  high : ℕ

/-- The first byte of three; neither an overlong form nor a surrogate may follow it. -/
def ofThree (a : ℕ) : Lead where
  more := 2
  low := if a = 0xe0 then 0xa0 else 0x80
  high := if a = 0xed then 0x9f else 0xbf

/-- The first byte of four; neither an overlong form nor more than `0x10ffff` may follow it. -/
def ofFour (a : ℕ) : Lead where
  more := 3
  low := if a = 0xf0 then 0x90 else 0x80
  high := if a = 0xf4 then 0x8f else 0xbf

def lead (a : ℕ) : Option Lead :=
  if a < 0x80 then some ⟨0, 0x80, 0xbf⟩
  else if a < 0xc2 then none
  else if a < 0xe0 then some ⟨1, 0x80, 0xbf⟩
  else if a < 0xf0 then some (ofThree a)
  else if a < 0xf5 then some (ofFour a)
  else none

/-- The bits of the character in a first byte before `more` others. -/
def leadBits (a : ℕ) : ℕ → ℕ
  | 0 => a
  | 1 => a - 0xc0
  | 2 => a - 0xe0
  | _ => a - 0xf0

/-- Whether bytes may follow a first byte that has set these bounds. -/
def follows (low high : ℕ) : List UInt8 → Bool
  | [] => true
  | b :: bs => low ≤ b.toNat && b.toNat ≤ high && bs.all fun c => 0x80 ≤ c.toNat && c.toNat ≤ 0xbf

/-- Read on from `value` the six bits of every byte. -/
def assemble (value : ℕ) (bs : List UInt8) : ℕ :=
  bs.foldl (fun v b => v * 64 + (b.toNat - 0x80)) value

/-- Take one character off the front. -/
def pop : List UInt8 → Popped UInt8 Char Invalid
  | [] => .incomplete
  | a :: rest =>
    match lead a.toNat with
    | none => .failed .startByte
    | some l =>
      if follows l.low l.high (rest.take l.more) then
        if rest.length < l.more then .incomplete
        else .item (Char.ofNat (assemble (leadBits a.toNat l.more) (rest.take l.more)))
          (rest.drop l.more)
      else .failed .continuationByte

/-- Taking a character off leaves fewer bytes. -/
theorem pop_shorter {b rest : List UInt8} {x : Char} (h : pop b = .item x rest) :
    rest.length < b.length := by
  cases b with
  | nil => cases h
  | cons a bytes =>
    rw [pop] at h
    cases hlead : lead a.toNat with
    | none => simp [hlead] at h
    | some l =>
      simp only [hlead] at h
      split at h
      · split at h
        · cases h
        · cases h
          simp only [List.length_drop, List.length_cons]
          omega
      · cases h

/-- The incremental decoder. -/
def decoder : Decoder UInt8 Char Invalid where
  pop := pop
  starved := rfl
  shorter := fun _ _ _ h => pop_shorter h

/-- Decode what is held of an unfinished character and the bytes after it: the characters, and
what is held now. -/
def decode (bytes : List UInt8) : Except Invalid (List Char × List UInt8) :=
  match decoder.consume Decoder.collect bytes with
  | (chars, .waiting held) => .ok (chars, held)
  | (_, .failed e) => .error e

/-! ## Encoded characters -/

/-- What may follow a first byte may also be cut short. -/
theorem follows_of_prefix {low high : ℕ} {p bs : List UInt8} (h : p <+: bs)
    (hbs : follows low high bs) : follows low high p := by
  obtain ⟨q, rfl⟩ := h
  cases p with
  | nil => rfl
  | cons b p => simp_all [follows]

/-- The bytes of a character are a first byte and the bytes that it announces. -/
structure Encodes (c : Char) (a : UInt8) (tail : List UInt8) (l : Lead) : Prop where
  bytes : String.utf8EncodeChar c = a :: tail
  lead : lead a.toNat = some l
  length : tail.length = l.more
  follows : follows l.low l.high tail
  value : assemble (leadBits a.toNat l.more) tail = c.val.toNat

/-- A number below 256 is the number of its byte. -/
theorem toNat_ofNat {n : ℕ} (h : n < 256) : (UInt8.ofNat n).toNat = n := by
  rw [UInt8.toNat_ofNat']
  exact Nat.mod_eq_of_lt h

variable {c : Char}

/-- Up to `0x7f` a character is one byte. -/
theorem encodes_one (h : c.val.toNat ≤ 0x7f) : ∃ a tail l, Encodes c a tail l := by
  have hbytes : String.utf8EncodeChar c = [UInt8.ofNat c.val.toNat] := by
    simp only [String.utf8EncodeChar, h, if_true]
  have hbyte := toNat_ofNat (n := c.val.toNat) (by omega)
  refine ⟨_, _, ⟨0, 0x80, 0xbf⟩, hbytes, ?_, rfl, rfl, hbyte⟩
  rw [hbyte, lead, if_pos (by omega)]

/-- Up to `0x7ff` a character is a first byte and one more. -/
theorem encodes_two (h : 0x7f < c.val.toNat) (h' : c.val.toNat ≤ 0x7ff) :
    ∃ a tail l, Encodes c a tail l := by
  have hbytes : String.utf8EncodeChar c =
      [UInt8.ofNat (c.val.toNat / 64 % 0x20 + 0xc0), UInt8.ofNat (c.val.toNat % 0x40 + 0x80)] := by
    simp only [String.utf8EncodeChar, show ¬ c.val.toNat ≤ 0x7f by omega, h', if_true, if_false]
  have hfirst := toNat_ofNat (n := c.val.toNat / 64 % 0x20 + 0xc0) (by omega)
  have hlast := toNat_ofNat (n := c.val.toNat % 0x40 + 0x80) (by omega)
  refine ⟨_, _, ⟨1, 0x80, 0xbf⟩, hbytes, ?_, rfl, ?_, ?_⟩
  · rw [hfirst, lead, if_neg (by omega), if_neg (by omega), if_pos (by omega)]
  · simp only [follows, List.all_nil, Bool.and_true, Bool.and_eq_true, decide_eq_true_eq, hlast]
    omega
  · show ((UInt8.ofNat (c.val.toNat / 64 % 0x20 + 0xc0)).toNat - 0xc0) * 64 +
        ((UInt8.ofNat (c.val.toNat % 0x40 + 0x80)).toNat - 0x80) = c.val.toNat
    rw [hfirst, hlast]
    omega

/-- Up to `0xffff` a character is a first byte and two more, where the bounds on the second one
leave out overlong forms and surrogates. -/
theorem encodes_three (h : 0x7ff < c.val.toNat) (h' : c.val.toNat ≤ 0xffff) :
    ∃ a tail l, Encodes c a tail l := by
  have hvalid : c.val.toNat < 0xd800 ∨ (0xdfff < c.val.toNat ∧ c.val.toNat < 0x110000) := c.valid
  have hbytes : String.utf8EncodeChar c =
      [UInt8.ofNat (c.val.toNat / 4096 % 0x10 + 0xe0),
        UInt8.ofNat (c.val.toNat / 64 % 0x40 + 0x80), UInt8.ofNat (c.val.toNat % 0x40 + 0x80)] := by
    simp only [String.utf8EncodeChar, show ¬ c.val.toNat ≤ 0x7f by omega,
      show ¬ c.val.toNat ≤ 0x7ff by omega, h', if_true, if_false]
  have hfirst := toNat_ofNat (n := c.val.toNat / 4096 % 0x10 + 0xe0) (by omega)
  have hsecond := toNat_ofNat (n := c.val.toNat / 64 % 0x40 + 0x80) (by omega)
  have hlast := toNat_ofNat (n := c.val.toNat % 0x40 + 0x80) (by omega)
  refine ⟨_, _, ofThree (c.val.toNat / 4096 % 0x10 + 0xe0), hbytes, ?_, rfl, ?_, ?_⟩
  · rw [hfirst, lead, if_neg (by omega), if_neg (by omega), if_neg (by omega), if_pos (by omega)]
  · simp only [ofThree, follows, List.all_nil, List.all_cons, Bool.and_true, Bool.and_eq_true,
      decide_eq_true_eq, hsecond, hlast]
    split <;> split <;> omega
  · show (((UInt8.ofNat (c.val.toNat / 4096 % 0x10 + 0xe0)).toNat - 0xe0) * 64 +
        ((UInt8.ofNat (c.val.toNat / 64 % 0x40 + 0x80)).toNat - 0x80)) * 64 +
        ((UInt8.ofNat (c.val.toNat % 0x40 + 0x80)).toNat - 0x80) = c.val.toNat
    rw [hfirst, hsecond, hlast]
    omega

/-- Above `0xffff` a character is a first byte and three more. -/
theorem encodes_four (h : 0xffff < c.val.toNat) : ∃ a tail l, Encodes c a tail l := by
  have hvalid : c.val.toNat < 0xd800 ∨ (0xdfff < c.val.toNat ∧ c.val.toNat < 0x110000) := c.valid
  have hbytes : String.utf8EncodeChar c =
      [UInt8.ofNat (c.val.toNat / 262144 % 0x08 + 0xf0),
        UInt8.ofNat (c.val.toNat / 4096 % 0x40 + 0x80),
        UInt8.ofNat (c.val.toNat / 64 % 0x40 + 0x80), UInt8.ofNat (c.val.toNat % 0x40 + 0x80)] := by
    simp only [String.utf8EncodeChar, show ¬ c.val.toNat ≤ 0x7f by omega,
      show ¬ c.val.toNat ≤ 0x7ff by omega, show ¬ c.val.toNat ≤ 0xffff by omega, if_false]
  have hfirst := toNat_ofNat (n := c.val.toNat / 262144 % 0x08 + 0xf0) (by omega)
  have hsecond := toNat_ofNat (n := c.val.toNat / 4096 % 0x40 + 0x80) (by omega)
  have hthird := toNat_ofNat (n := c.val.toNat / 64 % 0x40 + 0x80) (by omega)
  have hlast := toNat_ofNat (n := c.val.toNat % 0x40 + 0x80) (by omega)
  refine ⟨_, _, ofFour (c.val.toNat / 262144 % 0x08 + 0xf0), hbytes, ?_, rfl, ?_, ?_⟩
  · rw [hfirst, lead, if_neg (by omega), if_neg (by omega), if_neg (by omega), if_neg (by omega),
      if_pos (by omega)]
  · simp only [ofFour, follows, List.all_nil, List.all_cons, Bool.and_true, Bool.and_eq_true,
      decide_eq_true_eq, hsecond, hthird, hlast]
    split <;> split <;> omega
  · show ((((UInt8.ofNat (c.val.toNat / 262144 % 0x08 + 0xf0)).toNat - 0xf0) * 64 +
        ((UInt8.ofNat (c.val.toNat / 4096 % 0x40 + 0x80)).toNat - 0x80)) * 64 +
        ((UInt8.ofNat (c.val.toNat / 64 % 0x40 + 0x80)).toNat - 0x80)) * 64 +
        ((UInt8.ofNat (c.val.toNat % 0x40 + 0x80)).toNat - 0x80) = c.val.toNat
    rw [hfirst, hsecond, hthird, hlast]
    omega

/-- Every character is a first byte and the bytes that it announces. -/
theorem exists_encodes (c : Char) : ∃ a tail l, Encodes c a tail l := by
  by_cases h1 : c.val.toNat ≤ 0x7f
  · exact encodes_one h1
  by_cases h2 : c.val.toNat ≤ 0x7ff
  · exact encodes_two (by omega) h2
  by_cases h3 : c.val.toNat ≤ 0xffff
  · exact encodes_three (by omega) h3
  · exact encodes_four (by omega)

/-- The decoder reads what `String.utf8EncodeChar` writes. -/
theorem suits (c : Char) : decoder.Suits String.utf8EncodeChar c := by
  obtain ⟨a, tail, l, h⟩ := exists_encodes c
  constructor
  · intro rest
    show pop (String.utf8EncodeChar c ++ rest) = _
    have hvalue : Char.ofNat c.val.toNat = c := Char.ofNat_toNat c
    have htake : (tail ++ rest).take l.more = tail := by simp [← h.length]
    have hdrop : (tail ++ rest).drop l.more = rest := by simp [← h.length]
    have hlong : ¬ (tail ++ rest).length < l.more := by
      rw [List.length_append, h.length]
      omega
    rw [h.bytes, List.cons_append, pop, h.lead]
    simp only [htake, hdrop, h.follows, if_true, if_neg hlong, h.value, hvalue]
  · intro p q hp hq
    show pop p = _
    rw [h.bytes] at hp
    cases p with
    | nil => rfl
    | cons b p =>
      obtain ⟨rfl, htail⟩ := List.cons.inj hp
      have hlen : p.length + q.length = l.more := by
        rw [← h.length, htail]
        exact List.length_append.symm
      have hpos := List.length_pos_iff.2 hq
      have htake : p.take l.more = p := List.take_of_length_le (by omega)
      have hfollows := follows_of_prefix ⟨q, htail.symm⟩ h.follows
      rw [pop, h.lead]
      simp only [htake, hfollows, if_true]
      rw [if_pos (by omega)]

end Utf8

end Interactive
