import LabGoblin.Analysis.Framing

/-!
# The filter between the browser and guacd

`Admitted` is the set of instructions that a browser may have passed on to guacd. What
`from_browser` writes is a sequence of encoded instructions of this set, which a parser reads
back as exactly these instructions, and it writes nothing for or after the first instruction
that is neither in the set nor the tunnel's own ping.
-/

set_option autoImplicit false

namespace LabGoblin.Guacamole

open Interactive Text

/-- A numeric argument: a non-empty string of digits, which are the ASCII digits if the string is
one of ASCII characters. -/
structure Numeral (value : Text) : Prop where
  digits : isdigit value
  ascii : isascii value → ∀ c ∈ value, asciiDigit c

/-- A numeric argument whose value lies between two bounds. -/
def NumeralIn (low high : ℕ) (value : Text) : Prop :=
  Numeral value ∧ ∃ n, int value = .ok n ∧ low ≤ n ∧ n ≤ high

/-- The instructions that may be passed on. -/
inductive Admitted : Instruction → Prop
  | nop : Admitted ["nop".toList]
  | sync (timestamp : Text) (h : Numeral timestamp) : Admitted ["sync".toList, timestamp]
  | ack (stream message status : Text) (hstream : Numeral stream) (hstatus : Numeral status) :
      Admitted ["ack".toList, stream, message, status]
  | key (keysym pressed : Text) (hkeysym : NumeralIn 0 0xFFFFFFFF keysym)
      (hpressed : pressed = ['0'] ∨ pressed = ['1']) : Admitted ["key".toList, keysym, pressed]
  | mouse (x y mask : Text) (more : Instruction) (hx : NumeralIn 0 8192 x)
      (hy : NumeralIn 0 8192 y) (hmask : NumeralIn 0 31 mask) (hmore : more.length ≤ 1)
      (hnumerals : ∀ value ∈ more, Numeral value) :
      Admitted ("mouse".toList :: x :: y :: mask :: more)
  | size (width height : Text) (hwidth : NumeralIn 200 4096 width)
      (hheight : NumeralIn 200 4096 height) : Admitted ["size".toList, width, height]

/-! ## What the validation accepts -/

/-- What passes `isdigit` is a numeral. -/
theorem numeral_of_isdigit {value : Text} (h : isdigit value) : Numeral value := by
  refine ⟨h, fun hascii c hc => ?_⟩
  have hlow : c.toNat < 128 := by simpa using List.all_eq_true.1 hascii c hc
  have hall : value.all digitChar := by simp_all [isdigit]
  have hdigit := List.all_eq_true.1 hall c hc
  exact (digitChar_iff_of_ascii hlow).1 hdigit

/-- What passes the check of a range is a numeral in it. -/
theorem numeralIn_of_inRange {low high : ℕ} {value : Text} (hdigit : isdigit value)
    (h : inRange low high value = .ok true) : NumeralIn low high value := by
  cases hint : int value with
  | error e => simp [inRange, hint, Except.map] at h
  | ok n =>
    simp only [inRange, hint, Except.map, Except.ok.injEq, Bool.and_eq_true,
      decide_eq_true_eq] at h
    exact ⟨numeral_of_isdigit hdigit, n, hint, h.1, h.2⟩

variable {args : Instruction}

/-- A `sync` that passes its check is admitted. -/
theorem admitted_sync (h : validateSync args = .ok true) : Admitted ("sync".toList :: args) := by
  unfold validateSync at h
  split at h
  · split at h
    · next hdigit => exact .sync _ (numeral_of_isdigit hdigit)
    · cases h
  · cases h

/-- An `ack` that passes its check is admitted. -/
theorem admitted_ack (h : validateAck args = .ok true) : Admitted ("ack".toList :: args) := by
  unfold validateAck at h
  split at h
  · split at h
    · next hdigits =>
      simp only [Bool.and_eq_true] at hdigits
      have hstream := numeral_of_isdigit hdigits.1.1
      have hstatus := numeral_of_isdigit hdigits.1.2
      exact .ack _ _ _ hstream hstatus
    · cases h
  · cases h

/-- A `key` that passes its check is admitted. -/
theorem admitted_key (h : validateKey args = .ok true) : Admitted ("key".toList :: args) := by
  unfold validateKey at h
  split at h
  · next keysym pressed =>
    split at h
    · next hdigit =>
      cases hrange : inRange 0 0xFFFFFFFF keysym with
      | error e => simp [hrange, bind, Except.bind] at h
      | ok inside =>
        have hboth : inside = true ∧ (pressed = ['0'] ∨ pressed = ['1']) := by
          by_contra hno
          simp [hrange, bind, Except.bind, hno, unsupported] at h
        have hkeysym : inRange 0 0xFFFFFFFF keysym = .ok true := by rw [hrange, hboth.1]
        exact .key keysym pressed (numeralIn_of_inRange hdigit hkeysym) hboth.2
    · cases h
  · cases h

/-- A chain of conditions holds when each of them does. -/
theorem andM_eq_ok_true {a b : Except ValueError Bool} (h : (a <&&> b) = .ok true) :
    a = .ok true ∧ b = .ok true := by
  rcases a with e | _ | _
  · cases h
  · cases h
  · exact ⟨rfl, h⟩

/-- A condition that decides between passing on and refusing held. -/
theorem condition_of_ok {a : Except ValueError Bool}
    (h : (do if ← a then pure true else unsupported) = Except.ok true) : a = .ok true := by
  rcases a with e | _ | _
  · cases h
  · cases h
  · rfl

/-- A `mouse` that passes its check is admitted. -/
theorem admitted_mouse (h : validateMouse args = .ok true) :
    Admitted ("mouse".toList :: args) := by
  unfold validateMouse at h
  split at h
  · next x y mask more =>
    split at h
    · next hall =>
      simp only [List.all_cons, Bool.and_eq_true, decide_eq_true_eq, List.all_eq_true] at hall
      obtain ⟨hmore, hx, hy, hmask, hnumerals⟩ := hall
      obtain ⟨hxin, hrest⟩ := andM_eq_ok_true (condition_of_ok h)
      obtain ⟨hyin, hmaskin⟩ := andM_eq_ok_true hrest
      exact .mouse x y mask more (numeralIn_of_inRange hx hxin) (numeralIn_of_inRange hy hyin)
        (numeralIn_of_inRange hmask hmaskin) hmore
        fun value hvalue => numeral_of_isdigit (hnumerals value hvalue)
    · cases h
  · cases h

/-- A `size` that passes its check is admitted. -/
theorem admitted_size (h : validateSize args = .ok true) : Admitted ("size".toList :: args) := by
  unfold validateSize at h
  split at h
  · next width height =>
    split at h
    · next hall =>
      simp only [Bool.and_eq_true] at hall
      obtain ⟨hwidth, hheight⟩ := andM_eq_ok_true (condition_of_ok h)
      exact .size width height (numeralIn_of_inRange hall.1 hwidth)
        (numeralIn_of_inRange hall.2 hheight)
    · cases h
  · cases h

/-- The validation passes on only instructions of the set. -/
theorem admitted_of_validate {elements : Instruction}
    (h : validateBrowserInstruction elements = .ok true) : Admitted elements := by
  cases elements with
  | nil => cases h
  | cons opcode args =>
    rw [validateBrowserInstruction] at h
    split at h
    · cases h
    split at h
    · next hnop =>
      obtain ⟨rfl, rfl⟩ := hnop
      exact .nop
    split at h
    · next hop => exact hop ▸ admitted_sync h
    split at h
    · next hop => exact hop ▸ admitted_ack h
    split at h
    · next hop => exact hop ▸ admitted_key h
    split at h
    · next hop => exact hop ▸ admitted_mouse h
    split at h
    · next hop => exact hop ▸ admitted_size h
    · cases h

/-! ## What is written -/

/-- The bytes written to guacd, in order. -/
def written : List TunnelOutput → ByteArray
  | [] => ByteArray.empty
  | .sendText _ :: outputs => written outputs
  | .write data :: outputs => data ++ written outputs

/-- The instructions that are passed on of those received. -/
def passedOn : List Instruction → List Instruction
  | [] => []
  | x :: xs =>
    if isPing x then passedOn xs
    else if validateBrowserInstruction x = .ok true then x :: passedOn xs
    else []

/-- Two texts are encoded one after the other. -/
theorem utf8_append (s t : Text) : utf8 (s ++ t) = utf8 s ++ utf8 t := by
  simp [utf8, String.ofList_append, String.toByteArray_append]

/-- At any moment the bytes written are those of some of the instructions passed on: the first
ones. -/
theorem written_handled (xs : List Instruction) (k : ℕ) :
    ∃ sent, sent <+: passedOn xs ∧
      written ((handled handleBrowserInstruction xs).1.take k) =
        utf8 (sent.flatMap encodeInstruction) := by
  have hnone : ∃ sent, sent <+: passedOn xs ∧
      written [] = utf8 (sent.flatMap encodeInstruction) := ⟨[], List.nil_prefix, rfl⟩
  induction xs generalizing k with
  | nil => simpa [handled] using hnone
  | cons x xs ih =>
    cases k with
    | zero => simpa using hnone
    | succ k =>
      obtain ⟨sent, hsent, hwritten⟩ := ih k ⟨[], List.nil_prefix, rfl⟩
      by_cases hping : isPing x
      · refine ⟨sent, by simpa [passedOn, hping] using hsent, ?_⟩
        simp [handled, handleBrowserInstruction, hping, written, hwritten]
      · cases hvalid : validateBrowserInstruction x with
        | error e => simpa [handled, handleBrowserInstruction, hping, hvalid] using hnone
        | ok b =>
          cases b with
          | false => simpa [handled, handleBrowserInstruction, hping, hvalid] using hnone
          | true =>
            refine ⟨x :: sent, by simpa [passedOn, hping, hvalid] using hsent, ?_⟩
            simp [handled, handleBrowserInstruction, hping, hvalid, written, hwritten, utf8_append]

/-- Everything that is passed on is in the set. -/
theorem admitted_of_mem_passedOn {xs : List Instruction} {x : Instruction}
    (h : x ∈ passedOn xs) : Admitted x := by
  induction xs with
  | nil => simp [passedOn] at h
  | cons y xs ih =>
    rw [passedOn] at h
    split at h
    · exact ih h
    split at h
    · next hvalid =>
      rcases List.mem_cons.1 h with rfl | h
      · exact admitted_of_validate hvalid
      · exact ih h
    · simp at h

/-- The instructions passed on are the first of those received, without the pings. -/
theorem passedOn_isPrefix_filter (xs : List Instruction) :
    passedOn xs <+: xs.filter fun y => !isPing y := by
  induction xs with
  | nil => simp [passedOn]
  | cons y xs ih =>
    rw [passedOn]
    split
    · next hy => simpa [hy] using ih
    split
    · next hy _ => simpa [hy] using ih
    · exact List.nil_prefix

/-- Nothing is passed on from the first instruction on that is neither in the set nor a ping. -/
theorem passedOn_stops {before after : List Instruction} {x : Instruction} (hx : ¬ Admitted x)
    (hping : isPing x = false) :
    passedOn (before ++ x :: after) <+: before.filter fun y => !isPing y := by
  induction before with
  | nil =>
    have hvalid : validateBrowserInstruction x ≠ .ok true := fun h => hx (admitted_of_validate h)
    simp [passedOn, hping, hvalid]
  | cons y before ih =>
    rw [List.cons_append, passedOn]
    split
    · next hy => simpa [hy] using ih
    split
    · next hy _ => simpa [hy] using ih
    · exact List.nil_prefix

/-- The loop of `pop` adds one element at least, no more than it has room for, and none longer
than the limit. -/
theorem fits_of_popFrom {limit room : ℕ} {text rest : Text} {read x : Instruction}
    (h : popFrom limit room text read = .item x rest) :
    ∃ elements, x = read ++ elements ∧ Fits limit room elements := by
  induction room generalizing text read with
  | zero =>
    rw [popFrom] at h
    cases hread : readElement limit text <;> simp [hread] at h
  | succ room ih =>
    rw [popFrom] at h
    cases hread : readElement limit text with
    | incomplete => simp [hread] at h
    | failed e => simp [hread] at h
    | item element rest' =>
      obtain ⟨value, separator⟩ := element
      obtain ⟨hshort, -⟩ := readElement_item hread
      simp only [hread] at h
      split at h
      · cases h
        exact ⟨[value], rfl, by simp, by simp, by simpa using hshort⟩
      · split at h
        · cases h
        · obtain ⟨elements, rfl, hfits⟩ := ih h
          have hfew := hfits.few
          refine ⟨value :: elements, by simp, by simp, by simp; omega, ?_⟩
          simpa [hshort] using hfits.short

/-- An instruction that the parser takes off its buffer fits. -/
theorem fits_of_pop {limit : ℕ} {b rest : Text} {x : Instruction}
    (h : (parser limit).pop b = .item x rest) : Fits limit maxElements x := by
  obtain ⟨elements, rfl, hfits⟩ := fits_of_popFrom h
  exact hfits

/-- What `from_browser` has written at any moment, parsed with the grammar of instructions, is a
sequence of instructions of the set. They are the first of those received, without the pings, and
nothing has been written for or after the first received one that is neither in the set nor a
ping. -/
theorem browserFilter (messages : List Text) (k : ℕ) :
    ∃ sent, written ((fromBrowser messages).1.take k) = utf8 (sent.flatMap encodeInstruction) ∧
      (parser browserLimit).consume Decoder.collect (sent.flatMap encodeInstruction) =
        (sent, .waiting []) ∧
      (∀ x ∈ sent, Admitted x) ∧
      sent <+: ((received browserLimit messages).1.filter fun y => !isPing y) ∧
      ∀ before x after, (received browserLimit messages).1 = before ++ x :: after →
        ¬ Admitted x → isPing x = false → sent <+: before.filter fun y => !isPing y := by
  have houtputs : (fromBrowser messages).1 =
      (handled handleBrowserInstruction (received browserLimit messages).1).1 :=
    congrArg Prod.fst (Decoder.feedAll_eq_handled _ _ _)
  obtain ⟨sent, hsent, hwritten⟩ := written_handled (received browserLimit messages).1 k
  have hfirst := hsent.trans (passedOn_isPrefix_filter _)
  have hsuits : ∀ x ∈ sent, (parser browserLimit).Suits encodeInstruction x := by
    intro x hx
    have hreceived : x ∈ (received browserLimit messages).1 :=
      (List.mem_filter.1 (hfirst.subset hx)).1
    have hfits : Fits browserLimit maxElements x :=
      Decoder.forall_mem_feedAll (fun _ _ _ => fits_of_pop) _ _ _ x hreceived
    exact suits_encodeInstruction (by decide) hfits
  refine ⟨sent, by rw [houtputs, hwritten], ?_,
    fun x hx => admitted_of_mem_passedOn (hsent.subset hx), hfirst, ?_⟩
  · obtain ⟨done, left, b', rfl, hconsume, -, hend⟩ :=
      Decoder.consume_encoded hsuits (List.append_nil _)
    obtain ⟨rfl, rfl⟩ := hend rfl
    simpa using hconsume
  · intro before x after hreceived hx hping
    rw [hreceived] at hsent
    exact hsent.trans (passedOn_stops hx hping)

namespace Fixture

/-- A tunnel ping, and then a `nop`. -/
def pingThenNop : List Text := ["0.,4.ping,1.5;3.nop;".toList]

/-- A timestamp that is a superscript two. -/
def superscriptSync : List Text := ["4.sync,1.²;".toList]

/-- Something is written after an instruction outside the set, the tunnel's ping; and a numeric
argument that is no ASCII digit is passed on. -/
theorem browserFilter_passes :
    ((received browserLimit pingThenNop).1 = [[[], "ping".toList, ['5']], ["nop".toList]] ∧
      ¬ Admitted [[], "ping".toList, ['5']] ∧
      (fromBrowser pingThenNop).1 =
        [.sendText "0.,4.ping,1.5;".toList, .write (utf8 "3.nop;".toList)]) ∧
    (received browserLimit superscriptSync).1 = [["sync".toList, ['²']]] ∧ ¬ asciiDigit '²' ∧
      (fromBrowser superscriptSync).1 = [.write (utf8 "4.sync,1.²;".toList)] := by
  have hping : received browserLimit pingThenNop =
      ([[[], "ping".toList, ['5']], ["nop".toList]], .waiting []) := by
    refine received_encoded (by decide) ?_ (by decide) (by decide)
    intro elements helements
    simp only [List.mem_cons, List.not_mem_nil, or_false] at helements
    rcases helements with rfl | rfl <;> exact ⟨by decide, by decide, by decide⟩
  have hsync : received browserLimit superscriptSync =
      ([["sync".toList, ['²']]], .waiting []) := by
    refine received_encoded (by decide) ?_ (by decide) (by decide)
    intro elements helements
    simp only [List.mem_cons, List.not_mem_nil, or_false] at helements
    subst helements
    exact ⟨by decide, by decide, by decide⟩
  have houtputs : ∀ messages, (fromBrowser messages).1 =
      (handled handleBrowserInstruction (received browserLimit messages).1).1 :=
    fun messages => congrArg Prod.fst (Decoder.feedAll_eq_handled _ _ _)
  refine ⟨⟨by rw [hping], ?_, by rw [houtputs, hping]; rfl⟩, by rw [hsync], by decide,
    by rw [houtputs, hsync]; rfl⟩
  intro h
  generalize hx : [[], "ping".toList, ['5']] = x at h
  cases h <;> simp at hx

end Fixture

end LabGoblin.Guacamole
