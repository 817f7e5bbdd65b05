import LabGoblin.Analysis.Framing
import LabGoblin.Model.GuacdTunnel

/-!
# The parser's limit and the traffic

The parser compares its limit with everything it has been fed and not yet taken off, before it
takes anything off. So the limit is on an unfinished instruction together with the message or the
read that arrives next, and not on the instructions.
-/

set_option autoImplicit false

namespace LabGoblin.Guacamole

open Interactive Text

/-- An instruction whose encoding is within the limit. -/
structure WellFormed (limit : ℕ) (elements : Instruction) : Prop where
  nonempty : elements ≠ []
  few : elements.length ≤ maxElements
  short : (encodeInstruction elements).length ≤ limit

/-- The errors of the parser that a limit is exceeded. -/
def LimitError (e : ValueError) : Prop :=
  e = .message "Guacamole instruction exceeds limit" ∨
    e = .message "Guacamole element exceeds limit"

instance (e : ValueError) : Decidable (LimitError e) := by
  unfold LimitError
  infer_instance

/-- A value is no longer than the encoding of its instruction. -/
theorem length_le_encodeInstruction {elements : Instruction} {value : Text}
    (h : value ∈ elements) : value.length ≤ (encodeInstruction elements).length := by
  induction elements with
  | nil => simp at h
  | cons first rest ih =>
    cases rest with
    | nil =>
      have hvalue : value = first := by simpa using h
      rw [hvalue, encodeInstruction_singleton, encodeElement]
      simp only [List.length_append, List.length_cons]
      omega
    | cons next rest =>
      rw [encodeInstruction_cons, encodeElement]
      simp only [List.length_append, List.length_cons]
      rcases List.mem_cons.1 h with rfl | h
      · omega
      · have hrest := ih h
        omega

/-- The parser takes an instruction that is within the limit off its buffer whole. -/
theorem WellFormed.suits {limit : ℕ} {elements : Instruction} (hlimit : limit ≤ 9999999)
    (h : WellFormed limit elements) : (parser limit).Suits encodeInstruction elements := by
  refine suits_encodeInstruction hlimit ⟨h.nonempty, h.few, fun value hvalue => ?_⟩
  have hlen := length_le_encodeInstruction hvalue
  have hshort := h.short
  omega

/-- The parser refuses a buffer that is longer than the limit, whatever is in it. -/
theorem refuses_eq (limit : ℕ) (buffer : Text) :
    refuses limit buffer = if limit < buffer.length then
      some (.message "Guacamole instruction exceeds limit") else none := rfl

/-! ## The browser -/

/-- A computation that does not raise an error about a limit. -/
def Unlimited {α : Type} (x : Except ValueError α) : Prop :=
  ∀ e, x = .error e → ¬ LimitError e

section Unlimited

variable {α β : Type}

/-- A value is no error about a limit. -/
theorem unlimited_ok (a : α) : Unlimited (.ok a : Except ValueError α) := by
  intro e h
  cases h

/-- An error of another kind is none about a limit. -/
theorem unlimited_error {e : ValueError} (h : ¬ LimitError e) :
    Unlimited (.error e : Except ValueError α) := by
  intro e' h'
  cases h'
  exact h

/-- Refusing an instruction is no error about a limit. -/
theorem unlimited_unsupported : Unlimited (unsupported : Except ValueError α) :=
  unlimited_error (by decide)

/-- Two computations without errors about a limit have none in sequence. -/
theorem Unlimited.bind {x : Except ValueError α} {f : α → Except ValueError β}
    (hx : Unlimited x) (hf : ∀ a, Unlimited (f a)) : Unlimited (x >>= f) := by
  intro e h
  cases x with
  | error e' =>
    cases h
    exact hx _ rfl
  | ok a => exact hf a e h

/-- A choice between two such computations is one. -/
theorem Unlimited.ite {x y : Except ValueError α} {p : Prop} [Decidable p] (hx : Unlimited x)
    (hy : Unlimited y) : Unlimited (if p then x else y) := by
  by_cases hp : p
  · rw [if_pos hp]
    exact hx
  · rw [if_neg hp]
    exact hy

/-- Reading digits raises no error about a limit. -/
theorem unlimited_readDecimals (value : ℕ) (s : Text) : Unlimited (readDecimals value s) := by
  induction s generalizing value with
  | nil => exact unlimited_ok value
  | cons c s ih =>
    unfold readDecimals
    cases decimal c with
    | some d => exact ih (10 * value + d)
    | none => exact unlimited_error (by decide)

/-- Reading a number raises no error about a limit. -/
theorem unlimited_int (s : Text) : Unlimited (int s) :=
  (unlimited_error (by decide)).ite
    ((unlimited_error (by decide)).ite (unlimited_readDecimals 0 s))

/-- The check of a range raises no error about a limit. -/
theorem unlimited_inRange (low high : ℕ) (value : Text) :
    Unlimited (inRange low high value) := by
  intro e h
  cases hint : int value with
  | error e' =>
    rw [inRange, hint] at h
    cases h
    exact unlimited_int value _ hint
  | ok n =>
    rw [inRange, hint] at h
    cases h

/-- The end of every validation that asks a condition. -/
theorem unlimited_condition {a : Except ValueError Bool} (h : Unlimited a) :
    Unlimited (do if ← a then pure true else unsupported) :=
  h.bind fun _ => (unlimited_ok true).ite unlimited_unsupported

/-- A conjunction of two such checks is one. -/
theorem Unlimited.and {a b : Except ValueError Bool} (ha : Unlimited a) (hb : Unlimited b) :
    Unlimited (a <&&> b) :=
  ha.bind fun passed => by
    cases passed with
    | true => exact hb
    | false => exact unlimited_ok false

end Unlimited

/-- The validation of an instruction raises no error about a limit. -/
theorem unlimited_validate (x : Instruction) : Unlimited (validateBrowserInstruction x) := by
  have hkey : ∀ args, Unlimited (validateKey args) := by
    intro args
    unfold validateKey
    split
    · refine Unlimited.ite ?_ unlimited_unsupported
      exact (unlimited_inRange _ _ _).bind fun _ => (unlimited_ok true).ite unlimited_unsupported
    · exact unlimited_unsupported
  have hmouse : ∀ args, Unlimited (validateMouse args) := by
    intro args
    unfold validateMouse
    split
    · refine Unlimited.ite ?_ unlimited_unsupported
      exact unlimited_condition ((unlimited_inRange _ _ _).and
        ((unlimited_inRange _ _ _).and (unlimited_inRange _ _ _)))
    · exact unlimited_unsupported
  have hsize : ∀ args, Unlimited (validateSize args) := by
    intro args
    unfold validateSize
    split
    · refine Unlimited.ite ?_ unlimited_unsupported
      exact unlimited_condition ((unlimited_inRange _ _ _).and (unlimited_inRange _ _ _))
    · exact unlimited_unsupported
  have hsync : ∀ args, Unlimited (validateSync args) := by
    intro args
    unfold validateSync
    split
    · exact (unlimited_ok true).ite unlimited_unsupported
    · exact unlimited_unsupported
  have hack : ∀ args, Unlimited (validateAck args) := by
    intro args
    unfold validateAck
    split
    · exact (unlimited_ok true).ite unlimited_unsupported
    · exact unlimited_unsupported
  cases x with
  | nil => exact unlimited_error (by decide)
  | cons opcode args =>
    unfold validateBrowserInstruction
    exact (unlimited_ok false).ite ((unlimited_ok true).ite ((hsync args).ite ((hack args).ite
      ((hkey args).ite ((hmouse args).ite ((hsize args).ite unlimited_unsupported))))))

/-- The connection ends with an error that a limit is exceeded. -/
def ExceedsLimit (exit : Exit Char ValueError BrowserEnd) : Prop :=
  ∃ e, LimitError e ∧ (exit = .failed e ∨ exit = .stopped (.raised e))

/-- Every one of these instructions is passed on or answered, so the connection goes on. -/
def GoesOn (instructions : List Instruction) : Prop :=
  ∀ x ∈ instructions, isPing x = true ∨ validateBrowserInstruction x = .ok true

/-- The connection goes on exactly when no instruction stops it. -/
theorem handled_goesOn (xs : List Instruction) :
    (handled handleBrowserInstruction xs).2 = none ↔ GoesOn xs := by
  induction xs with
  | nil => simp [handled, GoesOn]
  | cons x xs ih =>
    have hcons : GoesOn (x :: xs) ↔
        (isPing x = true ∨ validateBrowserInstruction x = .ok true) ∧ GoesOn xs := by
      simp [GoesOn]
    rw [hcons, handled]
    by_cases hping : isPing x = true
    · simp [handleBrowserInstruction, hping, ih]
    · cases hvalid : validateBrowserInstruction x with
      | error e => simp [handleBrowserInstruction, hping, hvalid]
      | ok b => cases b <;> simp [handleBrowserInstruction, hping, hvalid, ih]

/-- The handler stops with no error about a limit. -/
theorem handled_stop {xs : List Instruction} {e : ValueError}
    (h : (handled handleBrowserInstruction xs).2 = some (.raised e)) : ¬ LimitError e := by
  induction xs with
  | nil => cases h
  | cons x xs ih =>
    rw [handled] at h
    by_cases hping : isPing x = true
    · simp only [handleBrowserInstruction, hping, if_true] at h
      exact ih h
    · cases hvalid : validateBrowserInstruction x with
      | error e' =>
        simp only [handleBrowserInstruction, hping, hvalid] at h
        cases h
        exact unlimited_validate x e hvalid
      | ok b =>
        cases b with
        | false =>
          simp only [handleBrowserInstruction, hping, hvalid] at h
          cases h
        | true =>
          simp only [handleBrowserInstruction, hping, hvalid] at h
          exact ih h

/-- The characters of the browser's messages that the parser holds when it checks the message
`k`. -/
def heldByBrowser (instructions : List Instruction) (messages : List Text) (k : ℕ) : ℕ :=
  Decoder.held encodeInstruction instructions (Decoder.arrived messages k)
    (Decoder.arrived messages (k + 1))

/-- A browser's connection ends at the limit exactly when it went on to a message with which the
parser holds too much. -/
theorem fromBrowser_exceeds_iff {instructions : List Instruction}
    (hwell : ∀ x ∈ instructions, WellFormed browserLimit x) {messages : List Text}
    (hmessages : messages.flatten = instructions.flatMap encodeInstruction) :
    ExceedsLimit (fromBrowser messages).2 ↔
      ∃ k, GoesOn (Decoder.whole encodeInstruction instructions (Decoder.arrived messages k)) ∧
        browserLimit < heldByBrowser instructions messages k := by
  have hsuits : ∀ x ∈ instructions, (parser browserLimit).Suits encodeInstruction x :=
    fun x hx => (hwell x hx).suits (by decide)
  have hfailed : ∀ e', (fromBrowser messages).2 = .failed e' ↔ _ := fun e' =>
    Decoder.feedAll_refused_iff (refuses_eq browserLimit) hsuits (parser browserLimit).starved
      (by simp) (by simpa using hmessages)
  simp only [List.length_nil, Nat.zero_add, handled_goesOn] at hfailed
  constructor
  · rintro ⟨e, he, hend | hend⟩
    · exact ((hfailed e).mp hend).2
    · rw [fromBrowser, Decoder.feedAll_eq_handled] at hend
      exact absurd he (handled_stop (Decoder.eq_of_ended_stopped hend))
  · intro h
    exact ⟨_, Or.inl rfl, Or.inl ((hfailed _).mpr ⟨rfl, h⟩)⟩

/-! ## The connection to guacd -/

/-- What the reads of a connection are decoded to, one by one. -/
inductive Decodes : List UInt8 → List SocketRead → List Text → Prop
  | nil (undecoded : List UInt8) : Decodes undecoded [] []
  | cons {undecoded undecoded' : List UInt8} {read : SocketRead} {reads : List SocketRead}
      {text : Text} {texts : List Text}
      (hread : Utf8.decode (undecoded ++ read.data) = .ok (text, undecoded'))
      (hreads : Decodes undecoded' reads texts) :
      Decodes undecoded (read :: reads) (text :: texts)

/-- The characters of a text that have arrived whole with the first `k` reads of its bytes. -/
def charactersRead (text : Text) (reads : List SocketRead) (k : ℕ) : ℕ :=
  (Decoder.whole String.utf8EncodeChar text
    (Decoder.arrived (reads.map SocketRead.data) k)).length

/-- The reads of an encoded text are decoded to the characters that they complete. -/
theorem exists_decodes {text : Text} {undecoded : List UInt8} {reads : List SocketRead}
    (hwait : Utf8.decoder.pop undecoded = .incomplete)
    (h : undecoded ++ (reads.map SocketRead.data).flatten = text.flatMap String.utf8EncodeChar) :
    ∃ texts, Decodes undecoded reads texts ∧ texts.flatten = text ∧
      ∀ k, Decoder.arrived texts k = (Decoder.whole String.utf8EncodeChar text
        (undecoded.length + Decoder.arrived (reads.map SocketRead.data) k)).length := by
  have hsuits : ∀ (t : Text), ∀ c ∈ t, Utf8.decoder.Suits String.utf8EncodeChar c :=
    fun _ c _ => Utf8.suits c
  have hnone := Decoder.whole_eq_nil (hsuits text) hwait h
  induction reads generalizing text undecoded with
  | nil =>
    have hall : undecoded = text.flatMap String.utf8EncodeChar := by simpa using h
    have htext : Decoder.whole String.utf8EncodeChar _ _ = _ := Decoder.whole_append text [] 0
    rw [List.append_nil, Nat.add_zero, ← hall, hnone] at htext
    have hempty : text = [] := by simpa [Decoder.whole] using htext.symm
    subst hempty
    exact ⟨[], .nil undecoded, rfl, fun k => by simp [Decoder.arrived, Decoder.whole]⟩
  | cons read reads ih =>
    have h' : (undecoded ++ read.data) ++ (reads.map SocketRead.data).flatten =
        text.flatMap String.utf8EncodeChar := by simpa using h
    obtain ⟨done, left, undecoded', -, rfl, hconsume, hbytes, hleft⟩ :=
      Decoder.consume_whole (hsuits text) h'
    have hwait' := Decoder.pop_of_waiting hconsume
    obtain ⟨texts, hdecodes, rfl, hlengths⟩ := ih hwait' hleft
      (Decoder.whole_eq_nil (hsuits left) hwait' hleft)
    have hdecode : Utf8.decode (undecoded ++ read.data) = .ok (done, undecoded') := by
      rw [Utf8.decode, hconsume]
    refine ⟨done :: texts, .cons hdecode hdecodes, by simp, fun k => ?_⟩
    cases k with
    | zero => simp [Decoder.arrived_zero, hnone]
    | succ k =>
      have hlen : undecoded.length + read.data.length =
          (done.flatMap String.utf8EncodeChar).length + undecoded'.length := by
        have hlength := congrArg List.length hbytes
        simpa only [List.length_append] using hlength
      have hstart : undecoded.length +
          Decoder.arrived ((read :: reads).map SocketRead.data) (k + 1) =
          (done.flatMap String.utf8EncodeChar).length +
            (undecoded'.length + Decoder.arrived (reads.map SocketRead.data) k) := by
        rw [List.map_cons, Decoder.arrived_cons]
        omega
      rw [hstart, Decoder.whole_append, Decoder.arrived_cons, hlengths, List.length_append]

/-- How a connection ends for the parser: what it holds is consumed, and then what arrives. -/
def parsed (buffer : Text) (texts : List Text) : Exit Char ValueError Empty :=
  match ((parser readerLimit).consume Decoder.collect buffer).2 with
  | .waiting buffer =>
    ((parser readerLimit).feedAll (refuses readerLimit) Decoder.collect buffer texts).2
  | .failed e => .failed e

/-- An instruction that is taken off does not change how the connection ends. -/
theorem parsed_item {buffer rest : Text} {x : Instruction} (texts : List Text)
    (h : pop readerLimit buffer = .item x rest) : parsed buffer texts = parsed rest texts := by
  have hconsume : (parser readerLimit).consume Decoder.collect buffer = _ :=
    Decoder.consume_item h
  unfold parsed
  rw [hconsume]
  rfl

/-- A buffer that cannot be parsed ends the connection. -/
theorem parsed_failed {buffer : Text} {e : ValueError} (texts : List Text)
    (h : pop readerLimit buffer = .failed e) : parsed buffer texts = .failed e := by
  have hconsume : (parser readerLimit).consume Decoder.collect buffer = _ :=
    Decoder.consume_failed h
  unfold parsed
  rw [hconsume]

/-- At the end of the traffic the parser waits with what it holds. -/
theorem parsed_nil {buffer : Text} (h : pop readerLimit buffer = .incomplete) :
    parsed buffer [] = .waiting buffer := by
  have hconsume : (parser readerLimit).consume Decoder.collect buffer = _ :=
    Decoder.consume_incomplete h
  unfold parsed
  rw [hconsume]
  rfl

/-- The next text is added to what the parser holds, if the limit admits it. -/
theorem parsed_cons {buffer : Text} (text : Text) (texts : List Text)
    (h : pop readerLimit buffer = .incomplete) :
    parsed buffer (text :: texts) =
      match refuses readerLimit (buffer ++ text) with
      | some e => .failed e
      | none => parsed (buffer ++ text) texts := by
  have hconsume : (parser readerLimit).consume Decoder.collect buffer = _ :=
    Decoder.consume_incomplete h
  rw [parsed, hconsume]
  simp only [Decoder.feedAll]
  cases refuses readerLimit (buffer ++ text) with
  | some e => rfl
  | none =>
    dsimp only
    rw [parsed]
    rcases (parser readerLimit).consume Decoder.collect (buffer ++ text) with
      ⟨items, buffer' | e | s⟩
    · rfl
    · rfl
    · exact s.elim

/-- Some number of reads raises an error. -/
def RaisesEventually (r : InstructionReader) (e : ValueError) : Prop :=
  ∃ n, r.readMany n = .error (.value e)

/-- A read that returns an instruction only moves an error on to a later read. -/
theorem raisesEventually_item {buffer rest : Text} {undecoded : List UInt8}
    {reads : List SocketRead} {x : Instruction} {e : ValueError}
    (h : pop readerLimit buffer = .item x rest) :
    RaisesEventually ⟨buffer, undecoded, reads⟩ e ↔
      RaisesEventually ⟨rest, undecoded, reads⟩ e := by
  have hread : InstructionReader.read ⟨buffer, undecoded, reads⟩ =
      .ok x ⟨rest, undecoded, reads⟩ := by
    unfold InstructionReader.read readFrom
    simp only [h]
  have hmany : ∀ n, InstructionReader.readMany (n + 1) ⟨buffer, undecoded, reads⟩ =
      (InstructionReader.readMany n ⟨rest, undecoded, reads⟩).map (x :: ·) := by
    intro n
    rw [InstructionReader.readMany, hread]
  constructor
  · rintro ⟨n, hn⟩
    cases n with
    | zero => cases hn
    | succ n =>
      rw [hmany] at hn
      refine ⟨n, ?_⟩
      cases hrest : InstructionReader.readMany n ⟨rest, undecoded, reads⟩ with
      | ok xs =>
        rw [hrest] at hn
        cases hn
      | error e' =>
        rw [hrest] at hn
        cases hn
        rfl
  · rintro ⟨n, hn⟩
    refine ⟨n + 1, ?_⟩
    rw [hmany, hn]
    rfl

/-- A reader whose read raises. -/
theorem raisesEventually_error {r r' : InstructionReader} {e : ValueError} {e' : TunnelError}
    (h : InstructionReader.read r = .error e' r') :
    RaisesEventually r e ↔ e' = .value e := by
  constructor
  · rintro ⟨n, hn⟩
    cases n with
    | zero => cases hn
    | succ n =>
      rw [InstructionReader.readMany, h] at hn
      cases hn
      rfl
  · rintro rfl
    refine ⟨1, ?_⟩
    rw [InstructionReader.readMany, h]

/-- Two readers whose next reads are the same. -/
theorem raisesEventually_congr {r r' : InstructionReader} {e : ValueError}
    (h : InstructionReader.read r = InstructionReader.read r') :
    RaisesEventually r e ↔ RaisesEventually r' e := by
  have hmany : ∀ n, r.readMany (n + 1) = r'.readMany (n + 1) := by
    intro n
    rw [InstructionReader.readMany, InstructionReader.readMany, h]
  constructor
  · rintro ⟨n, hn⟩
    cases n with
    | zero => cases hn
    | succ n => exact ⟨n + 1, (hmany n).symm.trans hn⟩
  · rintro ⟨n, hn⟩
    cases n with
    | zero => cases hn
    | succ n => exact ⟨n + 1, (hmany n).trans hn⟩

/-- What the reads raise is what the parser ends with, if that is so where it is out of
instructions. -/
theorem raisesEventually_of_incomplete {undecoded : List UInt8} {reads : List SocketRead}
    {texts : List Text} {e : ValueError}
    (h : ∀ buffer, pop readerLimit buffer = .incomplete →
      (RaisesEventually ⟨buffer, undecoded, reads⟩ e ↔ parsed buffer texts = .failed e))
    (buffer : Text) :
    RaisesEventually ⟨buffer, undecoded, reads⟩ e ↔ parsed buffer texts = .failed e := by
  induction hn : buffer.length using Nat.strongRecOn generalizing buffer with
  | ind n ih =>
    cases hpop : pop readerLimit buffer with
    | incomplete => exact h buffer hpop
    | failed e' =>
      have hread : InstructionReader.read ⟨buffer, undecoded, reads⟩ =
          .error (.value e') ⟨buffer, undecoded, reads⟩ := by
        unfold InstructionReader.read readFrom
        simp only [hpop]
      rw [raisesEventually_error hread, parsed_failed texts hpop]
      simp
    | item x rest =>
      have hshorter : rest.length < n := hn ▸ popFrom_shorter hpop
      rw [raisesEventually_item hpop, parsed_item texts hpop]
      exact ih rest.length hshorter rest rfl

/-- What the reads raise is what the parser ends with. -/
theorem raisesEventually_iff {undecoded : List UInt8} {reads : List SocketRead}
    {texts : List Text} (h : Decodes undecoded reads texts) (e : ValueError) (buffer : Text) :
    RaisesEventually ⟨buffer, undecoded, reads⟩ e ↔ parsed buffer texts = .failed e := by
  induction h generalizing buffer with
  | nil undecoded =>
    refine raisesEventually_of_incomplete (fun buffer hpop => ?_) buffer
    have hread : InstructionReader.read ⟨buffer, undecoded, []⟩ =
        .error .closed ⟨buffer, undecoded, []⟩ := by
      unfold InstructionReader.read readFrom
      simp only [hpop]
    rw [raisesEventually_error hread, parsed_nil hpop]
    simp
  | @cons undecoded undecoded' read reads text texts hread hreads ih =>
    refine raisesEventually_of_incomplete (fun buffer hpop => ?_) buffer
    rw [parsed_cons text texts hpop]
    cases hrefuses : refuses readerLimit (buffer ++ text) with
    | some e' =>
      have hfails : InstructionReader.read ⟨buffer, undecoded, read :: reads⟩ =
          .error (.value e') ⟨buffer ++ text, undecoded', reads⟩ := by
        unfold InstructionReader.read readFrom
        simp only [hpop, hread, hrefuses]
      rw [raisesEventually_error hfails]
      simp
    | none =>
      have hgoes : InstructionReader.read ⟨buffer, undecoded, read :: reads⟩ =
          InstructionReader.read ⟨buffer ++ text, undecoded', reads⟩ := by
        unfold InstructionReader.read
        rw [readFrom]
        simp only [hpop, hread, hrefuses]
      rw [raisesEventually_congr hgoes]
      exact ih (buffer ++ text)

/-- The characters of the instructions of guacd that the parser holds when it checks the read
`k`. -/
def heldByReader (instructions : List Instruction) (reads : List SocketRead) (k : ℕ) : ℕ :=
  Decoder.held encodeInstruction instructions
    (charactersRead (instructions.flatMap encodeInstruction) reads k)
    (charactersRead (instructions.flatMap encodeInstruction) reads (k + 1))

/-- Collecting instructions never stops. -/
theorem handled_collect {ι : Type} (xs : List ι) :
    (handled (Decoder.collect (ι := ι)) xs).2 = none := by
  induction xs with
  | nil => rfl
  | cons x xs ih => exact ih

/-- The reads raise exactly the error about the limit, and only when the parser holds too much at
some read. -/
theorem raises_iff {instructions : List Instruction}
    (hwell : ∀ x ∈ instructions, WellFormed readerLimit x) {reads : List SocketRead}
    (hreads : (reads.map SocketRead.data).flatten =
      (instructions.flatMap encodeInstruction).flatMap String.utf8EncodeChar) (e : ValueError) :
    RaisesEventually { arriving := reads } e ↔
      e = .message "Guacamole instruction exceeds limit" ∧
        ∃ k, readerLimit < heldByReader instructions reads k := by
  have hsuits : ∀ x ∈ instructions, (parser readerLimit).Suits encodeInstruction x :=
    fun x hx => (hwell x hx).suits (by decide)
  obtain ⟨texts, hdecodes, htexts, hlengths⟩ : ∃ texts, Decodes [] reads texts ∧ _ :=
    exists_decodes Utf8.decoder.starved hreads
  have hparsed : parsed [] texts =
      ((parser readerLimit).feedAll (refuses readerLimit) Decoder.collect [] texts).2 := by
    rw [parsed, Decoder.consume_incomplete (parser readerLimit).starved]
  have hfeed : ((parser readerLimit).feedAll (refuses readerLimit) Decoder.collect [] texts).2 =
      .failed e ↔ _ :=
    Decoder.feedAll_refused_iff (refuses_eq readerLimit) hsuits (parser readerLimit).starved
      (by simp) (by simpa using htexts)
  simp only [List.length_nil, Nat.zero_add, handled_collect, true_and] at hfeed hlengths
  rw [raisesEventually_iff hdecodes, hparsed, hfeed]
  simp only [heldByReader, charactersRead, hlengths]

/-! ## Both parsers -/

/-- No error about a limit is raised exactly when every message, and every read, fits into the
limit together with what the parser holds of the instruction begun before it. From the browser
this is asked of the messages that arrive before an instruction ends the connection. -/
theorem traffic_limits_iff (instructions : List Instruction) :
    (∀ messages : List Text, (∀ x ∈ instructions, WellFormed browserLimit x) →
      messages.flatten = instructions.flatMap encodeInstruction →
      (¬ ExceedsLimit (fromBrowser messages).2 ↔
        ∀ k, GoesOn (Decoder.whole encodeInstruction instructions (Decoder.arrived messages k)) →
          heldByBrowser instructions messages k ≤ browserLimit)) ∧
    ∀ reads : List SocketRead, (∀ x ∈ instructions, WellFormed readerLimit x) →
      (reads.map SocketRead.data).flatten =
        (instructions.flatMap encodeInstruction).flatMap String.utf8EncodeChar →
      ((∀ e, LimitError e → ¬ RaisesEventually { arriving := reads } e) ↔
        ∀ k, heldByReader instructions reads k ≤ readerLimit) := by
  constructor
  · intro messages hwell hmessages
    rw [fromBrowser_exceeds_iff hwell hmessages]
    constructor
    · intro hfits k hgoes
      by_contra hlong
      exact hfits ⟨k, hgoes, by omega⟩
    · rintro hfits ⟨k, hgoes, hlong⟩
      have hk := hfits k hgoes
      omega
  · intro reads hwell hreads
    constructor
    · intro hfits k
      by_contra hlong
      exact hfits _ (Or.inl rfl) ((raises_iff hwell hreads _).mpr ⟨rfl, k, by omega⟩)
    · intro hfits e _ hraises
      obtain ⟨-, k, hlong⟩ := (raises_iff hwell hreads e).mp hraises
      have hk := hfits k
      omega

namespace Fixture

def nop : Instruction := ["nop".toList]

/-- Two `nop`s in two messages, of which the first has the beginning of the second. -/
def cutNops : List Text := ["3.nop;3.".toList, "nop;".toList]

def nopReads : List SocketRead :=
  [⟨"3.nop;3.n".toList.flatMap String.utf8EncodeChar, by decide, by decide⟩,
    ⟨"op;".toList.flatMap String.utf8EncodeChar, by decide, by decide⟩]

/-- A `nop` takes six characters. -/
theorem wellFormed_nop {limit : ℕ} (h : 6 ≤ limit) : WellFormed limit nop where
  nonempty := by decide
  few := by decide
  short := h

/-- Short traffic ends in no error about a limit, whether it comes cut or in many reads. -/
theorem traffic_limits_iff_nops :
    (¬ ExceedsLimit (fromBrowser cutNops).2) ∧
      ¬ RaisesEventually { arriving := nopReads }
        (.message "Guacamole instruction exceeds limit") := by
  have hwell : ∀ limit, 6 ≤ limit → ∀ x ∈ [nop, nop], WellFormed limit x := by
    intro limit hlimit x hx
    have hnop : x = nop := by simpa using hx
    rw [hnop]
    exact wellFormed_nop hlimit
  constructor
  · refine ((traffic_limits_iff [nop, nop]).1 cutNops (hwell _ (by decide)) (by decide)).mpr ?_
    intro k _
    have hall : Decoder.arrived cutNops (k + 1) ≤ 12 := Decoder.arrived_le cutNops (k + 1)
    have hlimit : browserLimit = 65536 := rfl
    unfold heldByBrowser Decoder.held
    omega
  · refine ((traffic_limits_iff [nop, nop]).2 nopReads (hwell _ (by decide)) (by decide)).mpr
      ?_ _ (Or.inl rfl)
    intro k
    have hall : charactersRead ([nop, nop].flatMap encodeInstruction) nopReads (k + 1) ≤ 12 :=
      Decoder.length_whole_le _ _
    have hlimit : readerLimit = 1048576 := rfl
    unfold heldByReader Decoder.held
    omega

/-- A message of 10923 `nop`s, six characters each. -/
def nops : List Instruction := List.replicate 10923 nop

/-- The `nop`s of the fixture are longer than the limit together. -/
theorem length_nops : (nops.flatMap encodeInstruction).length = 65538 := by
  have hmany : ∀ n, ((List.replicate n nop).flatMap encodeInstruction).length = n * 6 := by
    intro n
    induction n with
    | zero => rfl
    | succ n ih =>
      have hsix : (encodeInstruction nop).length = 6 := by decide
      rw [List.replicate_succ, List.flatMap_cons, List.length_append, ih, hsix]
      omega
  rw [nops, hmany]

/-- A message that is longer than the limit ends the connection. -/
theorem exceedsLimit_of_long {message : Text} (h : browserLimit < message.length) :
    ExceedsLimit (fromBrowser [message]).2 := by
  have hrefuses : refuses browserLimit message =
      some (.message "Guacamole instruction exceeds limit") := by
    rw [refuses_eq, if_pos h]
  refine ⟨_, Or.inl rfl, Or.inl ?_⟩
  unfold fromBrowser Decoder.feedAll
  rw [List.nil_append, hrefuses]

/-- All instructions are short, and the message exceeds the limit. -/
theorem nops_exceed :
    (∀ x ∈ nops, WellFormed browserLimit x) ∧
      ExceedsLimit (fromBrowser [nops.flatMap encodeInstruction]).2 := by
  constructor
  · intro x hx
    rw [List.eq_of_mem_replicate hx]
    exact wellFormed_nop (by decide)
  · refine exceedsLimit_of_long ?_
    rw [length_nops]
    decide

end Fixture

end LabGoblin.Guacamole
