import LabGoblin.Computation.Decoder
import LabGoblin.Model.Text

/-!
# The Guacamole protocol between browser and guacd

An instruction is a list of elements. It is sent as `length.element,…,length.element;`, the
lengths counting code points. `pop` reads one instruction off the front of the text received
so far; `offset` is represented by the text after it. The browser's half of a connection,
`from_browser`, parses what the browser sends and writes the instructions it permits to guacd.
-/

set_option autoImplicit false

namespace LabGoblin.Guacamole

open Interactive Text

/-- The elements of an instruction: the opcode and its arguments. -/
abbrev Instruction := List Text

/-- `f"{len(value)}.{value}"` -/
def encodeElement (value : Text) : Text := Nat.toDigits 10 value.length ++ '.' :: value

/-- `encode_instruction` -/
def encodeInstruction (values : Instruction) : Text :=
  List.intercalate [','] (values.map encodeElement) ++ [';']

def maxElements : ℕ := 256
def maxLengthDigits : ℕ := 7

/-- One turn of the loop of `InstructionParser.pop`: the element at the front of `text`, which is
the buffer from `offset` on, and the separator after it. -/
def readElement (limit : ℕ) (text : Text) : Popped Char (Text × Char) ValueError :=
  match text.dropWhile (· ≠ '.') with
  | [] =>
    if text.length > maxLengthDigits then .failed (.message "Invalid Guacamole length")
    else .incomplete
  | _dot :: body =>
    if !isascii (text.takeWhile (· ≠ '.')) || !isdigit (text.takeWhile (· ≠ '.')) ||
        (text.takeWhile (· ≠ '.')).length > maxLengthDigits then
      .failed (.message "Invalid Guacamole length")
    else
      match int (text.takeWhile (· ≠ '.')) with
      | .error e => .failed e
      | .ok count =>
        if count > limit then .failed (.message "Guacamole element exceeds limit")
        else
          match body.drop count with
          | [] => .incomplete
          | separator :: rest => .item (body.take count, separator) rest

/-- The loop of `InstructionParser.pop`. `room` is how many more elements the instruction may
have. -/
def popFrom (limit : ℕ) (room : ℕ) (text : Text) (elements : Instruction) :
    Popped Char Instruction ValueError :=
  match readElement limit text with
  | .incomplete => .incomplete
  | .failed e => .failed e
  | .item (value, separator) rest =>
    match room with
    | 0 => .failed (.message "Too many Guacamole elements")
    | room + 1 =>
      if separator = ';' then .item (elements ++ [value]) rest
      else if separator ≠ ',' then .failed (.message "Invalid Guacamole separator")
      else popFrom limit room rest (elements ++ [value])

/-- `InstructionParser.pop` -/
def pop (limit : ℕ) (buffer : Text) : Popped Char Instruction ValueError :=
  popFrom limit maxElements buffer []

/-- The check of `InstructionParser.feed` on the buffer with the new data. -/
def refuses (limit : ℕ) (buffer : Text) : Option ValueError :=
  if buffer.length > limit then some (.message "Guacamole instruction exceeds limit") else none

/-- An element that is read stands at the front of the text and is not too long. -/
theorem readElement_item {limit : ℕ} {text value rest : Text} {separator : Char}
    (h : readElement limit text = .item (value, separator) rest) :
    value.length ≤ limit ∧ ∃ digits, text = digits ++ '.' :: (value ++ separator :: rest) := by
  unfold readElement at h
  split at h
  · split at h <;> cases h
  · next dot body hbody =>
    have hdot : dot = '.' := by
      have hhead := List.head?_dropWhile_not (· ≠ '.') text
      rw [hbody] at hhead
      simpa using hhead
    split at h
    · cases h
    · split at h
      · cases h
      · next count _ =>
        split at h
        · cases h
        · split at h
          · cases h
          · next separator' rest' hdrop =>
            cases h
            have hshort : (body.take count).length ≤ limit := by
              rw [List.length_take]
              omega
            refine ⟨hshort, text.takeWhile (· ≠ '.'), ?_⟩
            rw [← hdrop, List.take_append_drop]
            subst hdot
            rw [← hbody, List.takeWhile_append_dropWhile]

/-- Taking an instruction off leaves less text. -/
theorem popFrom_shorter {limit room : ℕ} {text rest : Text} {elements x : Instruction}
    (h : popFrom limit room text elements = .item x rest) : rest.length < text.length := by
  induction room generalizing text elements with
  | zero =>
    rw [popFrom] at h
    cases hread : readElement limit text <;> simp [hread] at h
  | succ room ih =>
    rw [popFrom] at h
    cases hread : readElement limit text with
    | incomplete => simp [hread] at h
    | failed e => simp [hread] at h
    | item element rest' =>
      obtain ⟨value, separator⟩ := element
      obtain ⟨-, digits, rfl⟩ := readElement_item hread
      simp only [hread] at h
      simp only [List.length_append, List.length_cons]
      split at h
      · cases h
        omega
      · split at h
        · cases h
        · have hmore := ih h
          omega

/-- `InstructionParser` -/
def parser (limit : ℕ) : Decoder Char Instruction ValueError where
  pop := pop limit
  starved := rfl
  shorter := fun _ _ _ h => popFrom_shorter h

/-! ## What the browser may send -/

def unsupported {α : Type} : Except ValueError α :=
  .error (.message "Unsupported browser instruction")

/-- `low <= int(value) <= high` -/
def inRange (low high : ℕ) (value : Text) : Except ValueError Bool :=
  (int value).map fun n => low ≤ n && n ≤ high

/-! The conditions of `validate_browser_instruction` on the arguments, opcode by opcode. -/

def validateSync : Instruction → Except ValueError Bool
  | [timestamp] => if isdigit timestamp then .ok true else unsupported
  | _ => unsupported

def validateAck : Instruction → Except ValueError Bool
  | [stream, message, status] =>
    if isdigit stream && isdigit status && message.length ≤ 256 then .ok true else unsupported
  | _ => unsupported

def validateKey : Instruction → Except ValueError Bool
  | [keysym, pressed] =>
    if isdigit keysym then do
      if (← inRange 0 0xFFFFFFFF keysym) && (pressed = ['0'] || pressed = ['1']) then pure true
      else unsupported
    else unsupported
  | _ => unsupported

def validateMouse : Instruction → Except ValueError Bool
  | x :: y :: mask :: more =>
    if more.length ≤ 1 && (x :: y :: mask :: more).all isdigit then do
      if ← inRange 0 8192 x <&&> inRange 0 8192 y <&&> inRange 0 31 mask then pure true
      else unsupported
    else unsupported
  | _ => unsupported

def validateSize : Instruction → Except ValueError Bool
  | [width, height] =>
    if isdigit width && isdigit height then do
      if ← inRange 200 4096 width <&&> inRange 200 4096 height then pure true
      else unsupported
    else unsupported
  | _ => unsupported

/-- `validate_browser_instruction`: an instruction is passed on (`True`), ends the connection
(`False`) or is refused. -/
def validateBrowserInstruction : Instruction → Except ValueError Bool
  | [] => .error (.message "not enough values to unpack (expected at least 1, got 0)")
  | opcode :: args =>
    if opcode = "disconnect".toList ∧ args = [] then .ok false
    else if opcode = "nop".toList ∧ args = [] then .ok true
    else if opcode = "sync".toList then validateSync args
    else if opcode = "ack".toList then validateAck args
    else if opcode = "key".toList then validateKey args
    else if opcode = "mouse".toList then validateMouse args
    else if opcode = "size".toList then validateSize args
    else unsupported

/-- The tunnel's own ping, `["", "ping", <digits>]`, which is answered and never passed on. -/
def isPing : Instruction → Bool
  | [opcode, argument, timestamp] =>
    opcode = [] && argument = "ping".toList && isdigit timestamp
  | _ => false

/-- What `from_browser` sends: an echo to the browser's WebSocket, or bytes to guacd. -/
inductive TunnelOutput where
  | sendText (text : Text)
  | write (data : ByteArray)

/-- How `from_browser` ends by itself. -/
inductive BrowserEnd where
  | returned
  | raised (e : ValueError)

/-- `str.encode()` -/
def utf8 (text : Text) : ByteArray := (String.ofList text).toUTF8

/-- What `from_browser` does with one instruction. -/
def handleBrowserInstruction (instruction : Instruction) : Reaction TunnelOutput BrowserEnd :=
  if isPing instruction then .emit [.sendText (encodeInstruction instruction)]
  else
    match validateBrowserInstruction instruction with
    | .error e => .stop (.raised e)
    | .ok false => .stop .returned
    | .ok true => .emit [.write (utf8 (encodeInstruction instruction))]

/-- The `limit` of the parser of `from_browser`. -/
def browserLimit : ℕ := 65536

/-- `from_browser` on the text messages it receives: what it sends, and how it ends (`waiting`
stands for the next `receive_text`). -/
def fromBrowser (messages : List Text) : List TunnelOutput × Exit Char ValueError BrowserEnd :=
  (parser browserLimit).feedAll (refuses browserLimit) handleBrowserInstruction [] messages

end LabGoblin.Guacamole
