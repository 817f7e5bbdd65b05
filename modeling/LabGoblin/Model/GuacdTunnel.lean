import LabGoblin.Computation.Utf8
import LabGoblin.Model.Guacamole

/-!
# The tunnel to guacd

`InstructionReader` reads the instructions of guacd off a connection, and `handshake` asks for a
console with them. The connection gives bytes, which are decoded as they arrive; an instruction
is parsed only when the parser has none left.
-/

set_option autoImplicit false

namespace LabGoblin.Guacamole

open Interactive Text

/-- What one `reader.read(16384)` gives before the connection is closed. -/
structure SocketRead where
  data : List UInt8
  nonempty : data ≠ []
  short : data.length ≤ 16384

/-- What ends the use of a tunnel. -/
inductive TunnelError where
  | value (e : ValueError)
  /-- `EOFError("Guacamole tunnel closed")` -/
  | closed
  /-- `UnicodeDecodeError` -/
  | undecodable (e : Utf8.Invalid)
  deriving DecidableEq

/-- `InstructionReader`: the parser's buffer, the bytes that the decoder holds of a character, and
the reads that are still to come, after which the connection is closed. -/
structure InstructionReader where
  buffer : Text := []
  undecoded : List UInt8 := []
  arriving : List SocketRead

/-- The `limit` of the parser of `InstructionReader`. -/
def readerLimit : ℕ := 1048576

/-- The loop of `InstructionReader.read`. -/
def readFrom (buffer : Text) (undecoded : List UInt8) (arriving : List SocketRead) :
    EStateM.Result TunnelError InstructionReader Instruction :=
  match pop readerLimit buffer with
  | .item instruction rest => .ok instruction ⟨rest, undecoded, arriving⟩
  | .failed e => .error (.value e) ⟨buffer, undecoded, arriving⟩
  | .incomplete =>
    match arriving with
    | [] => .error .closed ⟨buffer, undecoded, []⟩
    | read :: arriving =>
      match Utf8.decode (undecoded ++ read.data) with
      | .error e => .error (.undecodable e) ⟨buffer, undecoded, arriving⟩
      | .ok (text, undecoded) =>
        match refuses readerLimit (buffer ++ text) with
        | some e => .error (.value e) ⟨buffer ++ text, undecoded, arriving⟩
        | none => readFrom (buffer ++ text) undecoded arriving

/-- `InstructionReader.read` -/
def InstructionReader.read : EStateM TunnelError InstructionReader Instruction := fun r =>
  readFrom r.buffer r.undecoded r.arriving

/-- A number of reads, one after the other. -/
def InstructionReader.readMany :
    ℕ → InstructionReader → Except TunnelError (List Instruction)
  | 0, _ => .ok []
  | n + 1, r =>
    match InstructionReader.read r with
    | .error e _ => .error e
    | .ok instruction r' => (readMany n r').map (instruction :: ·)

/-! ## The handshake -/

/-- The state of a handshake: the reader, and what has been written to guacd. -/
structure Tunnel where
  reader : InstructionReader
  written : List ByteArray := []

abbrev Handshake := EStateM TunnelError Tunnel

/-- `await reader.read()` -/
def readInstruction : Handshake Instruction := fun t =>
  match InstructionReader.read t.reader with
  | .ok instruction reader => .ok instruction { t with reader := reader }
  | .error e reader => .error e { t with reader := reader }

/-- `writer.write(encode_instruction(*values).encode())` -/
def send (values : Instruction) : Handshake Unit :=
  modify fun t => { t with written := t.written ++ [utf8 (encodeInstruction values)] }

def raiseIf (p : Prop) [Decidable p] (text : String) : Handshake Unit :=
  if p then throw (.value (.message text)) else pure ()

/-- The parameters of a connection, by name. -/
abbrev Parameters := List (Text × Text)

/-- The names that guacd has to ask for. -/
def requiredNames (protocol : Text) : List Text :=
  ["hostname".toList, "port".toList] ++
    (if protocol = "rdp".toList then
      ["security".toList, "ignore-cert".toList, "cert-fingerprints".toList, "username".toList,
        "password".toList]
    else []) ++
    if protocol = "ssh".toList then
      ["host-key".toList, "username".toList, "password".toList]
    else []

/-- What is sent for a name: the protocol version for every `VERSION_` name, or the parameter. -/
def connectValue (parameters : Parameters) (arg : Text) : Text :=
  if "VERSION_".toList.isPrefixOf arg then "VERSION_1_5_0".toList
  else (parameters.lookup arg).getD []

/-- `handshake` -/
def handshake (protocol : Text) (parameters : Parameters) (width height : ℕ) :
    Handshake Unit := do
  send ["select".toList, protocol]
  let instruction ← readInstruction
  raiseIf (instruction.head? ≠ some "args".toList) "Gateway rejected protocol"
  let arguments := instruction.tail
  raiseIf (¬ (∀ name ∈ requiredNames protocol, name ∈ arguments))
    "Gateway lacks required security parameters"
  send ["size".toList, Nat.toDigits 10 width, Nat.toDigits 10 height, "96".toList]
  send ["audio".toList]
  send ["video".toList]
  send ["image".toList, "image/png".toList, "image/jpeg".toList]
  send ("connect".toList :: arguments.map (connectValue parameters))
  let instruction ← readInstruction
  raiseIf (instruction.head? ≠ some "ready".toList) "Gateway connection failed"

/-! ## The parameters of a profile -/

inductive RemoteProtocol where
  | rdp
  | ssh
  deriving DecidableEq

/-- A remote profile and the credentials it connects with, with the lengths that their schemas
allow. -/
structure RemoteProfile where
  protocol : RemoteProtocol
  address : Text
  port : ℕ
  serverIdentity : Text
  username : Text
  password : Text
  domain : Text
  address_le : address.length ≤ 64
  port_le : port ≤ 65535
  serverIdentity_le : serverIdentity.length ≤ 8192
  username_le : username.length ≤ 128
  password_le : password.length ≤ 4096
  domain_le : domain.length ≤ 128

/-- The parameters that `profile_parameters` returns. -/
def profileParameters (profile : RemoteProfile) : Parameters :=
  [("hostname".toList, profile.address),
    ("port".toList, Nat.toDigits 10 profile.port),
    ("username".toList, profile.username),
    ("password".toList, profile.password),
    ("disable-copy".toList, "true".toList),
    ("disable-paste".toList, "true".toList),
    ("enable-sftp".toList, "false".toList)] ++
    match profile.protocol with
    | .rdp =>
      [("domain".toList, profile.domain),
        ("security".toList, "nla".toList),
        ("ignore-cert".toList, "false".toList),
        ("cert-tofu".toList, "false".toList),
        ("cert-fingerprints".toList, profile.serverIdentity),
        ("enable-drive".toList, "false".toList),
        ("enable-printing".toList, "false".toList),
        ("disable-audio".toList, "true".toList),
        ("resize-method".toList, "display-update".toList)]
    | .ssh =>
      [("host-key".toList, profile.serverIdentity),
        ("server-alive-interval".toList, "15".toList),
        ("font-name".toList, "monospace".toList),
        ("font-size".toList, "12".toList),
        ("color-scheme".toList, "green-black".toList)]

end LabGoblin.Guacamole
