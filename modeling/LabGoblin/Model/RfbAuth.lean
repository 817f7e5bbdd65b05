import LabGoblin.Model.Text

/-!
# Authentication of a console connection

The server ends the RFB authentication of the Proxmox console itself: `authenticate_upstream`
answers the console with the ticket, and `authenticate_browser` then offers the browser a
connection without authentication. Both sides send frames of any size, which a `ByteStream`
joins; the trace records every frame that is received and every message that is sent.

The DES of a VNC challenge comes from a library and is a parameter.
-/

set_option autoImplicit false

namespace LabGoblin.Rfb

abbrev Bytes := List UInt8

/-- What `recv` gives: a binary frame or a text frame. -/
inductive Frame where
  | binary (data : Bytes)
  | text
  deriving DecidableEq

/-- The bytes of a frame. -/
def Frame.data : Frame → Bytes
  | .binary data => data
  | .text => []

/-- The two connections of the gateway: the Proxmox console and the browser. -/
inductive Side where
  | upstream
  | browser
  deriving DecidableEq

inductive Event where
  | received (side : Side) (frame : Frame)
  | sent (side : Side) (data : Bytes)
  deriving DecidableEq

/-- What ends a handshake. -/
inductive Failure where
  | value (e : ValueError)
  /-- `recv` finds the connection closed. -/
  | disconnected
  /-- `UnicodeEncodeError` -/
  | notLatin1
  /-- `struct.error` -/
  | tooLongToPack
  deriving DecidableEq

/-- `ByteStream`: the bytes it holds, and the frames that are still to be received. -/
structure ByteStream where
  buffer : Bytes := []
  pending : List Frame

/-- The state of a handshake: the two streams and what has happened so far. -/
structure Wire where
  upstream : ByteStream
  browser : ByteStream
  trace : List Event := []

abbrev Handshake := EStateM Failure Wire

namespace Wire

def stream (w : Wire) : Side → ByteStream
  | .upstream => w.upstream
  | .browser => w.browser

def setStream (w : Wire) (s : ByteStream) : Side → Wire
  | .upstream => { w with upstream := s }
  | .browser => { w with browser := s }

end Wire

/-- What receiving until a buffer is long enough comes to. -/
structure Filled where
  heard : List Frame
  stream : ByteStream
  failure : Option Failure

def bufferLimit : ℕ := 1048576

/-- The loop of `ByteStream.read`. -/
def fill (count : ℕ) (buffer : Bytes) : List Frame → Filled
  | [] =>
    if count ≤ buffer.length then ⟨[], ⟨buffer, []⟩, none⟩
    else ⟨[], ⟨buffer, []⟩, some .disconnected⟩
  | frame :: pending =>
    if count ≤ buffer.length then ⟨[], ⟨buffer, frame :: pending⟩, none⟩
    else
      match frame with
      | .text => ⟨[frame], ⟨buffer, pending⟩, some (.value (.message "Invalid console handshake"))⟩
      | .binary data =>
        if data = [] then
          ⟨[frame], ⟨buffer, pending⟩, some (.value (.message "Invalid console handshake"))⟩
        else if (buffer ++ data).length > bufferLimit then
          ⟨[frame], ⟨buffer ++ data, pending⟩,
            some (.value (.message "Console handshake too large"))⟩
        else
          let rest := fill count (buffer ++ data) pending
          { rest with heard := frame :: rest.heard }

/-- `ByteStream.read` -/
def read (side : Side) (count : ℕ) : Handshake Bytes := fun w =>
  let filled := fill count (w.stream side).buffer (w.stream side).pending
  let trace := w.trace ++ filled.heard.map (Event.received side)
  match filled.failure with
  | some e => .error e ({ w with trace := trace }.setStream filled.stream side)
  | none =>
    .ok (filled.stream.buffer.take count)
      ({ w with trace := trace }.setStream
        { filled.stream with buffer := filled.stream.buffer.drop count } side)

/-- `upstream.send` and `websocket.send_bytes` -/
def send (side : Side) (data : Bytes) : Handshake Unit := fun w =>
  .ok () { w with trace := w.trace ++ [.sent side data] }

def raiseIf (p : Prop) [Decidable p] (text : String) : Handshake Unit :=
  if p then throw (.value (.message text)) else pure ()

def liftExcept {α : Type} : Except Failure α → Handshake α
  | .ok a => pure a
  | .error e => throw e

/-! ## Bytes -/

/-- `str.encode()` -/
def utf8 (text : Text) : Bytes := (String.ofList text).toUTF8.data.toList

/-- `str.encode("latin-1")` -/
def latin1 (text : Text) : Except Failure Bytes :=
  if text.all fun c => c.toNat < 256 then .ok (text.map fun c => UInt8.ofNat c.toNat)
  else .error .notLatin1

/-- `struct.pack("!I", n)` -/
def packWord (n : ℕ) : Except Failure Bytes :=
  if n < 0x100000000 then
    .ok [UInt8.ofNat (n / 0x1000000), UInt8.ofNat (n / 0x10000), UInt8.ofNat (n / 0x100),
      UInt8.ofNat n]
  else .error .tooLongToPack

/-- `struct.unpack("!…I", data)` -/
def words : Bytes → List ℕ
  | a :: b :: c :: d :: rest =>
    (a.toNat * 0x1000000 + b.toNat * 0x10000 + c.toNat * 0x100 + d.toNat) :: words rest
  | _ => []

/-- `int(f"{byte:08b}"[::-1], 2)` -/
def reverseBits (byte : UInt8) : UInt8 :=
  (List.range 8).foldl (fun reversed i => reversed * 2 + (byte >>> UInt8.ofNat i) % 2) 0

/-- `cipher.update(challenge) + cipher.finalize()` with `TripleDES(key)` in ECB mode. -/
abbrev TripleDes := (key challenge : Bytes) → Bytes

/-- `vnc_response` -/
def vncResponse (des : TripleDes) (ticket : Text) (challenge : Bytes) : Except Failure Bytes := do
  let encoded := (← latin1 ticket).take 8
  let key := (encoded ++ List.replicate (8 - encoded.length) 0).map reverseBits
  return des (key ++ key ++ key) challenge

/-! ## The handshakes -/

/-- `ticket_data` -/
structure TicketData where
  ticket : Text
  user : Option Text

/-- Whether `ticket_data.get("user")` is true. -/
def TicketData.hasUser (data : TicketData) : Bool :=
  data.user.any fun user => !user.isEmpty

/-- `b"RFB 003.008\n"` -/
def rfbVersion : Bytes := [0x52, 0x46, 0x42, 0x20, 0x30, 0x30, 0x33, 0x2e, 0x30, 0x30, 0x38, 0x0a]

/-- What is sent to a console that offers Plain authentication. -/
def credentials (data : TicketData) : Except Failure Bytes := do
  let username := utf8 (data.user.getD [])
  let password := utf8 data.ticket
  return (← packWord username.length) ++ (← packWord password.length) ++ username ++ password

/-- `(await stream.read(1))[0]` -/
def readByte (side : Side) : Handshake UInt8 := do
  return (← read side 1).headD 0

/-- The VeNCrypt branch of `authenticate_upstream`, up to the security result. -/
def authenticatePlain (data : TicketData) : Handshake Unit := do
  send .upstream [0x13]
  let version ← read .upstream 2
  raiseIf (version ≠ [0, 2]) "Unsupported VeNCrypt version"
  send .upstream [0, 2]
  let answer ← read .upstream 1
  raiseIf (answer ≠ [0]) "Console authentication rejected"
  let count ← readByte .upstream
  let subtypes ← read .upstream (count.toNat * 4)
  raiseIf (256 ∉ words subtypes ∨ data.hasUser = false) "Unsupported console authentication"
  send .upstream [0, 0, 1, 0]
  send .upstream (← liftExcept (credentials data))

/-- The VNCAuth branch of `authenticate_upstream`, up to the security result. -/
def authenticateVnc (des : TripleDes) (data : TicketData) : Handshake Unit := do
  send .upstream [2]
  let challenge ← read .upstream 16
  send .upstream (← liftExcept (vncResponse des data.ticket challenge))

/-- `authenticate_upstream` -/
def authenticateUpstream (des : TripleDes) (data : TicketData) : Handshake Unit := do
  let version ← read .upstream 12
  raiseIf (version ≠ rfbVersion) "Unsupported console protocol version"
  send .upstream version
  let count ← readByte .upstream
  let security ← read .upstream count.toNat
  if 19 ∈ security then authenticatePlain data
  else if 2 ∈ security then authenticateVnc des data
  else throw (.value (.message "Unsupported console authentication"))
  let result ← read .upstream 4
  raiseIf (result ≠ [0, 0, 0, 0]) "Console authentication rejected"

/-- Send what is left in a buffer, if anything. -/
def sendRest (side : Side) (buffer : Bytes) : Handshake Unit :=
  if buffer = [] then pure () else send side buffer

/-- `authenticate_browser` -/
def authenticateBrowser (des : TripleDes) (data : TicketData) : Handshake Unit := do
  authenticateUpstream des data
  send .browser rfbVersion
  let version ← read .browser 12
  raiseIf (version ≠ rfbVersion) "Unsupported browser console version"
  send .browser [1, 1]
  let security ← read .browser 1
  raiseIf (security ≠ [1]) "Invalid browser console authentication"
  send .browser [0, 0, 0, 0]
  send .upstream (← read .browser 1)
  let header ← read .upstream 24
  let nameLength := (words (header.drop 20)).headD 0
  raiseIf (nameLength > 65536) "Invalid desktop name"
  let name ← read .upstream nameLength
  send .browser (header ++ name)
  let w ← get
  sendRest .browser w.upstream.buffer
  sendRest .upstream w.browser.buffer

/-- A handshake that starts with these frames to be received. -/
def start (upstream browser : List Frame) : Wire where
  upstream := { pending := upstream }
  browser := { pending := browser }

end LabGoblin.Rfb
