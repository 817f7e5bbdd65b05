import LabGoblin.Model.RfbAuth

/-!
# The console bridge for guacd

`vnc_bridge` of `services/guacamole_console.py`. When the console is authenticated, it accepts
connections of guacd, each of which a task of its own serves: `accept`. The tasks share the stream
of the console and `used`, and take turns at their awaits, so a run is any list of turns.
-/

set_option autoImplicit false

namespace LabGoblin.Rfb

/-- The `await` at which `accept` waits. -/
inductive Stage where
  /-- `reader.readexactly(12)` -/
  | version
  /-- `reader.readexactly(1)`, for the security type -/
  | security
  /-- `reader.readexactly(16)` -/
  | response
  /-- `reader.readexactly(1)`, for the `ClientInit` -/
  | clientInit
  /-- `upstream.send` -/
  | leftover
  | pumping
  | closed
  deriving DecidableEq, Repr

/-- A connection of guacd and its task: what guacd has sent so far and how much of it `reader` has
given out, what `writer` has been given, and the local variables. -/
structure Connection where
  stage : Stage
  heard : Bytes := []
  taken : ℕ := 0
  written : Bytes := []
  challenge : Bytes := []
  authenticated : Bool := false
  deriving DecidableEq

namespace Connection

/-- The bytes that `reader` still holds. -/
def unread (c : Connection) : Bytes := c.heard.drop c.taken

/-- `reader.readexactly(count)`, which waits while there are not enough bytes. -/
def readExactly (c : Connection) (count : ℕ) : Option (Bytes × Connection) :=
  if count ≤ c.unread.length then
    some (c.unread.take count, { c with taken := c.taken + count })
  else none

/-- `writer.write(data)`, after which the task goes on to its next `await`. -/
def write (c : Connection) (data : Bytes) (next : Stage) : Connection :=
  { c with written := c.written ++ data, stage := next }

/-- The `finally` of `accept`. -/
def close (c : Connection) : Connection := { c with stage := .closed }

end Connection

/-- What the tasks share: the stream of the console, what has been sent to the console since it was
authenticated, and `used`. -/
structure Bridge where
  upstream : ByteStream
  toUpstream : Bytes := []
  used : Bool := false
  connections : List Connection := []

/-- The bytes of the console that are still to be received. -/
def Bridge.unread (b : Bridge) : Bytes := b.upstream.pending.flatMap Frame.data

/-- `upstream.send(data)` -/
def Bridge.send (b : Bridge) (data : Bytes) : Bridge :=
  { b with toUpstream := b.toUpstream ++ data }

/-- `accept` from one `await` to the next, up to the pump. `challenge` is what `token_bytes(16)`
gives. -/
def accept (des : TripleDes) (password : Text) (challenge : Bytes) (b : Bridge) (c : Connection) :
    Bridge × Connection :=
  match c.stage with
  | .version =>
    match c.readExactly 12 with
    | none => (b, c)
    | some (version, c) =>
      if version ≠ rfbVersion then (b, c.close) else (b, c.write [1, 2] .security)
  | .security =>
    match c.readExactly 1 with
    | none => (b, c)
    | some (security, c) =>
      if security ≠ [2] then (b, c.close)
      else (b, { c with challenge := challenge }.write challenge .response)
  | .response =>
    match c.readExactly 16 with
    | none => (b, c)
    | some (response, c) =>
      match vncResponse des password c.challenge with
      | .error _ => (b, c.close)
      | .ok expected =>
        if response ≠ expected ∨ b.used then (b, c.close)
        else
          ({ b with used := true },
            { c with authenticated := true }.write [0, 0, 0, 0] .clientInit)
  | .clientInit =>
    match c.readExactly 1 with
    | none => (b, c)
    | some (clientInit, c) => (b.send clientInit, { c with stage := .leftover })
  | .leftover => (b, c.write b.upstream.buffer .pumping)
  | .pumping => (b, c)
  | .closed => (b, c)

/-- One turn of the loop of `pve_to_tcp`, which waits while no frame has come. -/
def pveToTcp (b : Bridge) (c : Connection) : Bridge × Connection :=
  if c.stage = .pumping then
    match b.upstream.pending with
    | [] => (b, c)
    | frame :: pending =>
      let b := { b with upstream := { b.upstream with pending := pending } }
      if frame = .text then (b, c.close) else (b, c.write frame.data .pumping)
  else (b, c)

/-- One turn of the loop of `tcp_to_pve`, which waits while `reader` holds nothing. -/
def tcpToPve (b : Bridge) (c : Connection) : Bridge × Connection :=
  if c.stage = .pumping then
    let data := c.unread.take 65536
    (b.send data, { c with taken := c.taken + data.length })
  else (b, c)

/-- `reader.feed_data(data)` -/
def receive (data : Bytes) (b : Bridge) (c : Connection) : Bridge × Connection :=
  (b, { c with heard := c.heard ++ data })

/-- The end of `accept`. -/
def finish (b : Bridge) (c : Connection) : Bridge × Connection := (b, c.close)

/-- What can happen at a bridge. -/
inductive Action where
  /-- guacd connects -/
  | connect
  /-- bytes of guacd come in -/
  | receive (i : ℕ) (data : Bytes)
  /-- the task of a connection goes on from its `await` -/
  | resume (i : ℕ) (challenge : Bytes)
  | pveToTcp (i : ℕ)
  | tcpToPve (i : ℕ)
  /-- a task ends: guacd has closed the connection, an `await` raises, runs into the timeout or is
  cancelled -/
  | finish (i : ℕ)

namespace Bridge

/-- The task of a connection takes a turn. -/
def turn (b : Bridge) (i : ℕ) (f : Bridge → Connection → Bridge × Connection) : Bridge :=
  match b.connections[i]? with
  | none => b
  | some c => { (f b c).1 with connections := b.connections.set i (f b c).2 }

/-- `accept` up to its first `await`. -/
def connect (b : Bridge) : Bridge :=
  { b with
    connections := b.connections ++
      [if b.used then { stage := .closed } else { stage := .version, written := rfbVersion }] }

def after (des : TripleDes) (password : Text) (b : Bridge) : Action → Bridge
  | .connect => b.connect
  | .receive i data => b.turn i (Rfb.receive data)
  | .resume i challenge => b.turn i (accept des password challenge)
  | .pveToTcp i => b.turn i pveToTcp
  | .tcpToPve i => b.turn i tcpToPve
  | .finish i => b.turn i Rfb.finish

/-- A bridge after what has happened at it. -/
def run (des : TripleDes) (password : Text) (b : Bridge) (actions : List Action) : Bridge :=
  actions.foldl (after des password) b

end Bridge

/-- `vnc_bridge`: the authentication of the console, and what then happens at the bridge. -/
def vncBridge (des : TripleDes) (data : TicketData) (password : Text) (actions : List Action) :
    Handshake Bridge := do
  authenticateUpstream des data
  let w ← get
  return Bridge.run des password { upstream := w.upstream } actions

end LabGoblin.Rfb
