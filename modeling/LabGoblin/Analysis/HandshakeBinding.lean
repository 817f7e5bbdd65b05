import LabGoblin.Analysis.BrowserFilter
import LabGoblin.Model.GuacdTunnel
import Mathlib.Data.List.Forall2

/-!
# The parameters of a console are bound by name

guacd asks for its parameters by name, and is sent their values in the same order. Nothing of
them is written before it has asked for all that the protocol needs.
-/

set_option autoImplicit false

namespace LabGoblin.Guacamole

open Interactive Text

/-! ## What a handshake writes -/

/-- What has been written to guacd when a handshake is over, well or not. -/
def writtenBy {α : Type} : EStateM.Result TunnelError Tunnel α → List ByteArray
  | .ok _ t => t.written
  | .error _ t => t.written

/-- The bytes of a message to guacd. -/
def message (values : Instruction) : ByteArray := utf8 (encodeInstruction values)

section Steps

variable {α : Type} (t : Tunnel)

/-- A leading message is written before the rest. -/
theorem writtenBy_send (values : Instruction) (f : Unit → Handshake α) :
    writtenBy ((send values >>= f) t) =
      writtenBy (f () { t with written := t.written ++ [message values] }) := rfl

/-- A leading read writes nothing. -/
theorem writtenBy_read (f : Instruction → Handshake α) :
    writtenBy ((readInstruction >>= f) t) =
      match InstructionReader.read t.reader with
      | .ok instruction reader => writtenBy (f instruction { t with reader := reader })
      | .error _ _ => t.written := by
  show writtenBy (EStateM.bind readInstruction f t) = _
  unfold EStateM.bind readInstruction
  cases InstructionReader.read t.reader <;> rfl

/-- A leading check writes nothing, and what was written stays if it fails. -/
theorem writtenBy_raiseIf (p : Prop) [Decidable p] (text : String) (f : Unit → Handshake α) :
    writtenBy ((raiseIf p text >>= f) t) = if p then t.written else writtenBy (f () t) := by
  unfold raiseIf
  by_cases hp : p
  · rw [if_pos hp, if_pos hp]
    rfl
  · rw [if_neg hp, if_neg hp]
    rfl

/-- A check at the end writes nothing. -/
theorem writtenBy_raiseIf_last (p : Prop) [Decidable p] (text : String) :
    writtenBy (raiseIf p text t) = t.written := by
  unfold raiseIf
  split <;> rfl

end Steps

/-- The messages before the parameters. -/
def preamble (protocol : Text) (width height : ℕ) : List ByteArray :=
  [message ["select".toList, protocol],
    message ["size".toList, Nat.toDigits 10 width, Nat.toDigits 10 height, "96".toList],
    message ["audio".toList],
    message ["video".toList],
    message ["image".toList, "image/png".toList, "image/jpeg".toList]]

/-- The parameters are written when guacd has asked for all that are needed, and not before. -/
theorem writtenBy_handshake (protocol : Text) (parameters : Parameters) (width height : ℕ)
    (reader : InstructionReader) :
    writtenBy (handshake protocol parameters width height { reader := reader }) =
      match InstructionReader.read reader with
      | .error _ _ => [message ["select".toList, protocol]]
      | .ok instruction _ =>
        if instruction.head? ≠ some "args".toList then [message ["select".toList, protocol]]
        else if ¬ (∀ name ∈ requiredNames protocol, name ∈ instruction.tail) then
          [message ["select".toList, protocol]]
        else preamble protocol width height ++
          [message ("connect".toList :: instruction.tail.map (connectValue parameters))] := by
  unfold handshake
  rw [writtenBy_send, writtenBy_read]
  cases InstructionReader.read reader with
  | error e reader' => rfl
  | ok instruction reader' =>
    dsimp only
    rw [writtenBy_raiseIf]
    congr 1
    rw [writtenBy_raiseIf]
    congr 1
    rw [writtenBy_send, writtenBy_send, writtenBy_send, writtenBy_send, writtenBy_send,
      writtenBy_read]
    cases InstructionReader.read reader' with
    | error e reader'' => rfl
    | ok answer reader'' =>
      dsimp only
      rw [writtenBy_raiseIf_last]
      rfl

/-! ## What guacd has asked for -/

/-- An instruction that is read fits the limit of the reader. -/
theorem fits_of_readFrom {buffer : Text} {undecoded : List UInt8} {arriving : List SocketRead}
    {x : Instruction} {reader : InstructionReader}
    (h : readFrom buffer undecoded arriving = .ok x reader) : Fits readerLimit maxElements x := by
  induction arriving generalizing buffer undecoded with
  | nil =>
    unfold readFrom at h
    cases hpop : pop readerLimit buffer with
    | incomplete => simp [hpop] at h
    | failed e => simp [hpop] at h
    | item y rest =>
      simp only [hpop] at h
      cases h
      exact fits_of_pop hpop
  | cons read arriving ih =>
    unfold readFrom at h
    cases hpop : pop readerLimit buffer with
    | failed e => simp [hpop] at h
    | item y rest =>
      simp only [hpop] at h
      cases h
      exact fits_of_pop hpop
    | incomplete =>
      simp only [hpop] at h
      cases hdecode : Utf8.decode (undecoded ++ read.data) with
      | error e => simp [hdecode] at h
      | ok decoded =>
        obtain ⟨text, undecoded'⟩ := decoded
        simp only [hdecode] at h
        cases hrefuses : refuses readerLimit (buffer ++ text) with
        | some e => simp [hrefuses] at h
        | none =>
          simp only [hrefuses] at h
          exact ih h

/-- The value that is sent for a name. -/
structure BindsName (parameters : Parameters) (name value : Text) : Prop where
  version : "VERSION_".toList <+: name → value = "VERSION_1_5_0".toList
  parameter : ∀ v, ¬ "VERSION_".toList <+: name → parameters.lookup name = some v → value = v
  missing : ¬ "VERSION_".toList <+: name → parameters.lookup name = none → value = []

/-- The value that is sent for a name is the one that the parameters bind to it. -/
theorem bindsName_connectValue (parameters : Parameters) (name : Text) :
    BindsName parameters name (connectValue parameters name) := by
  have hversion : "VERSION_".toList.isPrefixOf name = true ↔ "VERSION_".toList <+: name :=
    List.isPrefixOf_iff_prefix
  constructor
  · intro h
    rw [connectValue, if_pos (hversion.mpr h)]
  · intro v h hlookup
    rw [connectValue, if_neg (fun hp => h (hversion.mp hp)), hlookup]
    rfl
  · intro h hlookup
    rw [connectValue, if_neg (fun hp => h (hversion.mp hp)), hlookup]
    rfl

/-- Every parameter of a profile is short. -/
theorem length_profileParameters {profile : RemoteProfile} {entry : Text × Text}
    (h : entry ∈ profileParameters profile) : entry.2.length ≤ 8192 := by
  have haddress := profile.address_le
  have hidentity := profile.serverIdentity_le
  have husername := profile.username_le
  have hpassword := profile.password_le
  have hdomain := profile.domain_le
  have hport : (Nat.toDigits 10 profile.port).length ≤ 5 := by
    rw [Nat.length_toDigits_le_iff (by omega) (by omega)]
    have hle := profile.port_le
    omega
  unfold profileParameters at h
  cases hprotocol : profile.protocol with
  | rdp =>
    simp only [hprotocol, List.mem_append, List.mem_cons, List.not_mem_nil, or_false] at h
    rcases h with (rfl | rfl | rfl | rfl | rfl | rfl | rfl) |
        (rfl | rfl | rfl | rfl | rfl | rfl | rfl | rfl | rfl) <;> simp <;> omega
  | ssh =>
    simp only [hprotocol, List.mem_append, List.mem_cons, List.not_mem_nil, or_false] at h
    rcases h with (rfl | rfl | rfl | rfl | rfl | rfl | rfl) | (rfl | rfl | rfl | rfl | rfl) <;>
      simp <;> omega

/-- The value that is sent is no longer than the values of the parameters, or than the version. -/
theorem length_connectValue {parameters : Parameters} {limit : ℕ} (hlimit : 13 ≤ limit)
    (h : ∀ entry ∈ parameters, entry.2.length ≤ limit) (name : Text) :
    (connectValue parameters name).length ≤ limit := by
  unfold connectValue
  split
  · exact hlimit
  · cases hlookup : parameters.lookup name with
    | none => exact Nat.zero_le limit
    | some value =>
      obtain ⟨before, after, hsplit, -⟩ := List.lookup_eq_some_iff.1 hlookup
      exact h (name, value) (by simp [hsplit])

/-- For every protocol, parameters and stream of instructions from guacd: either nothing but the
protocol is written, or guacd has asked for all that the protocol needs, and is sent for every
name, in the order and as often as it has asked, the version or the parameter of that name. The
message is parsed back by every parser whose limit allows the values, and that of a profile by
the parser of the gateway. -/
theorem handshake_binds (protocol : Text) (parameters : Parameters) (width height : ℕ)
    (reader : InstructionReader) :
    writtenBy (handshake protocol parameters width height { reader := reader }) =
        [message ["select".toList, protocol]] ∨
      ∃ (arguments values : List Text) (reader' : InstructionReader),
        InstructionReader.read reader = .ok ("args".toList :: arguments) reader' ∧
        (∀ name ∈ requiredNames protocol, name ∈ arguments) ∧
        writtenBy (handshake protocol parameters width height { reader := reader }) =
          preamble protocol width height ++ [message ("connect".toList :: values)] ∧
        List.Forall₂ (BindsName parameters) arguments values ∧
        (∀ limit rest, limit ≤ 9999999 →
          (∀ value ∈ "connect".toList :: values, value.length ≤ limit) →
          pop limit (encodeInstruction ("connect".toList :: values) ++ rest) =
            .item ("connect".toList :: values) rest) ∧
        ∀ profile rest, parameters = profileParameters profile →
          pop readerLimit (encodeInstruction ("connect".toList :: values) ++ rest) =
            .item ("connect".toList :: values) rest := by
  rw [writtenBy_handshake]
  cases hread : InstructionReader.read reader with
  | error e reader' => exact Or.inl rfl
  | ok instruction reader' =>
    dsimp only
    by_cases hargs : instruction.head? ≠ some "args".toList
    · rw [if_pos hargs]
      exact Or.inl rfl
    by_cases hrequired : ¬ (∀ name ∈ requiredNames protocol, name ∈ instruction.tail)
    · rw [if_neg hargs, if_pos hrequired]
      exact Or.inl rfl
    rw [if_neg hargs, if_neg hrequired]
    have hfits : Fits readerLimit maxElements instruction := fits_of_readFrom hread
    obtain ⟨arguments, rfl⟩ : ∃ arguments, instruction = "args".toList :: arguments := by
      cases instruction with
      | nil => exact absurd rfl hfits.nonempty
      | cons opcode arguments =>
        have hopcode : opcode = "args".toList := by simpa using hargs
        exact ⟨arguments, by rw [hopcode]⟩
    have hfew : ("connect".toList :: arguments.map (connectValue parameters)).length ≤
        maxElements := by
      have hall := hfits.few
      simpa using hall
    have hparses : ∀ limit rest, limit ≤ 9999999 →
        (∀ value ∈ "connect".toList :: arguments.map (connectValue parameters),
          value.length ≤ limit) →
        pop limit
            (encodeInstruction ("connect".toList :: arguments.map (connectValue parameters)) ++
              rest) =
          .item ("connect".toList :: arguments.map (connectValue parameters)) rest := by
      intro limit rest hlimit hshort
      exact (suits_encodeInstruction hlimit ⟨by simp, hfew, hshort⟩).whole rest
    refine Or.inr ⟨arguments, arguments.map (connectValue parameters), reader', rfl,
      by simpa using hrequired, rfl, ?_, hparses, ?_⟩
    · rw [List.forall₂_map_right_iff]
      exact List.forall₂_same.2 fun name _ => bindsName_connectValue parameters name
    · rintro profile rest rfl
      refine hparses readerLimit rest (by decide) ?_
      intro value hvalue
      rcases List.mem_cons.1 hvalue with rfl | hvalue
      · decide
      · obtain ⟨name, -, rfl⟩ := List.mem_map.1 hvalue
        refine length_connectValue (by decide) (fun entry hentry => ?_) name
        have hshort := length_profileParameters hentry
        have hlimit : readerLimit = 1048576 := rfl
        omega

end LabGoblin.Guacamole
