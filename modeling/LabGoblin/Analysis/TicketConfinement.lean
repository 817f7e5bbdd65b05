import LabGoblin.Computation.Coupling
import LabGoblin.Model.RfbAuth
import Mathlib.Order.Basic

/-!
# The console ticket stays on the server

`Offers` and `Accepts` say what a console sends that offers an authentication, and that then
accepts the gateway. Two handshakes with the same frames and different tickets are coupled: their
traces differ in messages to the console only, and only after an offer, while messages to the
browser follow an acceptance.
-/

set_option autoImplicit false

namespace LabGoblin.Rfb

open Interactive

/-! ## What a console sends -/

/-- The bytes of a console that offers VeNCrypt 0.2 with the Plain subtype. -/
inductive OffersPlain : Bytes → Prop
  | intro (count number : UInt8) (security subtypes : Bytes)
      (hsecurity : security.length = count.toNat) (hvencrypt : 19 ∈ security)
      (hsubtypes : subtypes.length = number.toNat * 4) (hplain : 256 ∈ words subtypes) :
      OffersPlain (rfbVersion ++ [count] ++ security ++ [0, 2] ++ [0] ++ [number] ++ subtypes)

/-- The bytes of a console that offers VNCAuth. -/
inductive OffersVncAuth : Bytes → Prop
  | intro (count : UInt8) (security : Bytes) (hsecurity : security.length = count.toNat)
      (hvncAuth : 2 ∈ security) : OffersVncAuth (rfbVersion ++ [count] ++ security)

/-- The bytes of a console whose security result is that the gateway is authenticated. -/
inductive Accepts : Bytes → Prop
  | plain (offer : Bytes) (h : OffersPlain offer) : Accepts (offer ++ [0, 0, 0, 0])
  | vncAuth (offer challenge : Bytes) (h : OffersVncAuth offer) (hlen : challenge.length = 16) :
      Accepts (offer ++ challenge ++ [0, 0, 0, 0])

/-- Some bytes begin with an offer. -/
def Offered (stream : Bytes) : Prop :=
  ∃ offer rest, stream = offer ++ rest ∧ (OffersPlain offer ∨ OffersVncAuth offer)

/-- Some bytes begin with an offer and the acceptance of what it was answered. -/
def Accepted (stream : Bytes) : Prop := ∃ accept rest, stream = accept ++ rest ∧ Accepts accept

/-- A console that has accepted has made an offer before. -/
theorem Accepted.offered {stream : Bytes} (h : Accepted stream) : Offered stream := by
  obtain ⟨accept, rest, rfl, hacc⟩ := h
  cases hacc with
  | plain offer h => exact ⟨offer, [0, 0, 0, 0] ++ rest, by simp, .inl h⟩
  | vncAuth offer challenge h _ =>
    exact ⟨offer, challenge ++ [0, 0, 0, 0] ++ rest, by simp, .inr h⟩

/-- An offer stays one when more bytes come. -/
theorem Offered.append {stream : Bytes} (h : Offered stream) (more : Bytes) :
    Offered (stream ++ more) := by
  obtain ⟨offer, rest, rfl, ho⟩ := h
  exact ⟨offer, rest ++ more, by simp, ho⟩

/-! ## Traces -/

/-- The bytes received from one side. -/
def receivedBytes (side : Side) (events : List Event) : Bytes :=
  events.flatMap fun
    | .received s frame => if s = side then frame.data else []
    | .sent _ _ => []

/-- The messages sent to one side. -/
def sentTo (side : Side) (events : List Event) : List Bytes :=
  events.filterMap fun
    | .received _ _ => none
    | .sent s data => if s = side then some data else none

/-- What two traces received is what the first one received and then the second one. -/
@[simp] theorem receivedBytes_append (side : Side) (t u : List Event) :
    receivedBytes side (t ++ u) = receivedBytes side t ++ receivedBytes side u :=
  List.flatMap_append

/-- Receiving frames receives their bytes. -/
theorem receivedBytes_received (side : Side) (frames : List Frame) :
    receivedBytes side (frames.map (Event.received side)) = frames.flatMap Frame.data := by
  simp [receivedBytes, List.flatMap_map]

/-- Two traces that look the same but for what is sent to a console that has offered an
authentication, and in which the browser is sent something only when the console has accepted. -/
inductive SameView : List Event → List Event → Prop
  | start : SameView [] []
  | received {t t' : List Event} (h : SameView t t') (side : Side) (frame : Frame) :
      SameView (t ++ [.received side frame]) (t' ++ [.received side frame])
  | upstream {t t' : List Event} (h : SameView t t') (data : Bytes) :
      SameView (t ++ [.sent .upstream data]) (t' ++ [.sent .upstream data])
  | secret {t t' : List Event} (h : SameView t t') (hoffer : Offered (receivedBytes .upstream t))
      (data data' : Bytes) :
      SameView (t ++ [.sent .upstream data]) (t' ++ [.sent .upstream data'])
  | browser {t t' : List Event} (h : SameView t t')
      (haccept : Accepted (receivedBytes .upstream t)) (data : Bytes) :
      SameView (t ++ [.sent .browser data]) (t' ++ [.sent .browser data])

variable {t t' : List Event}

/-- Hearing the same frames keeps the same view. -/
theorem SameView.heard (h : SameView t t') (side : Side) (frames : List Frame) :
    SameView (t ++ frames.map (Event.received side)) (t' ++ frames.map (Event.received side)) := by
  induction frames generalizing t t' with
  | nil => simpa using h
  | cons frame frames ih => simpa using ih (h.received side frame)

/-! ## Coupled handshakes -/

/-- The states of two handshakes that have taken `consumed` of the console's bytes. -/
structure Agree (stream consumed : Bytes) (w w' : Wire) : Prop where
  upstream : w'.upstream = w.upstream
  browser : w'.browser = w.browser
  trace : SameView w.trace w'.trace
  consumed : receivedBytes .upstream w.trace = consumed ++ w.upstream.buffer
  stream : receivedBytes .upstream w.trace ++ w.upstream.pending.flatMap Frame.data = stream

/-- The states of two handshakes that end the same way. -/
def Fails (stream : Bytes) (e e' : Failure) (w w' : Wire) : Prop :=
  e' = e ∧ SameView w.trace w'.trace ∧ receivedBytes .upstream w.trace <+: stream

/-- Two handshakes that agree and fail alike end the same way. -/
theorem Agree.fails {stream consumed : Bytes} {w w' : Wire} (h : Agree stream consumed w w')
    (e : Failure) : Fails stream e e w w' :=
  ⟨rfl, h.trace, _, h.stream⟩

/-- What is received is added to the buffer; if that ends well, there is enough in it. -/
theorem fill_spec (count : ℕ) (buffer : Bytes) (pending : List Frame) :
    (fill count buffer pending).heard ++ (fill count buffer pending).stream.pending = pending ∧
      ((fill count buffer pending).failure = none →
        (fill count buffer pending).stream.buffer =
            buffer ++ (fill count buffer pending).heard.flatMap Frame.data ∧
          count ≤ (fill count buffer pending).stream.buffer.length) := by
  induction pending generalizing buffer with
  | nil =>
    unfold fill
    split <;> simp_all
  | cons frame pending ih =>
    unfold fill
    split
    · simp_all
    · cases frame with
      | text => simp
      | binary data =>
        by_cases hdata : data = []
        · simp [hdata]
        · by_cases hlarge : (buffer ++ data).length > bufferLimit
          · simp only [hdata, hlarge, if_true, if_false]
            simp
          · obtain ⟨hheard, hrest⟩ := ih (buffer ++ data)
            simp only [hdata, hlarge, if_false]
            refine ⟨by simp [hheard], fun hnone => ?_⟩
            obtain ⟨hbuffer, hcount⟩ := hrest hnone
            exact ⟨by simp [hbuffer, Frame.data], hcount⟩

variable {stream consumed : Bytes} {w w' : Wire}

/-- Both read the same bytes from the console. -/
theorem coupled_read_upstream (h : Agree stream consumed w w') (count : ℕ) :
    Coupled (read .upstream count) (read .upstream count) w w'
      (fun data data' v v' => data = data' ∧ data.length = count ∧
        Agree stream (consumed ++ data) v v') (Fails stream) := by
  obtain ⟨hheard, hspec⟩ := fill_spec count w.upstream.buffer w.upstream.pending
  have hview := h.trace.heard .upstream (fill count w.upstream.buffer w.upstream.pending).heard
  unfold Coupled read
  simp only [Wire.stream, h.upstream]
  cases hf : (fill count w.upstream.buffer w.upstream.pending).failure with
  | some e =>
    refine ⟨rfl, hview, (fill count w.upstream.buffer w.upstream.pending).stream.pending.flatMap
      Frame.data, ?_⟩
    have hstream := h.stream
    rw [← hheard] at hstream
    simpa [Wire.setStream, receivedBytes_received] using hstream
  | none =>
    obtain ⟨hbuffer, hcount⟩ := hspec hf
    refine ⟨rfl, by simp [hcount], rfl, h.browser, hview, ?_, ?_⟩
    · simp [Wire.setStream, receivedBytes_received, h.consumed, hbuffer]
    · have hstream := h.stream
      rw [← hheard] at hstream
      simpa [Wire.setStream, receivedBytes_received] using hstream

/-- Both read the same bytes from the browser. -/
theorem coupled_read_browser (h : Agree stream consumed w w') (count : ℕ) :
    Coupled (read .browser count) (read .browser count) w w'
      (fun data data' v v' => data = data' ∧ Agree stream consumed v v') (Fails stream) := by
  have hview := h.trace.heard .browser (fill count w.browser.buffer w.browser.pending).heard
  have hquiet : receivedBytes .upstream ((fill count w.browser.buffer w.browser.pending).heard.map
      (Event.received .browser)) = [] := by simp [receivedBytes]
  unfold Coupled read
  simp only [Wire.stream, h.browser]
  cases hf : (fill count w.browser.buffer w.browser.pending).failure with
  | some e =>
    refine ⟨rfl, hview, w.upstream.pending.flatMap Frame.data, ?_⟩
    simpa [Wire.setStream, hquiet] using h.stream
  | none =>
    refine ⟨rfl, h.upstream, rfl, hview, ?_, ?_⟩
    · simp [Wire.setStream, hquiet, h.consumed]
    · simpa [Wire.setStream, hquiet] using h.stream

/-- Both read the same byte from the console. -/
theorem coupled_readByte (h : Agree stream consumed w w') :
    Coupled (readByte .upstream) (readByte .upstream) w w'
      (fun byte byte' v v' => byte = byte' ∧ Agree stream (consumed ++ [byte]) v v')
      (Fails stream) := by
  refine coupled_bind (coupled_read_upstream h 1) ?_
  rintro data data' v v' ⟨rfl, hlen, hagree⟩
  obtain ⟨byte, rfl⟩ := List.length_eq_one_iff.1 hlen
  exact coupled_pure ⟨rfl, hagree⟩

/-- What two handshakes do to their states when a message is sent. -/
theorem Agree.sent (h : Agree stream consumed w w') {side side' : Side} {data data' : Bytes}
    (hview : SameView (w.trace ++ [.sent side data]) (w'.trace ++ [.sent side' data'])) :
    Agree stream consumed { w with trace := w.trace ++ [.sent side data] }
      { w' with trace := w'.trace ++ [.sent side' data'] } where
  upstream := h.upstream
  browser := h.browser
  trace := hview
  consumed := by simp [receivedBytes, h.consumed.symm]
  stream := by simp [receivedBytes, h.stream.symm]

/-- The relation between the states of two handshakes that go on. -/
abbrev Goes (stream consumed : Bytes) : Unit → Unit → Wire → Wire → Prop :=
  fun _ _ v v' => Agree stream consumed v v'

/-- Both may send the same message to the console. -/
theorem coupled_send_upstream (h : Agree stream consumed w w') (data : Bytes) :
    Coupled (send .upstream data) (send .upstream data) w w' (Goes stream consumed)
      (Fails stream) :=
  h.sent (h.trace.upstream data)

/-- To a console that has made an offer the two may send different messages. -/
theorem coupled_send_secret (h : Agree stream consumed w w') (hoffer : Offered consumed)
    (data data' : Bytes) :
    Coupled (send .upstream data) (send .upstream data') w w' (Goes stream consumed)
      (Fails stream) := by
  have hreceived := h.consumed ▸ hoffer.append w.upstream.buffer
  exact h.sent (h.trace.secret hreceived data data')

/-- To the browser both send the same message, once the console has accepted. -/
theorem coupled_send_browser (h : Agree stream consumed w w') (haccept : Accepted consumed)
    (data : Bytes) :
    Coupled (send .browser data) (send .browser data) w w' (Goes stream consumed)
      (Fails stream) := by
  obtain ⟨accept, rest, rfl, hacc⟩ := haccept
  have hreceived : Accepted (receivedBytes .upstream w.trace) :=
    ⟨accept, rest ++ w.upstream.buffer, by simp [h.consumed], hacc⟩
  exact h.sent (h.trace.browser hreceived data)

/-- Both pass a check on the same value or fail it alike. -/
theorem coupled_raiseIf (h : Agree stream consumed w w') {p : Prop} [Decidable p] (text : String) :
    Coupled (raiseIf p text) (raiseIf p text) w w'
      (fun _ _ v v' => ¬ p ∧ Agree stream consumed v v') (Fails stream) := by
  unfold raiseIf
  by_cases hp : p
  · rw [if_pos hp]
    exact coupled_throw (h.fails _)
  · rw [if_neg hp]
    exact coupled_pure ⟨hp, h⟩

/-- Two encodings succeed both, or fail both in the same way. -/
def SameOutcome (x x' : Except Failure Bytes) : Prop :=
  (∃ data data', x = .ok data ∧ x' = .ok data') ∨ ∃ e, x = .error e ∧ x' = .error e

/-- What is computed from the two tickets is sent to a console that has made an offer. -/
theorem coupled_send_encoded (h : Agree stream consumed w w') (hoffer : Offered consumed)
    {x x' : Except Failure Bytes} (hx : SameOutcome x x') :
    Coupled (liftExcept x >>= send .upstream) (liftExcept x' >>= send .upstream) w w'
      (Goes stream consumed) (Fails stream) := by
  rcases hx with ⟨data, data', rfl, rfl⟩ | ⟨e, rfl, rfl⟩
  · exact coupled_send_secret h hoffer data data'
  · exact coupled_throw (h.fails _)

/-- Tickets whose handshakes cannot be told apart by how they fail. -/
structure Alike (des : TripleDes) (data data' : TicketData) : Prop where
  user : data'.hasUser = data.hasUser
  plain : SameOutcome (credentials data) (credentials data')
  vnc : ∀ challenge, SameOutcome (vncResponse des data.ticket challenge)
    (vncResponse des data'.ticket challenge)

variable {des : TripleDes} {data data' : TicketData}

/-- Plain authentication shows the difference of the tickets only to a console that has offered it.
-/
theorem coupled_authenticatePlain (hdata : Alike des data data') {count : UInt8}
    {security : Bytes} (hsecurity : security.length = count.toNat) (hvencrypt : 19 ∈ security)
    (h : Agree stream (rfbVersion ++ [count] ++ security) w w') :
    Coupled (authenticatePlain data) (authenticatePlain data') w w'
      (fun _ _ v v' => ∃ offer, OffersPlain offer ∧ Agree stream offer v v') (Fails stream) := by
  unfold authenticatePlain
  refine coupled_bind (coupled_send_upstream h _) ?_
  intro _ _ v v' h
  refine coupled_bind (coupled_read_upstream h 2) ?_
  rintro version _ v v' ⟨rfl, -, h⟩
  refine coupled_bind (coupled_raiseIf h _) ?_
  rintro _ _ v v' ⟨hversion, h⟩
  refine coupled_bind (coupled_send_upstream h _) ?_
  intro _ _ v v' h
  refine coupled_bind (coupled_read_upstream h 1) ?_
  rintro answer _ v v' ⟨rfl, -, h⟩
  refine coupled_bind (coupled_raiseIf h _) ?_
  rintro _ _ v v' ⟨hanswer, h⟩
  refine coupled_bind (coupled_readByte h) ?_
  rintro number _ v v' ⟨rfl, h⟩
  refine coupled_bind (coupled_read_upstream h _) ?_
  rintro subtypes _ v v' ⟨rfl, hsubtypes, h⟩
  rw [hdata.user]
  refine coupled_bind (coupled_raiseIf h _) ?_
  rintro _ _ v v' ⟨hplain, h⟩
  have hversion' : version = [0, 2] := by simpa using hversion
  have hanswer' : answer = [0] := by simpa using hanswer
  have hmem : 256 ∈ words subtypes := by
    by_contra hno
    exact hplain (.inl hno)
  subst hversion' hanswer'
  have hoffer := OffersPlain.intro count number security subtypes hsecurity hvencrypt hsubtypes hmem
  refine coupled_bind (coupled_send_upstream h _) ?_
  intro _ _ v v' h
  exact (coupled_send_encoded h ⟨_, [], by simp, .inl hoffer⟩ hdata.plain).mono
    (fun _ _ _ _ h => ⟨_, hoffer, h⟩) fun _ _ _ _ h => h

/-- VNC authentication shows the difference of the tickets only to a console that has offered it. -/
theorem coupled_authenticateVnc (hdata : Alike des data data') {count : UInt8} {security : Bytes}
    (hsecurity : security.length = count.toNat) (hvncAuth : 2 ∈ security)
    (h : Agree stream (rfbVersion ++ [count] ++ security) w w') :
    Coupled (authenticateVnc des data) (authenticateVnc des data') w w'
      (fun _ _ v v' => ∃ offer challenge, OffersVncAuth offer ∧ challenge.length = 16 ∧
        Agree stream (offer ++ challenge) v v') (Fails stream) := by
  have hoffer := OffersVncAuth.intro count security hsecurity hvncAuth
  unfold authenticateVnc
  refine coupled_bind (coupled_send_upstream h _) ?_
  intro _ _ v v' h
  refine coupled_bind (coupled_read_upstream h 16) ?_
  rintro challenge _ v v' ⟨rfl, hlen, h⟩
  exact (coupled_send_encoded h ⟨_, challenge, rfl, .inr hoffer⟩ (hdata.vnc challenge)).mono
    (fun _ _ _ _ h => ⟨_, challenge, hoffer, hlen, h⟩) fun _ _ _ _ h => h

/-- The last step of `authenticate_upstream`: the security result. -/
theorem coupled_securityResult {offer : Bytes} (h : Agree stream offer w w')
    (haccept : Accepts (offer ++ [0, 0, 0, 0])) :
    Coupled (do
        let result ← read .upstream 4
        raiseIf (result ≠ [0, 0, 0, 0]) "Console authentication rejected")
      (do
        let result ← read .upstream 4
        raiseIf (result ≠ [0, 0, 0, 0]) "Console authentication rejected") w w'
      (fun _ _ v v' => ∃ accept, Accepts accept ∧ Agree stream accept v v') (Fails stream) := by
  refine coupled_bind (coupled_read_upstream h 4) ?_
  rintro result _ v v' ⟨rfl, -, h⟩
  refine (coupled_raiseIf h _).mono ?_ fun _ _ _ _ h => h
  rintro _ _ u u' ⟨hresult, h⟩
  have hresult' : result = [0, 0, 0, 0] := by simpa using hresult
  subst hresult'
  exact ⟨_, haccept, h⟩

/-- Authentication at the console ends with an acceptance, or fails alike. -/
theorem coupled_authenticateUpstream (hdata : Alike des data data')
    (h : Agree stream [] w w') :
    Coupled (authenticateUpstream des data) (authenticateUpstream des data') w w'
      (fun _ _ v v' => ∃ accept, Accepts accept ∧ Agree stream accept v v') (Fails stream) := by
  unfold authenticateUpstream
  refine coupled_bind (coupled_read_upstream h 12) ?_
  rintro version _ v v' ⟨rfl, -, h⟩
  refine coupled_bind (coupled_raiseIf h _) ?_
  rintro _ _ v v' ⟨hversion, h⟩
  have hversion' : version = rfbVersion := by simpa using hversion
  subst hversion'
  refine coupled_bind (coupled_send_upstream h _) ?_
  intro _ _ v v' h
  refine coupled_bind (coupled_readByte h) ?_
  rintro count _ v v' ⟨rfl, h⟩
  refine coupled_bind (coupled_read_upstream h _) ?_
  rintro security _ v v' ⟨rfl, hsecurity, h⟩
  by_cases hvencrypt : 19 ∈ security
  · simp only [hvencrypt, if_true]
    refine coupled_bind (coupled_authenticatePlain hdata hsecurity hvencrypt h) ?_
    rintro _ _ v v' ⟨offer, hoffer, h⟩
    exact coupled_securityResult h (.plain offer hoffer)
  by_cases hvncAuth : 2 ∈ security
  · simp only [hvencrypt, hvncAuth, if_true, if_false]
    refine coupled_bind (coupled_authenticateVnc hdata hsecurity hvncAuth h) ?_
    rintro _ _ v v' ⟨offer, challenge, hoffer, hlen, h⟩
    exact coupled_securityResult h (.vncAuth offer challenge hoffer hlen)
  · simp only [hvencrypt, hvncAuth, if_false]
    exact coupled_throw (h.fails _)

/-- Leftovers are sent as any other message is. -/
theorem coupled_sendRest (h : Agree stream consumed w w') {side : Side} {buffer : Bytes}
    (hsend : Coupled (send side buffer) (send side buffer) w w' (Goes stream consumed)
      (Fails stream)) :
    Coupled (sendRest side buffer) (sendRest side buffer) w w' (Goes stream consumed)
      (Fails stream) := by
  unfold sendRest
  by_cases hempty : buffer = []
  · rw [if_pos hempty]
    exact coupled_pure h
  · rw [if_neg hempty]
    exact hsend

/-- The whole handshake looks the same with both tickets but to the console. -/
theorem coupled_authenticateBrowser (hdata : Alike des data data')
    (h : Agree stream [] w w') :
    Coupled (authenticateBrowser des data) (authenticateBrowser des data') w w'
      (fun _ _ v v' => ∃ consumed, Accepted consumed ∧ Agree stream consumed v v')
      (Fails stream) := by
  unfold authenticateBrowser
  refine coupled_bind (coupled_authenticateUpstream hdata h) ?_
  rintro _ _ v v' ⟨accept, haccept, h⟩
  have hacc : Accepted accept := ⟨accept, [], by simp, haccept⟩
  refine coupled_bind (coupled_send_browser h hacc _) ?_
  intro _ _ v v' h
  refine coupled_bind (coupled_read_browser h 12) ?_
  rintro version _ v v' ⟨rfl, h⟩
  refine coupled_bind (coupled_raiseIf h _) ?_
  rintro _ _ v v' ⟨-, h⟩
  refine coupled_bind (coupled_send_browser h hacc _) ?_
  intro _ _ v v' h
  refine coupled_bind (coupled_read_browser h 1) ?_
  rintro security _ v v' ⟨rfl, h⟩
  refine coupled_bind (coupled_raiseIf h _) ?_
  rintro _ _ v v' ⟨-, h⟩
  refine coupled_bind (coupled_send_browser h hacc _) ?_
  intro _ _ v v' h
  refine coupled_bind (coupled_read_browser h 1) ?_
  rintro clientInit _ v v' ⟨rfl, h⟩
  refine coupled_bind (coupled_send_upstream h _) ?_
  intro _ _ v v' h
  refine coupled_bind (coupled_read_upstream h 24) ?_
  rintro header _ v v' ⟨rfl, -, h⟩
  refine coupled_bind (coupled_raiseIf h _) ?_
  rintro _ _ v v' ⟨-, h⟩
  refine coupled_bind (coupled_read_upstream h _) ?_
  rintro name _ v v' ⟨rfl, -, h⟩
  have hmore : Accepted (accept ++ header ++ name) := ⟨accept, header ++ name, by simp, haccept⟩
  refine coupled_bind (coupled_send_browser h hmore _) ?_
  intro _ _ v v' h
  refine coupled_bind (q := fun u u' t t' => u = t ∧ u' = t' ∧
    Agree stream (accept ++ header ++ name) t t') ⟨rfl, rfl, h⟩ ?_
  rintro _ _ v v' ⟨rfl, rfl, h⟩
  rw [h.upstream, h.browser]
  refine coupled_bind (coupled_sendRest h (coupled_send_browser h hmore _)) ?_
  intro _ _ v v' h
  exact (coupled_sendRest h (coupled_send_upstream h _)).mono
    (fun _ _ _ _ h => ⟨_, hmore, h⟩) fun _ _ _ _ h => h

/-! ## What the traces of two handshakes say -/

/-- Traces that look the same have one length. -/
theorem SameView.length_eq (h : SameView t t') : t'.length = t.length := by
  induction h <;> simp_all

/-- At every moment the browser has been sent the same messages. -/
theorem SameView.sentToBrowser (h : SameView t t') (n : ℕ) :
    sentTo .browser (t.take n) = sentTo .browser (t'.take n) := by
  have hstep : ∀ {t t' : List Event} {e e' : Event}, t'.length = t.length →
      (∀ n, sentTo .browser (t.take n) = sentTo .browser (t'.take n)) →
      sentTo .browser [e] = sentTo .browser [e'] →
      ∀ n, sentTo .browser ((t ++ [e]).take n) = sentTo .browser ((t' ++ [e']).take n) := by
    intro t t' e e' hlen ih he n
    have happend : ∀ u u' : List Event, sentTo .browser (u ++ u') =
        sentTo .browser u ++ sentTo .browser u' := fun _ _ => List.filterMap_append
    rw [List.take_append, List.take_append, happend, happend, ih n, hlen]
    by_cases hn : n ≤ t.length
    · simp [Nat.sub_eq_zero_of_le hn]
    · obtain ⟨k, hk⟩ : ∃ k, n - t.length = k + 1 := ⟨n - t.length - 1, by omega⟩
      simp [hk, he]
  induction h generalizing n with
  | start => rfl
  | received h side frame ih => exact hstep h.length_eq ih rfl n
  | upstream h data ih => exact hstep h.length_eq ih rfl n
  | secret h hoffer data data' ih =>
    refine hstep h.length_eq ih ?_ n
    rfl
  | browser h haccept data ih => exact hstep h.length_eq ih rfl n

/-- An event of a trace with one more event is that one, or an event before it. -/
theorem getElem?_concat {d e : Event} {n : ℕ} (h : (t ++ [d])[n]? = some e) :
    (n < t.length ∧ t[n]? = some e) ∨ (n = t.length ∧ d = e) := by
  by_cases hn : n < t.length
  · rw [List.getElem?_append_left hn] at h
    exact .inl ⟨hn, h⟩
  · have hlast : n = t.length := by
      obtain ⟨hlt, -⟩ := List.getElem?_eq_some_iff.1 h
      simp only [List.length_append, List.length_singleton] at hlt
      omega
    subst hlast
    exact .inr ⟨rfl, by simpa using h⟩

/-- Two events are messages to the console, which has made an offer. -/
def Secret (t : List Event) (e e' : Event) : Prop :=
  (∃ data data', e = .sent .upstream data ∧ e' = .sent .upstream data') ∧
    Offered (receivedBytes .upstream t)

/-- Where the traces differ, both handshakes send something to a console that has made an
offer. -/
theorem SameView.differ (h : SameView t t') {n : ℕ} {e e' : Event} (he : t[n]? = some e)
    (he' : t'[n]? = some e') (hne : e ≠ e') : Secret (t.take n) e e' := by
  have hstep : ∀ {t t' : List Event} {d d' : Event}, t'.length = t.length →
      (t[n]? = some e → t'[n]? = some e' → Secret (t.take n) e e') →
      (d ≠ d' → Secret t d d') → (t ++ [d])[n]? = some e → (t' ++ [d'])[n]? = some e' →
        Secret ((t ++ [d]).take n) e e' := by
    intro t t' d d' hlen ih hd he he'
    rcases getElem?_concat he with ⟨hn, he⟩ | ⟨rfl, rfl⟩ <;>
      rcases getElem?_concat he' with ⟨hn', he'⟩ | ⟨hn', rfl⟩
    · rw [List.take_append_of_le_length (by omega)]
      exact ih he he'
    · omega
    · omega
    · rw [List.take_left]
      exact hd hne
  induction h with
  | start => simp at he
  | received h side frame ih => exact hstep h.length_eq ih (fun h => absurd rfl h) he he'
  | upstream h data ih => exact hstep h.length_eq ih (fun h => absurd rfl h) he he'
  | secret h hoffer data data' ih =>
    exact hstep h.length_eq ih (fun _ => ⟨⟨data, data', rfl, rfl⟩, hoffer⟩) he he'
  | browser h haccept data ih => exact hstep h.length_eq ih (fun h => absurd rfl h) he he'

/-- The browser is sent something only when the console has accepted. -/
theorem SameView.accepted (h : SameView t t') {n : ℕ} {data : Bytes}
    (he : t[n]? = some (.sent .browser data)) :
    Accepted (receivedBytes .upstream (t.take n)) := by
  have hstep : ∀ {t : List Event} {d : Event},
      (t[n]? = some (.sent .browser data) → Accepted (receivedBytes .upstream (t.take n))) →
      (d = .sent .browser data → Accepted (receivedBytes .upstream t)) →
      (t ++ [d])[n]? = some (.sent .browser data) →
        Accepted (receivedBytes .upstream ((t ++ [d]).take n)) := by
    intro t d ih hd he
    rcases getElem?_concat he with ⟨hn, he⟩ | ⟨rfl, rfl⟩
    · rw [List.take_append_of_le_length (by omega)]
      exact ih he
    · rw [List.take_left]
      exact hd rfl
  induction h with
  | start => simp at he
  | received h side frame ih => exact hstep ih (fun h => nomatch h) he
  | upstream h data ih => exact hstep ih (fun h => nomatch h) he
  | secret h hoffer data data' ih => exact hstep ih (fun h => nomatch h) he
  | browser h haccept data ih => exact hstep ih (fun _ => haccept) he

/-! ## Encodable tickets -/

/-- The ticket and the user name can be encoded: the ticket as Latin-1, and the lengths of both
in UTF-8 as 32-bit words. -/
structure TicketData.Encodable (data : TicketData) : Prop where
  latin1 : ∀ c ∈ data.ticket, c.toNat < 256
  ticket : (utf8 data.ticket).length < 0x100000000
  user : (utf8 (data.user.getD [])).length < 0x100000000

/-- Encodable credentials are encoded. -/
theorem exists_credentials (h : data.Encodable) : ∃ sent, credentials data = .ok sent := by
  simp only [credentials, packWord, if_pos h.ticket, if_pos h.user]
  exact ⟨_, rfl⟩

/-- An encodable ticket has a response to every challenge. -/
theorem exists_vncResponse (des : TripleDes) (h : data.Encodable) (challenge : Bytes) :
    ∃ sent, vncResponse des data.ticket challenge = .ok sent := by
  have hall : data.ticket.all (fun c => c.toNat < 256) = true := by
    simpa using h.latin1
  simp only [vncResponse, latin1, hall, if_true]
  exact ⟨_, rfl⟩

/-- Encodable tickets, both with or both without a user name, cannot be told apart by how they fail.
-/
theorem alike_of_encodable (huser : data'.hasUser = data.hasUser) (h : data.Encodable)
    (h' : data'.Encodable) : Alike des data data' where
  user := huser
  plain := by
    obtain ⟨sent, hsent⟩ := exists_credentials h
    obtain ⟨sent', hsent'⟩ := exists_credentials h'
    exact .inl ⟨sent, sent', hsent, hsent'⟩
  vnc := fun challenge => by
    obtain ⟨sent, hsent⟩ := exists_vncResponse des h challenge
    obtain ⟨sent', hsent'⟩ := exists_vncResponse des h' challenge
    exact .inl ⟨sent, sent', hsent, hsent'⟩

/-! ## The result -/

/-- What has happened when a handshake ends. -/
def events : EStateM.Result Failure Wire Unit → List Event
  | .ok _ w => w.trace
  | .error _ w => w.trace

/-- Two handshakes with the same frames agree at the start. -/
theorem agree_start (upstream browser : List Frame) :
    Agree (upstream.flatMap Frame.data) [] (start upstream browser) (start upstream browser) where
  upstream := rfl
  browser := rfl
  trace := .start
  consumed := rfl
  stream := by simp [start, receivedBytes]

/-- Two handshakes with the same frames and different tickets, both with or both without a user:
at every moment the browser has been sent the same; where they differ, something is sent to a
console that has offered VeNCrypt 0.2 with Plain or VNCAuth; the browser is sent anything, and so
its security result, only after the console has returned the security result 0; and a console that
offers neither is rejected, with nothing sent to the browser. -/
theorem ticket_confined (des : TripleDes) (upstream browser : List Frame)
    {data data' : TicketData} (huser : data'.hasUser = data.hasUser) (h : data.Encodable)
    (h' : data'.Encodable) :
    let run := authenticateBrowser des data (start upstream browser)
    let run' := authenticateBrowser des data' (start upstream browser)
    (events run').length = (events run).length ∧
    (∀ n, sentTo .browser ((events run).take n) = sentTo .browser ((events run').take n)) ∧
    (∀ n e e', (events run)[n]? = some e → (events run')[n]? = some e' → e ≠ e' →
      (∃ sent sent', e = .sent .upstream sent ∧ e' = .sent .upstream sent') ∧
        Offered (receivedBytes .upstream ((events run).take n))) ∧
    (∀ n sent, (events run)[n]? = some (.sent .browser sent) →
      Accepted (receivedBytes .upstream ((events run).take n))) ∧
    (¬ Offered (upstream.flatMap Frame.data) →
      (∃ e w, run = .error e w) ∧ sentTo .browser (events run) = []) := by
  intro run run'
  have halike : Alike des data data' := alike_of_encodable huser h h'
  have hcoupled := coupled_authenticateBrowser halike (agree_start upstream browser)
  have hends : SameView (events run) (events run') ∧
      receivedBytes .upstream (events run) <+: upstream.flatMap Frame.data ∧
      ((∃ e w, run = .error e w) ∨ Offered (upstream.flatMap Frame.data)) := by
    rcases hcoupled.ends with ⟨_, _, w, w', hrun, hrun', consumed, haccept, hagree⟩ |
      ⟨e, e', w, w', hrun, hrun', -, hview, hprefix⟩
    · simp only [run, run', hrun, hrun', events]
      refine ⟨hagree.trace, ⟨_, hagree.stream⟩, .inr ?_⟩
      rw [← hagree.stream, hagree.consumed, List.append_assoc]
      exact haccept.offered.append _
    · simp only [run, run', hrun, hrun', events]
      exact ⟨hview, hprefix, .inl ⟨e, w, rfl⟩⟩
  obtain ⟨hview, hprefix, hrejected⟩ := hends
  refine ⟨hview.length_eq, hview.sentToBrowser, fun n e e' => hview.differ,
    fun n sent => hview.accepted, fun hno => ⟨hrejected.resolve_right hno, ?_⟩⟩
  -- a message to the browser would come after an offer among the console's bytes
  by_contra hsent
  obtain ⟨sent, hmem⟩ := List.exists_mem_of_ne_nil _ hsent
  have hevent : Event.sent .browser sent ∈ events run := by
    simp only [sentTo, List.mem_filterMap] at hmem
    obtain ⟨e, he, hsome⟩ := hmem
    cases e with
    | received side frame => cases hsome
    | sent side data => simp_all
  obtain ⟨n, hn⟩ := List.mem_iff_getElem?.1 hevent
  have haccept := hview.accepted hn
  obtain ⟨more, hmore⟩ : receivedBytes .upstream ((events run).take n) <+:
      receivedBytes .upstream (events run) := by
    refine ⟨receivedBytes .upstream ((events run).drop n), ?_⟩
    rw [← receivedBytes_append, List.take_append_drop]
  obtain ⟨rest, hrest⟩ := hprefix
  apply hno
  rw [← hrest, ← hmore, List.append_assoc]
  exact haccept.offered.append _

namespace Fixture

/-- A console that offers VeNCrypt 0.2 with Plain, accepts, and sends its `ServerInit` with the
next bytes of the desktop. -/
def console : List Frame :=
  [.binary (rfbVersion.take 8),
    .binary (rfbVersion.drop 8 ++ [1, 19, 0, 2, 0, 1, 0, 0, 1, 0] ++ [0, 0, 0, 0] ++
      (List.replicate 20 0 ++ [0, 0, 0, 1, 0x74]) ++ [7, 7])]

def viewer : List Frame := [.binary (rfbVersion ++ [1, 1])]

def serviceTicket : TicketData := ⟨"server-only-ticket".toList, some "service@pve".toList⟩

def otherTicket : TicketData := ⟨"other".toList, some "root@pam".toList⟩

/-- A computed check that a text is Latin-1. -/
theorem latin1_of_all {text : Text} (h : (text.all fun c => c.toNat < 256) = true) :
    ∀ c ∈ text, c.toNat < 256 := by
  simpa using h

set_option maxRecDepth 100000 in
/-- With the console of the fixture both tickets send the browser the same bytes. -/
theorem ticket_confined_console :
    sentTo .browser ((events (authenticateBrowser (fun _ challenge => challenge) serviceTicket
        (start console viewer))).take 40) =
      sentTo .browser ((events (authenticateBrowser (fun _ challenge => challenge) otherTicket
        (start console viewer))).take 40) :=
  (ticket_confined (fun _ challenge => challenge) console viewer (by decide)
    ⟨latin1_of_all (by decide +kernel), by decide +kernel, by decide +kernel⟩
    ⟨latin1_of_all (by decide +kernel), by decide +kernel, by decide +kernel⟩).2.1 40

end Fixture

end LabGoblin.Rfb
