import LabGoblin.Analysis.TicketConfinement

/-!
# The console bridge keeps the bytes of the desktop

A handshake takes bytes off two streams and sends bytes, whatever messages the streams come in.
What it has received beyond its own part is sent on when it ends, and the rest is still unread.
-/

set_option autoImplicit false

namespace LabGoblin.Rfb

/-- The messages carry the bytes, and none of them is empty. -/
structure Carries (frames : List Frame) (bytes : Bytes) : Prop where
  messages : ∀ frame ∈ frames, ∃ data, data ≠ [] ∧ frame = .binary data
  bytes : frames.flatMap Frame.data = bytes

/-- The bound on the buffer of a handshake is exceeded. -/
def TooLarge {α : Type} (result : EStateM.Result Failure Wire α) : Prop :=
  ∃ w, result = .error (.value (.message "Console handshake too large")) w

/-- The bytes sent to one side. -/
def sentBytes (side : Side) (events : List Event) : Bytes := (sentTo side events).flatten

/-- The bytes of one side that have not been received yet. -/
def Wire.unread (w : Wire) (side : Side) : Bytes := (w.stream side).pending.flatMap Frame.data

/-- How far a handshake has come: the bytes it has not taken off the streams, and those it has
sent. -/
structure Progress where
  upstream : Bytes
  browser : Bytes
  toUpstream : Bytes := []
  toBrowser : Bytes := []

namespace Progress

def remaining (g : Progress) : Side → Bytes
  | .upstream => g.upstream
  | .browser => g.browser

def sent (g : Progress) : Side → Bytes
  | .upstream => g.toUpstream
  | .browser => g.toBrowser

def take (g : Progress) (side : Side) (count : ℕ) : Progress :=
  match side with
  | .upstream => { g with upstream := g.upstream.drop count }
  | .browser => { g with browser := g.browser.drop count }

def send (g : Progress) (side : Side) (data : Bytes) : Progress :=
  match side with
  | .upstream => { g with toUpstream := g.toUpstream ++ data }
  | .browser => { g with toBrowser := g.toBrowser ++ data }

end Progress

/-- A handshake has come so far, however its bytes have arrived. -/
structure At (g : Progress) (w : Wire) : Prop where
  remaining : ∀ side, (w.stream side).buffer ++ w.unread side = g.remaining side
  sent : ∀ side, sentBytes side w.trace = g.sent side
  messages : ∀ side, ∀ frame ∈ (w.stream side).pending,
    ∃ data, data ≠ [] ∧ frame = .binary data

/-- What a part of a handshake comes to depends on the bytes only: it returns a value and has come
to a point as `post` says, or it raises an error and has sent some bytes. -/
def Determined {α : Type} (g : Progress) (p : Handshake α) (post : α → Progress → Prop) : Prop :=
  (∃ a g', post a g' ∧ ∀ w, At g w → TooLarge (p w) ∨ ∃ w', p w = .ok a w' ∧ At g' w') ∨
    ∃ e g', ∀ w, At g w → TooLarge (p w) ∨
      ∃ w', p w = .error e w' ∧ ∀ side, sentBytes side w'.trace = Progress.sent g' side

section Rules

variable {α β : Type} {g : Progress}

/-- Where the first half exceeds the bound, the whole does. -/
theorem tooLarge_bind {p : Handshake α} {w : Wire} (f : α → Handshake β)
    (h : TooLarge (p w)) : TooLarge ((p >>= f) w) := by
  obtain ⟨w', hw'⟩ := h
  refine ⟨w', ?_⟩
  show EStateM.bind p f w = _
  unfold EStateM.bind
  rw [hw']

/-- After a return the second half runs on the wire that is left. -/
theorem bind_ok {p : Handshake α} {w w' : Wire} {a : α} (f : α → Handshake β)
    (h : p w = .ok a w') : (p >>= f) w = f a w' := by
  show EStateM.bind p f w = _
  unfold EStateM.bind
  rw [h]

/-- After a failure the second half does not run. -/
theorem bind_error {p : Handshake α} {w w' : Wire} {e : Failure}
    (f : α → Handshake β) (h : p w = .error e w') : (p >>= f) w = .error e w' := by
  show EStateM.bind p f w = _
  unfold EStateM.bind
  rw [h]

/-- A return leaves the progress as it is. -/
theorem determined_pure {post : α → Progress → Prop} {a : α} (h : post a g) :
    Determined g (pure a) post :=
  Or.inl ⟨a, g, h, fun w hw => Or.inr ⟨w, rfl, hw⟩⟩

/-- A failure is determined, whatever was asked of a return. -/
theorem determined_throw {post : α → Progress → Prop} (e : Failure) :
    Determined g (throw e) post :=
  Or.inr ⟨e, g, fun w hw => Or.inr ⟨w, rfl, hw.sent⟩⟩

/-- Two halves that are determined by the progress make a whole that is. -/
theorem determined_bind {p : Handshake α} {f : α → Handshake β} {mid : α → Progress → Prop}
    {post : β → Progress → Prop} (hp : Determined g p mid)
    (hf : ∀ a g', mid a g' → Determined g' (f a) post) : Determined g (p >>= f) post := by
  rcases hp with ⟨a, g', hmid, hok⟩ | ⟨e, g', herr⟩
  · rcases hf a g' hmid with ⟨b, g'', hpost, hok'⟩ | ⟨e, g'', herr'⟩
    · refine Or.inl ⟨b, g'', hpost, fun w hw => ?_⟩
      rcases hok w hw with hl | ⟨w', hw', hat⟩
      · exact Or.inl (tooLarge_bind f hl)
      · rw [bind_ok f hw']
        exact hok' w' hat
    · refine Or.inr ⟨e, g'', fun w hw => ?_⟩
      rcases hok w hw with hl | ⟨w', hw', hat⟩
      · exact Or.inl (tooLarge_bind f hl)
      · rw [bind_ok f hw']
        exact herr' w' hat
  · refine Or.inr ⟨e, g', fun w hw => ?_⟩
    rcases herr w hw with hl | ⟨w', hw', hsent⟩
    · exact Or.inl (tooLarge_bind f hl)
    · exact Or.inr ⟨w', bind_error f hw', hsent⟩

/-- The condition on a return may be weakened. -/
theorem Determined.mono {p : Handshake α} {post post' : α → Progress → Prop}
    (h : Determined g p post) (hpost : ∀ a g', post a g' → post' a g') :
    Determined g p post' := by
  rcases h with ⟨a, g', ha, hok⟩ | herr
  · exact Or.inl ⟨a, g', hpost a g' ha, hok⟩
  · exact Or.inr herr

/-- A check that passes leaves the progress as it is. -/
theorem determined_raiseIf (p : Prop) [Decidable p] (text : String) :
    Determined g (raiseIf p text) (fun _ g' => ¬ p ∧ g' = g) := by
  unfold raiseIf
  by_cases hp : p
  · rw [if_pos hp]
    exact determined_throw _
  · rw [if_neg hp]
    exact determined_pure ⟨hp, rfl⟩

/-- A pure computation leaves the progress as it is. -/
theorem determined_liftExcept (x : Except Failure α) :
    Determined g (liftExcept x) (fun a g' => x = .ok a ∧ g' = g) := by
  cases x with
  | ok a => exact determined_pure ⟨rfl, rfl⟩
  | error e => exact determined_throw e

/-- What two traces sent is what the first one sent and then the second one. -/
theorem sentBytes_append (side : Side) (t u : List Event) :
    sentBytes side (t ++ u) = sentBytes side t ++ sentBytes side u := by
  simp [sentBytes, sentTo, List.filterMap_append]

/-- Sending bytes moves the progress by what was sent. -/
theorem At.sending {w : Wire} (hw : At g w) (side : Side) (data : Bytes) :
    At (g.send side data) { w with trace := w.trace ++ [.sent side data] } where
  remaining := fun side' => by
    have hr := hw.remaining side'
    cases side <;> cases side' <;> exact hr
  sent := fun side' => by
    have hs := hw.sent side'
    rw [sentBytes_append, hs]
    cases side <;> cases side' <;> simp [sentBytes, sentTo, Progress.send, Progress.sent]
  messages := fun side' => hw.messages side'

/-- Sending is determined by the progress. -/
theorem determined_send (side : Side) (data : Bytes) :
    Determined g (send side data) (fun _ g' => g' = g.send side data) :=
  Or.inl ⟨(), _, rfl, fun _ hw => Or.inr ⟨_, rfl, hw.sending side data⟩⟩

/-- What receiving until a buffer is long enough comes to, if the bound is not exceeded. -/
theorem fill_determined (count : ℕ) (buffer : Bytes) {pending : List Frame}
    (h : ∀ frame ∈ pending, ∃ data, data ≠ [] ∧ frame = .binary data) :
    (fill count buffer pending).failure = some (.value (.message "Console handshake too large")) ∨
      (∀ frame ∈ (fill count buffer pending).stream.pending,
        ∃ data, data ≠ [] ∧ frame = .binary data) ∧
      (fill count buffer pending).stream.buffer ++
        (fill count buffer pending).stream.pending.flatMap Frame.data =
          buffer ++ pending.flatMap Frame.data ∧
      if count ≤ (buffer ++ pending.flatMap Frame.data).length then
        (fill count buffer pending).failure = none ∧
          count ≤ (fill count buffer pending).stream.buffer.length
      else (fill count buffer pending).failure = some .disconnected := by
  induction pending generalizing buffer with
  | nil =>
    unfold fill
    by_cases hcount : count ≤ buffer.length <;> simp [hcount]
  | cons frame pending ih =>
    obtain ⟨data, hdata, rfl⟩ := h frame (by simp)
    unfold fill
    by_cases hcount : count ≤ buffer.length
    · rw [if_pos hcount]
      refine Or.inr ⟨h, rfl, ?_⟩
      rw [if_pos (by rw [List.length_append]; omega)]
      exact ⟨rfl, hcount⟩
    · rw [if_neg hcount]
      simp only [if_neg hdata]
      by_cases hlarge : (buffer ++ data).length > bufferLimit
      · rw [if_pos hlarge]
        exact Or.inl rfl
      · rw [if_neg hlarge]
        have hrest := ih (buffer ++ data) fun f hf => h f (by simp [hf])
        have hsame : buffer ++ (Frame.binary data :: pending).flatMap Frame.data =
            (buffer ++ data) ++ pending.flatMap Frame.data := by
          simp [Frame.data]
        rw [hsame]
        exact hrest

/-- Receiving sends nothing. -/
theorem sentBytes_received (side side' : Side) (frames : List Frame) :
    sentBytes side (frames.map (Event.received side')) = [] := by
  induction frames with
  | nil => rfl
  | cons frame frames ih => simp [sentBytes, sentTo]

/-- The state in which reading leaves a handshake. -/
def afterRead (w : Wire) (side : Side) (count : ℕ) (buffer : Bytes) : Wire :=
  { w with
    trace := w.trace ++
      (fill count (w.stream side).buffer (w.stream side).pending).heard.map
        (Event.received side) }.setStream
    { (fill count (w.stream side).buffer (w.stream side).pending).stream with
      buffer := buffer } side

/-- A read fills the buffer from the stream and takes its bytes off, or fails as the filling does.
-/
theorem read_eq (side : Side) (count : ℕ) (w : Wire) :
    read side count w =
      match (fill count (w.stream side).buffer (w.stream side).pending).failure with
      | some e => .error e (afterRead w side count
          (fill count (w.stream side).buffer (w.stream side).pending).stream.buffer)
      | none =>
        .ok ((fill count (w.stream side).buffer (w.stream side).pending).stream.buffer.take count)
          (afterRead w side count
            ((fill count (w.stream side).buffer (w.stream side).pending).stream.buffer.drop
              count)) := rfl

/-- A read sends nothing. -/
theorem sentBytes_afterRead (w : Wire) (side : Side) (count : ℕ) (buffer : Bytes)
    (side' : Side) :
    sentBytes side' (afterRead w side count buffer).trace = sentBytes side' w.trace := by
  have htrace : (afterRead w side count buffer).trace = w.trace ++
      (fill count (w.stream side).buffer (w.stream side).pending).heard.map
        (Event.received side) := by
    cases side <;> rfl
  rw [htrace, sentBytes_append, sentBytes_received, List.append_nil]

/-- A read takes the next bytes of its side, in whatever messages they come. -/
theorem determined_read (side : Side) (count : ℕ) :
    Determined g (read side count) (fun data g' =>
      data.length = count ∧ g.remaining side = data ++ g'.remaining side ∧
        g' = g.take side count) := by
  by_cases hcount : count ≤ (g.remaining side).length
  · refine Or.inl ⟨(g.remaining side).take count, g.take side count, ⟨by simp [hcount], ?_, rfl⟩,
      fun w hw => ?_⟩
    · cases side <;> exact (List.take_append_drop count _).symm
    · have hr : (w.stream side).buffer ++ (w.stream side).pending.flatMap Frame.data =
          g.remaining side := hw.remaining side
      rcases fill_determined count (w.stream side).buffer (hw.messages side) with
        hlarge | ⟨hmessages, hbytes, hends⟩
      · refine Or.inl ?_
        unfold TooLarge
        rw [read_eq, hlarge]
        exact ⟨_, rfl⟩
      · rw [hr, if_pos hcount] at hends
        rw [hr] at hbytes
        refine Or.inr ⟨afterRead w side count
          ((fill count (w.stream side).buffer (w.stream side).pending).stream.buffer.drop count),
          ?_, ?_⟩
        · rw [read_eq, hends.1, ← hbytes]
          dsimp only
          rw [List.take_append_of_le_length hends.2]
        · have hdrop : (fill count (w.stream side).buffer
                (w.stream side).pending).stream.buffer.drop count ++
              (fill count (w.stream side).buffer
                (w.stream side).pending).stream.pending.flatMap Frame.data =
              (g.remaining side).drop count := by
            rw [← hbytes, List.drop_append_of_le_length hends.2]
          constructor
          · intro side'
            cases side <;> cases side'
            · exact hdrop
            · exact hw.remaining .browser
            · exact hw.remaining .upstream
            · exact hdrop
          · intro side'
            rw [sentBytes_afterRead, hw.sent]
            cases side <;> rfl
          · intro side'
            cases side <;> cases side'
            · exact hmessages
            · exact hw.messages .browser
            · exact hw.messages .upstream
            · exact hmessages
  · refine Or.inr ⟨.disconnected, g, fun w hw => ?_⟩
    have hr : (w.stream side).buffer ++ (w.stream side).pending.flatMap Frame.data =
        g.remaining side := hw.remaining side
    rcases fill_determined count (w.stream side).buffer (hw.messages side) with
      hlarge | ⟨-, -, hends⟩
    · refine Or.inl ?_
      unfold TooLarge
      rw [read_eq, hlarge]
      exact ⟨_, rfl⟩
    · rw [hr, if_neg hcount] at hends
      refine Or.inr ⟨_, by rw [read_eq, hends], fun side' => ?_⟩
      rw [sentBytes_afterRead]
      exact hw.sent side'

end Rules

/-! ## The authentication of the console -/

/-- Only bytes of the console have been taken, and only the console has been sent something. -/
structure OnlyUpstream (g g' : Progress) : Prop where
  browser : g'.browser = g.browser
  toBrowser : g'.toBrowser = g.toBrowser
  upstream : ∃ taken, g.upstream = taken ++ g'.upstream

/-- Doing nothing leaves the browser alone. -/
theorem OnlyUpstream.refl (g : Progress) : OnlyUpstream g g := ⟨rfl, rfl, [], rfl⟩

/-- Two parts that leave the browser alone leave it alone together. -/
theorem OnlyUpstream.trans {g g' g'' : Progress} (h : OnlyUpstream g g')
    (h' : OnlyUpstream g' g'') : OnlyUpstream g g'' := by
  obtain ⟨taken, htaken⟩ := h.upstream
  obtain ⟨taken', htaken'⟩ := h'.upstream
  refine ⟨h'.browser.trans h.browser, h'.toBrowser.trans h.toBrowser, taken ++ taken', ?_⟩
  rw [htaken, htaken', List.append_assoc]

/-- A part of a handshake that talks to the console only. -/
def TalksUpstream {α : Type} (p : Handshake α) : Prop :=
  ∀ g, Determined g p fun _ => OnlyUpstream g

section TalksUpstream

variable {α β : Type}

/-- Two parts that talk to the console only make one that does. -/
theorem TalksUpstream.bind {p : Handshake α} {f : α → Handshake β} (hp : TalksUpstream p)
    (hf : ∀ a, TalksUpstream (f a)) : TalksUpstream (p >>= f) := fun g =>
  determined_bind (hp g) fun a g' h => (hf a g').mono fun _ _ h' => h.trans h'

/-- A read from the console leaves the browser alone. -/
theorem talksUpstream_read (count : ℕ) : TalksUpstream (read .upstream count) := fun g =>
  (determined_read .upstream count).mono fun data g' ⟨_, htaken, hg⟩ => by
    subst hg
    exact ⟨rfl, rfl, data, htaken⟩

/-- Sending to the console leaves the browser alone. -/
theorem talksUpstream_send (data : Bytes) : TalksUpstream (send .upstream data) := fun g =>
  (determined_send .upstream data).mono fun _ g' hg => by
    subst hg
    exact ⟨rfl, rfl, [], rfl⟩

/-- A return leaves the browser alone. -/
theorem talksUpstream_pure (a : α) : TalksUpstream (pure a) := fun g =>
  determined_pure (.refl g)

/-- A failure leaves the browser alone. -/
theorem talksUpstream_throw (e : Failure) : TalksUpstream (throw e : Handshake α) := fun _ =>
  determined_throw e

/-- A check leaves the browser alone. -/
theorem talksUpstream_raiseIf (p : Prop) [Decidable p] (text : String) :
    TalksUpstream (raiseIf p text) := fun _ =>
  (determined_raiseIf p text).mono fun _ _ ⟨_, hg⟩ => hg ▸ .refl _

/-- A pure computation leaves the browser alone. -/
theorem talksUpstream_liftExcept (x : Except Failure α) : TalksUpstream (liftExcept x) := fun _ =>
  (determined_liftExcept x).mono fun _ _ ⟨_, hg⟩ => hg ▸ .refl _

/-- Reading one byte from the console leaves the browser alone. -/
theorem talksUpstream_readByte : TalksUpstream (readByte .upstream) :=
  (talksUpstream_read 1).bind fun _ => talksUpstream_pure _

variable (des : TripleDes) (data : TicketData)

/-- Plain authentication talks to the console only. -/
theorem talksUpstream_authenticatePlain : TalksUpstream (authenticatePlain data) :=
  (talksUpstream_send _).bind fun _ => (talksUpstream_read 2).bind fun _ =>
  (talksUpstream_raiseIf _ _).bind fun _ => (talksUpstream_send _).bind fun _ =>
  (talksUpstream_read 1).bind fun _ => (talksUpstream_raiseIf _ _).bind fun _ =>
  talksUpstream_readByte.bind fun _ => (talksUpstream_read _).bind fun _ =>
  (talksUpstream_raiseIf _ _).bind fun _ => (talksUpstream_send _).bind fun _ =>
  (talksUpstream_liftExcept _).bind fun _ => talksUpstream_send _

/-- VNC authentication talks to the console only. -/
theorem talksUpstream_authenticateVnc : TalksUpstream (authenticateVnc des data) :=
  (talksUpstream_send _).bind fun _ => (talksUpstream_read 16).bind fun _ =>
  (talksUpstream_liftExcept _).bind fun _ => talksUpstream_send _

/-- Authentication at the console, of either kind, talks to the console only. -/
theorem talksUpstream_authenticateUpstream : TalksUpstream (authenticateUpstream des data) := by
  have hresult : TalksUpstream (do
      let result ← read .upstream 4
      raiseIf (result ≠ [0, 0, 0, 0]) "Console authentication rejected") :=
    (talksUpstream_read 4).bind fun _ => talksUpstream_raiseIf _ _
  unfold authenticateUpstream
  refine (talksUpstream_read 12).bind fun version => ?_
  refine (talksUpstream_raiseIf _ _).bind fun _ => ?_
  refine (talksUpstream_send _).bind fun _ => ?_
  refine talksUpstream_readByte.bind fun count => ?_
  refine (talksUpstream_read _).bind fun security => ?_
  by_cases hvencrypt : 19 ∈ security
  · simp only [hvencrypt, if_true]
    exact (talksUpstream_authenticatePlain data).bind fun _ => hresult
  · by_cases hvncAuth : 2 ∈ security
    · simp only [hvencrypt, hvncAuth, if_true, if_false]
      exact (talksUpstream_authenticateVnc des data).bind fun _ => hresult
    · simp only [hvencrypt, hvncAuth, if_false]
      exact (talksUpstream_throw _).bind fun _ => hresult

end TalksUpstream

/-! ## The connection of the browser -/

/-- `authenticate_browser` up to the desktop's first bytes. -/
def establish (des : TripleDes) (data : TicketData) : Handshake Unit := do
  authenticateUpstream des data
  send .browser rfbVersion
  let version ← read .browser 12
  raiseIf (version ≠ rfbVersion) "Unsupported browser console version"
  send .browser [1, 1]
  let security ← read .browser 1
  raiseIf (security ≠ [1]) "Invalid browser console authentication"
  send .browser [0, 0, 0, 0]
  send .upstream (← read .browser 1)
  let header ← read .upstream 24
  let nameLength := (words (header.drop 20)).headD 0
  raiseIf (nameLength > 65536) "Invalid desktop name"
  let name ← read .upstream nameLength
  send .browser (header ++ name)

/-- What is left in the buffers is sent on. -/
def flush : Handshake Unit := do
  let w ← get
  sendRest .browser w.upstream.buffer
  sendRest .upstream w.browser.buffer

/-- The handshake of a browser establishes the desktop and then sends on what was left over. -/
theorem authenticateBrowser_eq (des : TripleDes) (data : TicketData) :
    authenticateBrowser des data = establish des data >>= fun _ => flush := by
  simp only [authenticateBrowser, establish, flush, bind_assoc]

/-- The bytes that the two sides are to get when a handshake has succeeded: the `ServerInit` of the
console and the `ClientInit` of the browser, after which the desktop begins. -/
structure Established (g : Progress) where
  upstreamBefore : Bytes
  serverInit : Bytes
  browserBefore : Bytes
  clientInit : Bytes
  toUpstream : Bytes
  toBrowser : Bytes
  desktop : Bytes
  input : Bytes
  clientInit_length : clientInit.length = 1
  serverInit_length : serverInit.length =
    24 + (words ((serverInit.take 24).drop 20)).headD 0
  upstream : g.upstream = upstreamBefore ++ serverInit ++ desktop
  browser : g.browser = browserBefore ++ clientInit ++ input

/-- The progress of such a handshake before it sends on what is left in its buffers. -/
def Established.progress {g : Progress} (h : Established g) : Progress where
  upstream := h.desktop
  browser := h.input
  toUpstream := h.toUpstream ++ h.clientInit
  toBrowser := h.toBrowser ++ h.serverInit

/-- Where the handshake establishes the desktop, the two streams held its parts and nothing else was
taken off them. -/
theorem determined_establish (des : TripleDes) (data : TicketData) (g : Progress) :
    Determined g (establish des data) fun _ g' => ∃ h : Established g, g' = h.progress := by
  unfold establish
  refine determined_bind (talksUpstream_authenticateUpstream des data g) fun _ g₁ h₁ => ?_
  refine determined_bind (determined_send _ _) ?_
  rintro _ _ rfl
  refine determined_bind (determined_read .browser 12) ?_
  rintro version _ ⟨-, hversion, rfl⟩
  refine determined_bind (determined_raiseIf _ _) ?_
  rintro _ _ ⟨-, rfl⟩
  refine determined_bind (determined_send _ _) ?_
  rintro _ _ rfl
  refine determined_bind (determined_read .browser 1) ?_
  rintro security _ ⟨-, hsecurity, rfl⟩
  refine determined_bind (determined_raiseIf _ _) ?_
  rintro _ _ ⟨-, rfl⟩
  refine determined_bind (determined_send _ _) ?_
  rintro _ _ rfl
  refine determined_bind (determined_read .browser 1) ?_
  rintro clientInit _ ⟨hclientLength, hclient, rfl⟩
  refine determined_bind (determined_send _ _) ?_
  rintro _ _ rfl
  refine determined_bind (determined_read .upstream 24) ?_
  rintro header _ ⟨hheaderLength, hheader, rfl⟩
  refine determined_bind (determined_raiseIf _ _) ?_
  rintro _ _ ⟨-, rfl⟩
  refine determined_bind (determined_read .upstream _) ?_
  rintro name _ ⟨hnameLength, hname, rfl⟩
  refine (determined_send _ _).mono ?_
  rintro _ _ rfl
  obtain ⟨taken, htaken⟩ := h₁.upstream
  simp only [Progress.send, Progress.take, Progress.remaining] at *
  have hserver : (header ++ name).take 24 = header := by
    rw [← hheaderLength, List.take_left]
  refine ⟨{
    upstreamBefore := taken
    serverInit := header ++ name
    browserBefore := version ++ security
    clientInit := clientInit
    toUpstream := g₁.toUpstream
    toBrowser := g₁.toBrowser ++ rfbVersion ++ [1, 1] ++ [0, 0, 0, 0]
    desktop := (g₁.upstream.drop 24).drop ((words (header.drop 20)).headD 0)
    input := ((g₁.browser.drop 12).drop 1).drop 1
    clientInit_length := hclientLength
    serverInit_length := by rw [hserver, List.length_append, hheaderLength, hnameLength]
    upstream := ?_
    browser := ?_ }, rfl⟩
  · rw [htaken, List.append_assoc taken, List.append_assoc header, ← hname, ← hheader]
  · rw [← h₁.browser, List.append_assoc, ← hclient, List.append_assoc, ← hsecurity, ← hversion]

/-- Sending what is left of a buffer sends its bytes to that side and changes nothing else. -/
theorem sendRest_eq (side : Side) (buffer : Bytes) (w : Wire) :
    ∃ w', sendRest side buffer w = .ok () w' ∧ w'.upstream = w.upstream ∧
      w'.browser = w.browser ∧
      ∀ side', sentBytes side' w'.trace =
        sentBytes side' w.trace ++ if side' = side then buffer else [] := by
  unfold sendRest
  by_cases hempty : buffer = []
  · rw [if_pos hempty]
    exact ⟨w, rfl, rfl, rfl, fun side' => by simp [hempty]⟩
  · rw [if_neg hempty]
    refine ⟨_, rfl, rfl, rfl, fun side' => ?_⟩
    rw [sentBytes_append]
    cases side <;> cases side' <;> simp [sentBytes, sentTo]

/-- Everything that has been received is sent on, and the rest is unread. -/
theorem flush_eq (w : Wire) :
    ∃ w', flush w = .ok () w' ∧ (∀ side, w'.unread side = w.unread side) ∧
      sentBytes .browser w'.trace = sentBytes .browser w.trace ++ w.upstream.buffer ∧
      sentBytes .upstream w'.trace = sentBytes .upstream w.trace ++ w.browser.buffer := by
  obtain ⟨v, hv, hvup, hvbr, hvsent⟩ := sendRest_eq .browser w.upstream.buffer w
  obtain ⟨u, hu, huup, hubr, husent⟩ := sendRest_eq .upstream w.browser.buffer v
  have hget : (get : Handshake Wire) w = .ok w w := rfl
  have hflush : flush w = .ok () u := (bind_ok _ hget).trans ((bind_ok _ hv).trans hu)
  refine ⟨u, hflush, fun side => ?_, ?_, ?_⟩
  · cases side
    · exact congrArg (fun s : ByteStream => s.pending.flatMap Frame.data) (huup.trans hvup)
    · exact congrArg (fun s : ByteStream => s.pending.flatMap Frame.data) (hubr.trans hvbr)
  · rw [husent, hvsent]
    simp
  · rw [husent, hvsent]
    simp

/-- At the start all bytes of both sides are still to be taken and none has been sent. -/
theorem at_start {frames frames' : List Frame} {upstream browser : Bytes}
    (hup : Carries frames upstream) (hbr : Carries frames' browser) :
    At { upstream := upstream, browser := browser } (start frames frames') where
  remaining := fun side => by
    cases side
    · exact hup.bytes
    · exact hbr.bytes
  sent := fun side => by cases side <;> rfl
  messages := fun side => by
    cases side
    · exact hup.messages
    · exact hbr.messages

/-- What `authenticate_browser` comes to depends on the bytes of the two streams only, however they
are cut into messages within the bound of the buffer. When it succeeds, what has been received
after `ServerInit` and `ClientInit` has been sent on, and the rest is unread. -/
def AuthenticateBrowserKeeps (des : TripleDes) (data : TicketData) (upstream browser : Bytes) :
    Prop :=
  (∃ h : Established { upstream := upstream, browser := browser }, ∀ frames frames',
    Carries frames upstream → Carries frames' browser →
    ¬ TooLarge (authenticateBrowser des data (start frames frames')) →
    ∃ w forwarded forwarded', authenticateBrowser des data (start frames frames') = .ok () w ∧
      sentBytes .browser w.trace = h.toBrowser ++ h.serverInit ++ forwarded ∧
      forwarded ++ w.unread .upstream = h.desktop ∧
      sentBytes .upstream w.trace = h.toUpstream ++ h.clientInit ++ forwarded' ∧
      forwarded' ++ w.unread .browser = h.input) ∨
  ∃ e toUpstream toBrowser, ∀ frames frames',
    Carries frames upstream → Carries frames' browser →
    ¬ TooLarge (authenticateBrowser des data (start frames frames')) →
    ∃ w, authenticateBrowser des data (start frames frames') = .error e w ∧
      sentBytes .browser w.trace = toBrowser ∧ sentBytes .upstream w.trace = toUpstream

/-- The handshake of a browser keeps the bytes that come behind it, however both sides cut theirs
into messages. -/
theorem authenticateBrowser_bytes (des : TripleDes) (data : TicketData) (upstream browser : Bytes) :
    AuthenticateBrowserKeeps des data upstream browser := by
  unfold AuthenticateBrowserKeeps
  rw [authenticateBrowser_eq]
  rcases determined_establish des data { upstream := upstream, browser := browser } with
    ⟨_, _, ⟨h, rfl⟩, hok⟩ | ⟨e, g', herr⟩
  · refine Or.inl ⟨h, fun frames frames' hup hbr hlarge => ?_⟩
    rcases hok _ (at_start hup hbr) with hl | ⟨w, hw, hat⟩
    · exact absurd (tooLarge_bind _ hl) hlarge
    · obtain ⟨w', hflush, hunread, hbrowser, hupstream⟩ := flush_eq w
      refine ⟨w', w.upstream.buffer, w.browser.buffer, (bind_ok _ hw).trans hflush, ?_, ?_, ?_, ?_⟩
      · rw [hbrowser, hat.sent .browser]
        rfl
      · rw [hunread]
        exact hat.remaining .upstream
      · rw [hupstream, hat.sent .upstream]
        rfl
      · rw [hunread]
        exact hat.remaining .browser
  · refine Or.inr ⟨e, g'.toUpstream, g'.toBrowser, fun frames frames' hup hbr hlarge => ?_⟩
    rcases herr _ (at_start hup hbr) with hl | ⟨w, hw, hsent⟩
    · exact absurd (tooLarge_bind _ hl) hlarge
    · exact ⟨w, bind_error _ hw, hsent .browser, hsent .upstream⟩

namespace Fixture

/-- The console whose last bytes of the desktop come in a frame of their own. -/
def lateConsole : List Frame :=
  [.binary (rfbVersion.take 8),
    .binary (rfbVersion.drop 8 ++ [1, 19, 0, 2, 0, 1, 0, 0, 1, 0] ++ [0, 0, 0, 0] ++
      (List.replicate 20 0 ++ [0, 0, 0, 1, 0x74])),
    .binary [7, 7]]

/-- Binary messages that are not empty carry their bytes. -/
theorem carries_of_binary {frames : List Frame}
    (h : ∀ frame ∈ frames, frame ≠ .text ∧ frame ≠ .binary []) :
    Carries frames (frames.flatMap Frame.data) where
  messages := fun frame hframe => by
    cases frame with
    | binary data => exact ⟨data, fun hnil => (h _ hframe).2 (by rw [hnil]), rfl⟩
    | text => exact absurd rfl (h _ hframe).1
  bytes := rfl

/-- Whether a handshake succeeds. -/
def succeeds : EStateM.Result Failure Wire Unit → Bool
  | .ok _ _ => true
  | .error _ _ => false

/-- A handshake that succeeds did not exceed the bound. -/
theorem not_tooLarge_of_succeeds {result : EStateM.Result Failure Wire Unit}
    (h : succeeds result = true) : ¬ TooLarge result := by
  rintro ⟨w, rfl⟩
  cases h

set_option maxRecDepth 100000 in
/-- The bytes that the browser has been sent when the handshake succeeds depend on the frames. -/
theorem console_cuts_differ :
    Carries console (console.flatMap Frame.data) ∧
      Carries lateConsole (console.flatMap Frame.data) ∧
      Carries viewer (viewer.flatMap Frame.data) ∧
      ¬ TooLarge (authenticateBrowser (fun _ challenge => challenge) serviceTicket
        (start console viewer)) ∧
      ¬ TooLarge (authenticateBrowser (fun _ challenge => challenge) serviceTicket
        (start lateConsole viewer)) ∧
      sentBytes .browser (events (authenticateBrowser (fun _ challenge => challenge) serviceTicket
          (start console viewer))) ≠
        sentBytes .browser (events (authenticateBrowser (fun _ challenge => challenge) serviceTicket
          (start lateConsole viewer))) := by
  refine ⟨carries_of_binary (by decide), ?_, carries_of_binary (by decide),
    not_tooLarge_of_succeeds (by decide +kernel), not_tooLarge_of_succeeds (by decide +kernel),
    by decide +kernel⟩
  have hsame : console.flatMap Frame.data = lateConsole.flatMap Frame.data := by decide
  rw [hsame]
  exact carries_of_binary (by decide)

end Fixture

end LabGoblin.Rfb
