import Mathlib.Data.Nat.Notation

/-!
# Incremental decoders

A decoder holds the input it has received and has not used yet. `pop` takes one whole item
off the front of that buffer, or finds the item incomplete, or fails. A consumer feeds the
input chunk by chunk and after each chunk pops until no whole item is left, handing every
item to a handler that may emit outputs or stop.

An encoding `enc` suits a decoder at an item when `pop` takes exactly `enc x` off any input
that starts with it, and finds every proper beginning of `enc x` incomplete. Items whose
encodings suit are recovered from the concatenation of their encodings however it is cut.
-/

set_option autoImplicit false

namespace Interactive

/-- What a decoder finds at the front of its buffer. -/
inductive Popped (α ι ε : Type) where
  | item (x : ι) (rest : List α)
  | incomplete
  | failed (e : ε)

/-- An incremental decoder: there is nothing in an empty buffer, and every item takes something
off the buffer. -/
structure Decoder (α ι ε : Type) where
  pop : List α → Popped α ι ε
  starved : pop [] = .incomplete
  shorter : ∀ b x rest, pop b = .item x rest → rest.length < b.length

/-- What a handler does with an item. -/
inductive Reaction (ω σ : Type) where
  | emit (outputs : List ω)
  | stop (s : σ)

/-- How consuming some input ends: waiting for more with what is left, or for good. -/
inductive Exit (α ε σ : Type) where
  | waiting (buffer : List α)
  | failed (e : ε)
  | stopped (s : σ)

/-- What a handler makes of items it is given one after the other, until it stops. -/
def handled {ι ω σ : Type} (handle : ι → Reaction ω σ) : List ι → List ω × Option σ
  | [] => ([], none)
  | x :: xs =>
    match handle x with
    | .stop s => ([], some s)
    | .emit outputs => (outputs ++ (handled handle xs).1, (handled handle xs).2)

namespace Decoder

variable {α ι ε ω σ : Type} (D : Decoder α ι ε)

/-- Pop items and hand them on until no whole item is left. -/
def consume (handle : ι → Reaction ω σ) (b : List α) : List ω × Exit α ε σ :=
  match _h : D.pop b with
  | .incomplete => ([], .waiting b)
  | .failed e => ([], .failed e)
  | .item x rest =>
    match handle x with
    | .stop s => ([], .stopped s)
    | .emit outputs => (outputs ++ (consume handle rest).1, (consume handle rest).2)
termination_by b.length
decreasing_by all_goals exact D.shorter b x rest _h

/-- Receive chunks one by one, consuming after each. `refuses` is the error that a buffer
is too large for. -/
def feedAll (refuses : List α → Option ε) (handle : ι → Reaction ω σ) (b : List α) :
    List (List α) → List ω × Exit α ε σ
  | [] => ([], .waiting b)
  | chunk :: chunks =>
    match refuses (b ++ chunk) with
    | some e => ([], .failed e)
    | none =>
      match D.consume handle (b ++ chunk) with
      | (outputs, .waiting b') =>
        (outputs ++ (feedAll refuses handle b' chunks).1, (feedAll refuses handle b' chunks).2)
      | (outputs, .failed e) => (outputs, .failed e)
      | (outputs, .stopped s) => (outputs, .stopped s)

/-- The handler that collects the items. -/
def collect : ι → Reaction ι Empty := fun x => .emit [x]

variable {D} {handle : ι → Reaction ω σ} {b b' rest : List α} {x : ι}

/-! ## Consuming -/

/-- With no whole item in the buffer the consumer emits nothing and waits. -/
theorem consume_incomplete (h : D.pop b = .incomplete) : D.consume handle b = ([], .waiting b) := by
  rw [consume]
  split <;> simp_all

/-- With a buffer that cannot be decoded the consumer emits nothing and fails. -/
theorem consume_failed {e : ε} (h : D.pop b = .failed e) :
    D.consume handle b = ([], .failed e) := by
  rw [consume]
  split <;> simp_all

/-- With a whole item in the buffer the handler decides, and after an output the consumer goes on
with the rest. -/
theorem consume_item (h : D.pop b = .item x rest) :
    D.consume handle b =
      match handle x with
      | .stop s => ([], .stopped s)
      | .emit outputs =>
        (outputs ++ (D.consume handle rest).1, (D.consume handle rest).2) := by
  rw [consume]
  split
  · simp_all
  · simp_all
  · next x' rest' h' =>
    rw [h] at h'
    cases h'
    rfl

/-- What a consumer that waits has left holds no whole item. -/
theorem pop_of_waiting {outputs : List ω} (h : D.consume handle b = (outputs, .waiting b')) :
    D.pop b' = .incomplete := by
  induction hn : b.length using Nat.strongRecOn generalizing b outputs with
  | ind n ih =>
    cases hpop : D.pop b with
    | incomplete =>
      rw [consume_incomplete hpop] at h
      cases h
      exact hpop
    | failed e =>
      rw [consume_failed hpop] at h
      cases h
    | item x rest =>
      rw [consume_item hpop] at h
      have hlt : rest.length < n := hn ▸ D.shorter _ _ _ hpop
      cases hx : handle x with
      | stop s => simp [hx] at h
      | emit out =>
        simp only [hx, Prod.mk.injEq] at h
        exact ih rest.length hlt (Prod.ext rfl h.2) rfl

/-- What a consumer that waits has left is no longer than what it was given. -/
theorem length_of_waiting {outputs : List ω}
    (h : D.consume handle b = (outputs, .waiting b')) : b'.length ≤ b.length := by
  induction hn : b.length using Nat.strongRecOn generalizing b outputs with
  | ind n ih =>
    cases hpop : D.pop b with
    | incomplete =>
      rw [consume_incomplete hpop] at h
      cases h
      omega
    | failed e =>
      rw [consume_failed hpop] at h
      cases h
    | item x rest =>
      rw [consume_item hpop] at h
      have hlt : rest.length < n := hn ▸ D.shorter _ _ _ hpop
      cases hx : handle x with
      | stop s => simp [hx] at h
      | emit out =>
        simp only [hx, Prod.mk.injEq] at h
        have hrest := ih rest.length hlt (Prod.ext rfl h.2) rfl
        omega

/-- What holds of every item the decoder takes off a buffer holds of all that are collected. -/
theorem forall_mem_consume {P : ι → Prop} (hpop : ∀ b x rest, D.pop b = .item x rest → P x)
    (b : List α) : ∀ x ∈ (D.consume collect b).1, P x := by
  induction hn : b.length using Nat.strongRecOn generalizing b with
  | ind n ih =>
    cases hb : D.pop b with
    | incomplete => simp [consume_incomplete hb]
    | failed e => simp [consume_failed hb]
    | item x rest =>
      have hlt : rest.length < n := hn ▸ D.shorter _ _ _ hb
      have hrest := ih rest.length hlt rest rfl
      have hx := hpop b x rest hb
      simpa [consume_item hb, collect, hx] using hrest

/-- Whatever holds of every item a buffer can yield holds of all items of a stream, however it was
cut. -/
theorem forall_mem_feedAll {P : ι → Prop} (hpop : ∀ b x rest, D.pop b = .item x rest → P x)
    (refuses : List α → Option ε) (b : List α) (chunks : List (List α)) :
    ∀ x ∈ (D.feedAll refuses collect b chunks).1, P x := by
  induction chunks generalizing b with
  | nil => simp [feedAll]
  | cons chunk chunks ih =>
    cases hrefuses : refuses (b ++ chunk) with
    | some e => simp [feedAll, hrefuses]
    | none =>
      have hconsume := forall_mem_consume hpop (b ++ chunk)
      rcases hc : D.consume collect (b ++ chunk) with ⟨items, b' | e | s⟩
      · intro x hx
        simp only [feedAll, hrefuses, hc, List.mem_append] at hx
        rcases hx with hx | hx
        · exact hconsume x (by simpa [hc] using hx)
        · exact ih b' x hx
      · simpa [feedAll, hrefuses, hc] using hconsume
      · exact s.elim

/-! ## Handling what was collected -/

/-- Handling two lists of items in a row: a stop in the first one hides the second one. -/
theorem handled_append (xs ys : List ι) :
    handled handle (xs ++ ys) =
      match handled handle xs with
      | (outputs, some s) => (outputs, some s)
      | (outputs, none) => (outputs ++ (handled handle ys).1, (handled handle ys).2) := by
  induction xs with
  | nil => simp [handled]
  | cons x xs ih =>
    cases hx : handle x with
    | stop s => simp [handled, hx]
    | emit out =>
      simp only [List.cons_append, handled, hx, ih]
      rcases handled handle xs with ⟨outputs, _ | s⟩ <;> simp

/-- How consuming ends when the handler may stop it earlier. -/
def ended : Option σ → Exit α ε Empty → Exit α ε σ
  | some s, _ => .stopped s
  | none, .waiting b => .waiting b
  | none, .failed e => .failed e

/-- A consumer that reads as stopped was stopped by its handler. -/
theorem eq_of_ended_stopped {stop : Option σ} {exit : Exit α ε Empty} {s : σ}
    (h : ended stop exit = .stopped s) : stop = some s := by
  cases stop with
  | some s' =>
    cases h
    rfl
  | none =>
    rcases exit with b | e | s'
    · cases h
    · cases h
    · exact s'.elim

/-- Consuming is collecting the items and handling them. -/
theorem consume_eq_handled (b : List α) :
    D.consume handle b =
      ((handled handle (D.consume collect b).1).1,
        ended (handled handle (D.consume collect b).1).2 (D.consume collect b).2) := by
  induction hn : b.length using Nat.strongRecOn generalizing b with
  | ind n ih =>
    cases hpop : D.pop b with
    | incomplete => simp [consume_incomplete hpop, handled, ended]
    | failed e => simp [consume_failed hpop, handled, ended]
    | item x rest =>
      have hlt : rest.length < n := hn ▸ D.shorter _ _ _ hpop
      have hrest := ih rest.length hlt rest rfl
      cases hx : handle x with
      | stop s => simp [consume_item hpop, hx, collect, handled, ended]
      | emit out => simp [consume_item hpop, hx, collect, handled, hrest]

/-- Feeding a handler is collecting the items that arrive and handling them. -/
theorem feedAll_eq_handled (refuses : List α → Option ε) (b : List α) (chunks : List (List α)) :
    D.feedAll refuses handle b chunks =
      ((handled handle (D.feedAll refuses collect b chunks).1).1,
        ended (handled handle (D.feedAll refuses collect b chunks).1).2
          (D.feedAll refuses collect b chunks).2) := by
  induction chunks generalizing b with
  | nil => simp [feedAll, handled, ended]
  | cons chunk chunks ih =>
    cases hrefuses : refuses (b ++ chunk) with
    | some e => simp [feedAll, hrefuses, handled, ended]
    | none =>
      have hconsume : D.consume handle (b ++ chunk) = _ := consume_eq_handled (b ++ chunk)
      rcases hc : D.consume collect (b ++ chunk) with ⟨items, b' | e | s⟩
      · rcases hh : handled handle items with ⟨outputs, _ | s⟩
        · simp [feedAll, hrefuses, hc, hconsume, hh, ended, handled_append, ih b']
        · simp [feedAll, hrefuses, hc, hconsume, hh, ended, handled_append]
      · rcases hh : handled handle items with ⟨outputs, _ | s⟩ <;>
          simp [feedAll, hrefuses, hc, hconsume, hh, ended]
      · exact s.elim

/-! ## Encodings -/

/-- The decoder takes exactly the encoding of an item off its buffer, and never errs on or takes
anything off a beginning of it. -/
structure Suits (D : Decoder α ι ε) (enc : ι → List α) (x : ι) : Prop where
  whole : ∀ rest, D.pop (enc x ++ rest) = .item x rest
  part : ∀ p q, enc x = p ++ q → q ≠ [] → D.pop p = .incomplete

variable {enc : ι → List α} {xs : List ι}

/-- A beginning of the encodings of some items gives the items it has whole. -/
theorem consume_encoded {t : List α} (hxs : ∀ x ∈ xs, D.Suits enc x) {b : List α}
    (h : b ++ t = xs.flatMap enc) :
    ∃ done left b', xs = done ++ left ∧ D.consume collect b = (done, .waiting b') ∧
      b' ++ t = left.flatMap enc ∧ (t = [] → left = [] ∧ b' = []) := by
  induction xs generalizing b with
  | nil =>
    have hb : b = [] := by simp_all
    subst hb
    exact ⟨[], [], [], rfl, consume_incomplete D.starved, h, fun _ => ⟨rfl, rfl⟩⟩
  | cons x xs ih =>
    have hx := hxs x (by simp)
    rw [List.flatMap_cons] at h
    rcases List.append_eq_append_iff.1 h with ⟨q, hq, ht⟩ | ⟨c, hc, ht⟩
    · by_cases hne : q = []
      · -- the buffer ends where the item does
        subst hne
        have hb : b = enc x := by simpa using hq.symm
        obtain ⟨done, left, b', hxs', hconsume, hb', hend⟩ :=
          ih (fun y hy => hxs y (by simp [hy])) (b := []) (by simpa using ht)
        have hpop : D.pop b = .item x [] := by simpa [hb] using hx.whole []
        refine ⟨x :: done, left, b', by simp [hxs'], ?_, hb', hend⟩
        simp [consume_item hpop, collect, hconsume]
      · have hpop := hx.part b q hq hne
        refine ⟨[], x :: xs, b, rfl, consume_incomplete hpop, by simp [h], ?_⟩
        intro ht'
        simp_all
    · obtain ⟨done, left, b', hxs', hconsume, hb', hend⟩ :=
        ih (fun y hy => hxs y (by simp [hy])) (b := c) ht.symm
      have hpop : D.pop b = .item x c := by simpa [hc] using hx.whole c
      refine ⟨x :: done, left, b', by simp [hxs'], ?_, hb', hend⟩
      simp [consume_item hpop, collect, hconsume]

/-- However the encodings of some items are cut into chunks, feeding them gives the items in
order and leaves nothing in the buffer. -/
theorem feedAll_encoded {refuses : List α → Option ε} (hxs : ∀ x ∈ xs, D.Suits enc x)
    (hrefuses : ∀ c, c.length ≤ (xs.flatMap enc).length → refuses c = none)
    (hb : D.pop b = .incomplete) {chunks : List (List α)}
    (h : b ++ chunks.flatten = xs.flatMap enc) :
    D.feedAll refuses collect b chunks = (xs, .waiting []) := by
  induction chunks generalizing b xs with
  | nil =>
    have hb' : b ++ [] = xs.flatMap enc := by simpa using h
    obtain ⟨done, left, b', rfl, hconsume, -, hend⟩ := consume_encoded hxs hb'
    obtain ⟨rfl, rfl⟩ := hend rfl
    rw [consume_incomplete hb] at hconsume
    cases hconsume
    rfl
  | cons chunk chunks ih =>
    have h' : (b ++ chunk) ++ chunks.flatten = xs.flatMap enc := by simpa using h
    have hlen : (b ++ chunk).length ≤ (xs.flatMap enc).length := by
      have hwhole := congrArg List.length h'
      simp only [List.length_append] at hwhole ⊢
      omega
    obtain ⟨done, left, b', rfl, hconsume, hleft, -⟩ := consume_encoded hxs h'
    have hshort : (left.flatMap enc).length ≤ ((done ++ left).flatMap enc).length := by
      rw [List.flatMap_append, List.length_append]
      omega
    have hfeed := ih (fun x hx => hxs x (by simp [hx]))
      (fun c hc => hrefuses c (Nat.le_trans hc hshort)) (pop_of_waiting hconsume) hleft
    simp [feedAll, hrefuses _ hlen, hconsume, hfeed]

/-! ## Limits on the buffer -/

/-- Of items whose encodings follow one another, those that end within the first `n` units. -/
def whole (enc : ι → List α) : List ι → ℕ → List ι
  | [], _ => []
  | x :: xs, n =>
    if (enc x).length ≤ n then x :: whole enc xs (n - (enc x).length) else []

/-- What a buffer holds when `n'` units have arrived and the items that were whole after the first
`n` have been taken off it. -/
def held (enc : ι → List α) (xs : List ι) (n n' : ℕ) : ℕ :=
  n' - ((whole enc xs n).flatMap enc).length

/-- An item that has arrived entirely is among the whole ones. -/
theorem whole_cons_of_le {x : ι} {n : ℕ} (h : (enc x).length ≤ n) :
    whole enc (x :: xs) n = x :: whole enc xs (n - (enc x).length) := by
  rw [whole, if_pos h]

/-- Behind an item that has not arrived entirely nothing is whole. -/
theorem whole_cons_of_lt {x : ι} {n : ℕ} (h : n < (enc x).length) : whole enc (x :: xs) n = [] := by
  rw [whole, if_neg (by omega)]

/-- Items that have arrived entirely can be taken off the front. -/
theorem whole_append (done left : List ι) (n : ℕ) :
    whole enc (done ++ left) ((done.flatMap enc).length + n) = done ++ whole enc left n := by
  induction done with
  | nil => simp
  | cons x done ih =>
    have hlen : ((x :: done).flatMap enc).length + n =
        (enc x).length + ((done.flatMap enc).length + n) := by
      rw [List.flatMap_cons, List.length_append]
      omega
    rw [hlen, List.cons_append, whole_cons_of_le (by omega), Nat.add_sub_cancel_left, ih]
    rfl

/-- What lies between two points of a stream does not depend on the items before both of them. -/
theorem held_append (done left : List ι) (n n' : ℕ) :
    held enc (done ++ left) ((done.flatMap enc).length + n) ((done.flatMap enc).length + n') =
      held enc left n n' := by
  unfold held
  rw [whole_append, List.flatMap_append, List.length_append]
  omega

/-- No more items are whole than were sent. -/
theorem length_whole_le (xs : List ι) (n : ℕ) : (whole enc xs n).length ≤ xs.length := by
  induction xs generalizing n with
  | nil => exact Nat.le_refl 0
  | cons x xs ih =>
    rw [whole]
    split
    · exact Nat.succ_le_succ (ih _)
    · exact Nat.zero_le _

/-- A beginning of encodings without a whole item is shorter than the first of them. -/
theorem whole_eq_nil {b t : List α} (hxs : ∀ x ∈ xs, D.Suits enc x) (hb : D.pop b = .incomplete)
    (h : b ++ t = xs.flatMap enc) : whole enc xs b.length = [] := by
  cases xs with
  | nil => rfl
  | cons x xs =>
    by_cases hlen : b.length < (enc x).length
    · exact whole_cons_of_lt hlen
    · rw [List.flatMap_cons] at h
      obtain ⟨c, hc, -⟩ := List.append_eq_append_iff.1 h |>.resolve_left fun ⟨q, hq, ht⟩ => by
        have hlonger := congrArg List.length hq
        rw [List.length_append] at hlonger
        have hq' : q = [] := List.eq_nil_of_length_eq_zero (by omega)
        have hpop := (hxs x (by simp)).whole []
        rw [List.append_nil, hq, hq', List.append_nil, hb] at hpop
        cases hpop
      rw [hc, (hxs x (by simp)).whole c] at hb
      cases hb

/-- Consuming a beginning of the encodings gives the items that are whole in it, and leaves what
is held of the next one. -/
theorem consume_whole {b t : List α} (hxs : ∀ x ∈ xs, D.Suits enc x)
    (h : b ++ t = xs.flatMap enc) :
    ∃ done left b', whole enc xs b.length = done ∧ xs = done ++ left ∧
      D.consume collect b = (done, .waiting b') ∧ b = done.flatMap enc ++ b' ∧
      b' ++ t = left.flatMap enc := by
  obtain ⟨done, left, b', hsplit, hconsume, hleft, -⟩ := consume_encoded hxs h
  have hb : b = done.flatMap enc ++ b' := by
    have hall : b ++ t = (done.flatMap enc ++ b') ++ t := by
      rw [h, hsplit, List.flatMap_append, ← hleft, List.append_assoc]
    exact List.append_cancel_right hall
  have hwhole : whole enc xs b.length = done := by
    have hnone := whole_eq_nil (fun x hx => hxs x (by simp [hsplit, hx])) (pop_of_waiting hconsume)
      hleft
    rw [hsplit, hb, List.length_append, whole_append, hnone, List.append_nil]
  exact ⟨done, left, b', hwhole, hsplit, hconsume, hb, hleft⟩

/-- How many units have arrived with the first `k` chunks. -/
def arrived (chunks : List (List α)) (k : ℕ) : ℕ := (chunks.take k).flatten.length

/-- Before the first chunk nothing has arrived. -/
theorem arrived_zero (chunks : List (List α)) : arrived chunks 0 = 0 := rfl

/-- After one more chunk its length has arrived as well. -/
theorem arrived_cons (chunk : List α) (chunks : List (List α)) (k : ℕ) :
    arrived (chunk :: chunks) (k + 1) = chunk.length + arrived chunks k := by
  simp [arrived]

/-- Of an empty stream nothing arrives. -/
theorem arrived_nil (k : ℕ) : arrived ([] : List (List α)) k = 0 := by
  simp [arrived]

/-- Never more arrives than the stream holds. -/
theorem arrived_le (chunks : List (List α)) (k : ℕ) :
    arrived chunks k ≤ chunks.flatten.length := by
  have hall := congrArg (fun cs => cs.flatten.length) (List.take_append_drop k chunks)
  simp only [List.flatten_append, List.length_append] at hall
  unfold arrived
  omega

/-- Feeding encodings to a decoder with a limit on its buffer fails exactly when, at some chunk
that the handler lets arrive, the buffer holds more than the limit. -/
theorem feedAll_refused_iff {refuses : List α → Option ε} {limit : ℕ} {e e' : ε}
    (hrefuses : ∀ c, refuses c = if limit < c.length then some e else none)
    (hxs : ∀ x ∈ xs, D.Suits enc x) (hb : D.pop b = .incomplete) (hroom : b.length ≤ limit)
    {chunks : List (List α)} (h : b ++ chunks.flatten = xs.flatMap enc) :
    (D.feedAll refuses handle b chunks).2 = .failed e' ↔
      e' = e ∧ ∃ k, (handled handle (whole enc xs (b.length + arrived chunks k))).2 = none ∧
        limit < held enc xs (b.length + arrived chunks k) (b.length + arrived chunks (k + 1)) := by
  have hnone := whole_eq_nil hxs hb h
  induction chunks generalizing b xs with
  | nil =>
    simp only [feedAll, arrived_nil, Nat.add_zero, held, hnone, List.flatMap_nil, List.length_nil,
      Nat.sub_zero]
    constructor
    · intro hfailed
      cases hfailed
    · rintro ⟨-, k, -, hk⟩
      omega
  | cons chunk chunks ih =>
    have h' : (b ++ chunk) ++ chunks.flatten = xs.flatMap enc := by simpa using h
    have hstart : held enc xs (b.length + arrived (chunk :: chunks) 0)
        (b.length + arrived (chunk :: chunks) 1) = (b ++ chunk).length := by
      rw [arrived_zero, arrived_cons, arrived_zero, Nat.add_zero, Nat.add_zero, held, hnone]
      simp
    by_cases hlimit : limit < (b ++ chunk).length
    · simp only [feedAll, hrefuses, if_pos hlimit]
      constructor
      · intro hfailed
        cases hfailed
        refine ⟨rfl, 0, ?_, ?_⟩
        · rw [arrived_zero, Nat.add_zero, hnone]
          rfl
        · rw [hstart]
          exact hlimit
      · rintro ⟨rfl, -⟩
        rfl
    · obtain ⟨done, left, b', -, rfl, hconsume, hbuffer, hleft⟩ := consume_whole hxs h'
      have hlen : b.length + chunk.length = (done.flatMap enc).length + b'.length := by
        have hlength := congrArg List.length hbuffer
        simpa only [List.length_append] using hlength
      have hlater : ∀ k, b.length + arrived (chunk :: chunks) (k + 1) =
          (done.flatMap enc).length + (b'.length + arrived chunks k) := by
        intro k
        rw [arrived_cons]
        omega
      have hsuits : ∀ x ∈ left, D.Suits enc x := fun x hx => hxs x (by simp [hx])
      have hwait := pop_of_waiting hconsume
      have hrest := ih hsuits hwait (by rw [List.length_append] at hlimit; omega) hleft
        (whole_eq_nil hsuits hwait hleft)
      simp only [feedAll, hrefuses, if_neg hlimit]
      rw [consume_eq_handled, hconsume]
      rcases hh : handled handle done with ⟨outputs, _ | s⟩
      · simp only [ended]
        refine hrest.trans (and_congr_right fun _ => ⟨?_, ?_⟩)
        · rintro ⟨k, hgoes, hk⟩
          refine ⟨k + 1, ?_, ?_⟩
          · rw [hlater, whole_append, handled_append, hh]
            exact hgoes
          · rw [hlater, hlater, held_append]
            exact hk
        · rintro ⟨k, hgoes, hk⟩
          cases k with
          | zero =>
            rw [hstart] at hk
            exact absurd hk hlimit
          | succ k =>
            rw [hlater, whole_append, handled_append, hh] at hgoes
            rw [hlater, hlater, held_append] at hk
            exact ⟨k, hgoes, hk⟩
      · simp only [ended]
        constructor
        · intro hfailed
          cases hfailed
        · rintro ⟨-, k, hgoes, hk⟩
          cases k with
          | zero =>
            rw [hstart] at hk
            exact absurd hk hlimit
          | succ k =>
            rw [hlater, whole_append, handled_append, hh] at hgoes
            cases hgoes

/-! ## Extending the buffer -/

/-- What the decoder has found out about a buffer stays so when more arrives: only an incomplete
item may turn out to be something else. -/
structure Stable (D : Decoder α ι ε) : Prop where
  item : ∀ b x rest more, D.pop b = .item x rest → D.pop (b ++ more) = .item x (rest ++ more)
  failed : ∀ b e more, D.pop b = .failed e → D.pop (b ++ more) = .failed e

/-- More input is consumed after what a consumer waits with, and not at all once it has ended. -/
theorem Stable.consume_append (hD : D.Stable) (b more : List α) :
    D.consume handle (b ++ more) =
      match D.consume handle b with
      | (outputs, .waiting b') =>
        (outputs ++ (D.consume handle (b' ++ more)).1, (D.consume handle (b' ++ more)).2)
      | ended => ended := by
  induction hn : b.length using Nat.strongRecOn generalizing b with
  | ind n ih =>
    cases hpop : D.pop b with
    | incomplete => simp [consume_incomplete hpop]
    | failed e =>
      have hmore := hD.failed b e more hpop
      simp [consume_failed hpop, consume_failed hmore]
    | item x rest =>
      have hmore := hD.item b x rest more hpop
      have hlt : rest.length < n := hn ▸ D.shorter _ _ _ hpop
      have hrest := ih rest.length hlt rest rfl
      rw [consume_item hpop, consume_item hmore]
      cases hx : handle x with
      | stop s => rfl
      | emit out =>
        simp only [hrest]
        rcases D.consume handle rest with ⟨outputs, b' | e | s⟩
        · simp [List.append_assoc]
        · rfl
        · rfl

/-- Feeding chunks to a stable decoder is consuming their concatenation at once. -/
theorem Stable.feedAll_eq_consume (hD : D.Stable) {refuses : List α → Option ε}
    {chunks : List (List α)} (hb : D.pop b = .incomplete)
    (hrefuses : ∀ c, c.length ≤ (b ++ chunks.flatten).length → refuses c = none) :
    D.feedAll refuses handle b chunks = D.consume handle (b ++ chunks.flatten) := by
  induction chunks generalizing b with
  | nil => simp [feedAll, consume_incomplete hb]
  | cons chunk chunks ih =>
    have hflatten : b ++ (chunk :: chunks).flatten = (b ++ chunk) ++ chunks.flatten := by simp
    have hlen : (b ++ chunk).length ≤ (b ++ (chunk :: chunks).flatten).length := by
      simp only [hflatten, List.length_append]
      omega
    rw [hflatten, hD.consume_append (b ++ chunk)]
    simp only [feedAll, hrefuses _ hlen]
    rcases hc : D.consume handle (b ++ chunk) with ⟨outputs, b' | e | s⟩
    · -- what is left waits at the end of what has arrived, so it is no longer
      have hleft : b'.length ≤ (b ++ chunk).length := length_of_waiting hc
      have hrest := ih (b := b') (pop_of_waiting hc) fun c hle => hrefuses c (by
        rw [hflatten]
        simp only [List.length_append] at hle hleft ⊢
        omega)
      simp only [hrest]
    · rfl
    · rfl

end Decoder

end Interactive
