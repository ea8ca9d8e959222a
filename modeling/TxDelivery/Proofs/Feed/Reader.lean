import Mathlib.Algebra.Group.Nat.Defs
import Mathlib.Data.List.Basic
import Mathlib.Data.List.Induction
import TxDelivery.Proofs.Feed

/-!
# What each subscriber receives

A feed keeps the last events for all its subscribers together, and moves each of them through these
by a position. Seen by one subscriber (`TxDelivery.Feed.Reader`) there is only the list of the
events published since it subscribed, and how far it has come in it: **of these events the last ones
are held, as many as the feed keeps, less those the subscriber has moved past**, and it receives
them one after another (`TxDelivery.Feed.serves_readers`). So it receives a part of what it was
sent, in order and nothing twice, and all of it unless it falls further behind than the feed reaches
back.

## Readers and the feed

A reader is read off a run without the feed (`TxDelivery.Feed.Reader.ofRun?`): only the events
published, and what came of the subscriber's own actions, count. What other subscribers do, and when
they come and go, does not enter. That this is right is a simulation. There is one list of all
events ever published, of which the feed keeps an end, and each subscriber reads along an end of its
own (`TxDelivery.Feed.Placed`); the feed and all its readers together are in order if this list
exists (`TxDelivery.Feed.Serves`), and every step keeps it so (`TxDelivery.Feed.Serves.step`).

The list of all events is hidden behind a quantifier, since nothing can be asked of it but its ends.
It is what the positions count, and it lets the number of events lost be a subtraction.

## What is missed

A reader moves past the events it receives and past those that were dropped before it came to them.
The first are what it received and the second are counted (`TxDelivery.Feed.Reader.Sound`), so a
reader that missed nothing received all it moved past, and one that never falls further behind than
the feed reaches back misses nothing (`TxDelivery.Feed.Reader.missed_eq_zero`).

Taking everything at once is taking one event after another
(`TxDelivery.Feed.Sound.drain_of_receive`), and waiting for an event is taking it if there is one.
-/

namespace TxDelivery

/-! ### Capacities -/

/-- The capacity is a power of two. -/
theorem exists_nextPowerOfTwo_eq (n : Nat) : ∃ k, nextPowerOfTwo n = 2 ^ k := by
  unfold nextPowerOfTwo
  split
  · exact ⟨0, rfl⟩
  · exact ⟨_, rfl⟩

/-- The capacity is not below what was asked for. -/
theorem le_nextPowerOfTwo (n : Nat) : n ≤ nextPowerOfTwo n := by
  unfold nextPowerOfTwo
  split
  case isTrue h => exact h
  case isFalse h =>
    have hlt : n - 1 < 2 ^ ((n - 1).log2 + 1) := Nat.lt_log2_self
    show n ≤ 2 ^ ((n - 1).log2 + 1)
    omega

/-- No smaller power of two would do. -/
theorem nextPowerOfTwo_le {n k : Nat} (h : n ≤ 2 ^ k) : nextPowerOfTwo n ≤ 2 ^ k := by
  unfold nextPowerOfTwo
  split
  case isTrue => exact Nat.one_le_two_pow
  case isFalse hn =>
    have hlog : (n - 1).log2 < k := (Nat.log2_lt (by omega)).mpr (by omega)
    exact Nat.pow_le_pow_right (by decide) hlog

namespace Feed

variable {α : Type}

/-! ### Runs of a feed -/

/-- What can be done with a feed and its subscriptions. -/
inductive Action (α : Type) where
  /-- An event is published. -/
  | publish (event : α)
  /-- Somebody subscribes. -/
  | subscribe
  /-- A subscriber takes the next event, if there is one. -/
  | receive (id : SubscriptionId)
  /-- A subscriber that waits for the next event looks for it once. -/
  | poll (id : SubscriptionId)
  /-- A subscriber takes everything held for it. -/
  | drain (id : SubscriptionId)
  /-- A subscription ends. -/
  | unsubscribe (id : SubscriptionId)
  /-- The feed ends. -/
  | close
  deriving DecidableEq, Repr

/-- What comes of it. -/
inductive Answer (α : Type) where
  /-- The event goes to so many subscribers. -/
  | published (subscribers : Nat)
  /-- The subscription has this name. -/
  | subscribed (id : SubscriptionId)
  /-- The next event. -/
  | received (event : Option α)
  /-- What a waiting subscriber learns. -/
  | polled (result : Poll α)
  /-- The events that were held. -/
  | drained (events : List α)
  /-- Nothing. -/
  | done
  deriving DecidableEq, Repr

/-- The event a waiting subscriber learns of. -/
def Poll.event? : Poll α → Option α
  | event e => some e
  | pending | closed => none

/-- The events that come with an answer. -/
def Answer.events : Answer α → List α
  | received event => event.toList
  | polled result => result.event?.toList
  | drained events => events
  | published _ | subscribed _ | done => []

/-- **Something is done with a feed.** A feed that ended takes no events and no subscribers, and
only subscriptions that have begun and not ended can be used. -/
def act? (f : Feed α) : Action α → Option (Answer α × Feed α)
  | .publish event => if f.alive then some (.published f.subscribers, f.publish event) else none
  | .subscribe => if f.alive then some (.subscribed f.subscribe.1, f.subscribe.2) else none
  | .receive id =>
    if (f.cursor? id).isSome then some (.received (f.receive id).1, (f.receive id).2) else none
  | .poll id => if (f.cursor? id).isSome then some (.polled (f.poll id).1, (f.poll id).2) else none
  | .drain id =>
    if (f.cursor? id).isSome then some (.drained (f.drain id).1, (f.drain id).2) else none
  | .unsubscribe id => if (f.cursor? id).isSome then some (.done, f.unsubscribe id) else none
  | .close => if f.alive then some (.done, f.close) else none

/-- **A run of a feed**: what was done and what came of it, one after another. -/
def run? (f : Feed α) : List (Action α) → Option (List (Action α × Answer α) × Feed α)
  | [] => some ([], f)
  | a :: as => do
    let (answer, g) ← f.act? a
    let (steps, h) ← run? g as
    some ((a, answer) :: steps, h)

/-! ### Readers -/

/-- **What one subscriber was sent, and how far it has come.** -/
structure Reader (α : Type) where
  /-- The events published since it subscribed. -/
  sent : List α
  /-- How many of them it has moved past. -/
  position : Nat
  /-- The events it received. -/
  received : List α
  /-- How many events it has moved past without receiving them. -/
  missed : Nat
  deriving DecidableEq, Repr

namespace Reader

/-- A subscriber that has just subscribed. -/
def start : Reader α := ⟨[], 0, [], 0⟩

/-- The place of the oldest event that is held, by a feed that keeps `capacity` events. -/
def next (capacity : Nat) (r : Reader α) : Nat := max r.position (r.sent.length - capacity)

/-- One more event is published. -/
def send (r : Reader α) (event : α) : Reader α := { r with sent := r.sent ++ [event] }

/-- The subscriber receives events, from the oldest held on, and moves just past them. -/
def take (capacity : Nat) (r : Reader α) (events : List α) : Reader α :=
  { r with
    position := r.next capacity + events.length
    received := r.received ++ events
    missed := r.missed + (r.next capacity - r.position) }

/-- **What a step of a run means for one subscriber**, if it is one. -/
def after (capacity : Nat) (id : SubscriptionId) (reader : Option (Reader α)) :
    Action α × Answer α → Option (Reader α)
  | (.publish event, _) => reader.map (·.send event)
  | (.subscribe, .subscribed id') => if id' = id then some start else reader
  | (.subscribe, _) => reader
  | (.receive id', answer) | (.poll id', answer) | (.drain id', answer) =>
    if id' = id then reader.map (·.take capacity answer.events) else reader
  | (.unsubscribe id', _) => if id' = id then none else reader
  | (.close, _) => reader

/-- **A subscriber at the end of a run**, if it is one. -/
def ofRun? (capacity : Nat) (id : SubscriptionId) (steps : List (Action α × Answer α)) :
    Option (Reader α) :=
  steps.foldl (after capacity id) none

variable {capacity : Nat} {id : SubscriptionId} {r : Reader α} {event : α}
  {steps : List (Action α × Answer α)}

theorem ofRun?_concat (step : Action α × Answer α) :
    ofRun? capacity id (steps ++ [step]) = after capacity id (ofRun? capacity id steps) step := by
  simp [ofRun?]

/-- **What a subscriber received is a part of what it moved past**, in order and nothing twice; the
rest of that it missed. -/
structure Sound (r : Reader α) : Prop where
  /-- A subscriber is not ahead of what it was sent. -/
  position_le : r.position ≤ r.sent.length
  /-- What it received was sent, in this order. -/
  received : r.received.Sublist (r.sent.take r.position)
  /-- What it moved past it received or missed. -/
  missed : r.received.length + r.missed = r.position

theorem sound_start : (start : Reader α).Sound := ⟨Nat.le_refl _, List.Sublist.refl _, rfl⟩

theorem Sound.send (hr : r.Sound) : (r.send event).Sound := by
  refine ⟨?_, ?_, hr.missed⟩
  · rw [Reader.send, List.length_append]
    exact Nat.le_trans hr.position_le (Nat.le_add_right _ _)
  · rw [Reader.send, List.take_append_of_le_length hr.position_le]
    exact hr.received

theorem Sound.next_le (hr : r.Sound) : r.next capacity ≤ r.sent.length :=
  Nat.max_le.mpr ⟨hr.position_le, Nat.sub_le _ _⟩

/-- A subscriber that receives events held for it, from the oldest on, goes on soundly. -/
theorem Sound.take (hr : r.Sound) {n : Nat} (hn : r.next capacity + n ≤ r.sent.length) :
    (r.take capacity ((r.sent.drop (r.next capacity)).take n)).Sound := by
  have hposition : r.position ≤ r.next capacity := Nat.le_max_left _ _
  have hlength : ((r.sent.drop (r.next capacity)).take n).length = n := by
    rw [List.length_take, List.length_drop]
    omega
  refine ⟨?_, ?_, ?_⟩
  · rw [Reader.take, hlength]
    exact hn
  · rw [Reader.take, hlength, List.take_add]
    refine (hr.received.trans ?_).append (List.Sublist.refl _)
    rw [← Nat.add_sub_cancel' hposition, List.take_add]
    exact List.sublist_append_left _ _
  · have hmissed := hr.missed
    simp only [Reader.take, List.length_append, hlength]
    omega

/-- A subscriber that missed nothing received all it moved past. -/
theorem Sound.received_eq (hr : r.Sound) (hmissed : r.missed = 0) :
    r.received = r.sent.take r.position := by
  refine hr.received.eq_of_length ?_
  have hlength := hr.missed
  have hposition := hr.position_le
  rw [List.length_take]
  omega

/-- **A subscriber that never falls further behind than the feed reaches back misses nothing.** -/
theorem missed_eq_zero
    (hbehind : ∀ steps' r', steps' <+: steps → ofRun? capacity id steps' = some r' →
      r'.sent.length ≤ r'.position + capacity)
    (h : ofRun? capacity id steps = some r) : r.missed = 0 := by
  induction steps using List.reverseRecOn generalizing r with
  | nil => simp [ofRun?] at h
  | append_singleton steps step ih =>
    have hpre : steps <+: steps ++ [step] := List.prefix_append _ _
    have hbefore {r' : Reader α} (hr' : ofRun? capacity id steps = some r') : r'.missed = 0 :=
      ih (fun steps' r' hsteps' => hbehind steps' r' (hsteps'.trans hpre)) hr'
    have hmap {f : Reader α → Reader α}
        (hf : ∀ r', ofRun? capacity id steps = some r' → (f r').missed = r'.missed)
        (hr : (ofRun? capacity id steps).map f = some r) : r.missed = 0 := by
      obtain ⟨r', hr', rfl⟩ := Option.map_eq_some_iff.mp hr
      rw [hf r' hr', hbefore hr']
    have htake (events : List α)
        (hr : (ofRun? capacity id steps).map (·.take capacity events) = some r) : r.missed = 0 := by
      refine hmap (fun r' hr' => ?_) hr
      have hle := hbehind steps r' hpre hr'
      simp only [take, next]
      omega
    rw [ofRun?_concat] at h
    unfold after at h
    split at h
    case h_1 event _ => exact hmap (f := (·.send event)) (fun _ _ => rfl) h
    case h_2 =>
      split at h
      · obtain rfl := Option.some.inj h
        rfl
      · exact hbefore h
    case h_3 | h_8 => exact hbefore h
    case h_4 | h_5 | h_6 =>
      split at h
      · exact htake _ h
      · exact hbefore h
    case h_7 =>
      split at h
      · contradiction
      · exact hbefore h

end Reader

/-! ### Feeds and their readers -/

variable {f g : Feed α} {all : List α} {id id' : SubscriptionId} {event : α} {p : Nat}
  {readers : SubscriptionId → Option (Reader α)} {r : Reader α}

/-- A subscriber receives the first event held for it, and moves just past it. -/
theorem receive_eq (h : f.cursor? id = some p) :
    f.receive id = ((f.held id).head?,
      f.seek id (max p f.oldest + (f.held id).head?.toList.length)) := by
  have hhead : (f.held id).head? = f.retained[max p f.oldest - f.oldest]? := by
    rw [held_of_cursor? h, List.head?_drop]
    congr 1
    omega
  rw [hhead]
  simp only [receive, h]
  cases hevent : f.retained[max p f.oldest - f.oldest]? <;> simp

/-- Taking an event changes nothing but a position. -/
theorem fixed_receive (f : Feed α) (id : SubscriptionId) :
    (f.receive id).2.capacity = f.capacity ∧ (f.receive id).2.alive = f.alive := by
  unfold receive
  split
  · exact ⟨rfl, rfl⟩
  · dsimp only
    split <;> exact ⟨rfl, rfl⟩

/-- **Waiting for an event is taking it if there is one**; if there is none, a subscriber learns
whether more can come. -/
theorem poll_eq (f : Feed α) (id : SubscriptionId) :
    f.poll id = (match (f.receive id).1 with
      | some e => .event e
      | none => if f.alive then .pending else .closed, (f.receive id).2) := by
  rw [← (fixed_receive f id).2]
  unfold poll
  cases f.receive id with
  | mk event g => cases event <;> rfl

theorem snd_poll (f : Feed α) (id : SubscriptionId) : (f.poll id).2 = (f.receive id).2 :=
  (Prod.ext_iff.mp (poll_eq f id)).2

theorem event?_poll (f : Feed α) (id : SubscriptionId) :
    (f.poll id).1.event? = (f.receive id).1 := by
  rw [poll_eq]
  cases (f.receive id).1 with
  | some e => rfl
  | none =>
    dsimp only
    split <;> rfl

theorem drain_eq (h : f.cursor? id = some p) :
    f.drain id = (f.held id, f.seek id (max p f.published)) := by
  simp only [drain, h]

/-- **How a subscriber stands in a feed that published `all`.** It was sent an end of that, and its
position is counted from where this end begins. -/
def Placed (f : Feed α) (all : List α) (id : SubscriptionId) : Option (Reader α) → Prop
  | none => f.cursor? id = none
  | some r => r.Sound ∧ r.sent <:+ all ∧
      f.cursor? id = some (f.published - r.sent.length + r.position)

/-- A subscriber that is not moved stands where it should. -/
theorem Placed.congr {reader : Option (Reader α)} (h : f.Placed all id reader)
    (hcursor : g.cursor? id = f.cursor? id) (hpublished : g.published = f.published) :
    g.Placed all id reader := by
  cases reader with
  | none => exact hcursor.trans h
  | some r => exact ⟨h.1, h.2.1, hcursor.trans (hpublished ▸ h.2.2)⟩

/-- **A feed serves its readers**: it keeps the end of what was published, and every subscriber
stands where it should. -/
structure Serves (f : Feed α) (all : List α) (readers : SubscriptionId → Option (Reader α)) :
    Prop where
  /-- Names are fresh. -/
  sound : f.Sound
  /-- All events are counted. -/
  published : f.published = all.length
  /-- The last events are kept. -/
  retained : f.retained = all.drop (all.length - f.capacity)
  /-- Subscribers stand where they should. -/
  placed : ∀ id, f.Placed all id (readers id)

namespace Serves

theorem cursor? (h : f.Serves all readers) (hr : readers id = some r) :
    r.Sound ∧ r.sent <:+ all ∧ f.cursor? id = some (f.published - r.sent.length + r.position) := by
  have hplaced := h.placed id
  rwa [hr] at hplaced

theorem cursor?_eq_none (h : f.Serves all readers) (hr : readers id = none) :
    f.cursor? id = none := by
  have hplaced := h.placed id
  rwa [hr] at hplaced

theorem oldest (h : f.Serves all readers) : f.oldest = all.length - f.capacity := by
  rw [Feed.oldest, h.published, h.retained, List.length_drop]
  omega

/-- **What is held for a subscriber**: of the events it was sent the last ones, as many as the feed
keeps, less those it has moved past. -/
theorem held (h : f.Serves all readers) (hr : readers id = some r) :
    f.held id = r.sent.drop (r.next f.capacity) := by
  obtain ⟨hsound, ⟨before, rfl⟩, hcursor⟩ := h.cursor? hr
  have hposition := hsound.position_le
  rw [held_of_cursor? hcursor, h.oldest, h.published, h.retained, List.drop_drop]
  have hplace : (before ++ r.sent).length - f.capacity + ((before ++ r.sent).length -
      r.sent.length + r.position - ((before ++ r.sent).length - f.capacity)) =
      before.length + r.next f.capacity := by
    rw [List.length_append, Reader.next]
    omega
  rw [hplace, ← List.drop_drop, List.drop_left]

/-- A subscriber that takes events held for it, from the oldest on. -/
theorem seek (h : f.Serves all readers) (hr : readers id = some r) {events : List α}
    (hevents : events = (f.held id).take events.length)
    (hp : p = f.published - r.sent.length + (r.take f.capacity events).position) :
    (f.seek id p).Serves all fun id' =>
      if id = id' then (readers id').map (·.take f.capacity events) else readers id' := by
  obtain ⟨hsound, hsent, hcursor⟩ := h.cursor? hr
  have hnext : r.next f.capacity ≤ r.sent.length := hsound.next_le
  refine ⟨h.sound.seek, h.published, h.retained, fun id' => ?_⟩
  by_cases hid : id = id'
  · subst hid
    rw [if_pos rfl, hr, Option.map_some]
    refine ⟨?_, hsent, ?_⟩
    · have hlength : r.next f.capacity + events.length ≤ r.sent.length := by
        have hle := congrArg List.length hevents
        rw [h.held hr, List.length_take, List.length_drop] at hle
        omega
      rw [h.held hr] at hevents
      rw [hevents]
      exact hsound.take hlength
    · rw [cursor?_seek, if_pos rfl, hcursor, Option.map_some, hp]
      rfl
  · rw [if_neg hid]
    exact (h.placed id').congr ((cursor?_seek f id' id p).trans (if_neg hid)) rfl

/-- An event is published to all who have subscribed. -/
theorem publish (h : f.Serves all readers) :
    ∃ all', (f.publish event).Serves all' fun id => (readers id).map (·.send event) := by
  by_cases hempty : f.cursors.isEmpty
  · -- Nobody has subscribed, and the event is forgotten.
    have hnone (id : SubscriptionId) : readers id = none := by
      cases hr : readers id with
      | none => rfl
      | some r =>
        obtain ⟨-, -, hcursor⟩ := h.cursor? hr
        rw [List.isEmpty_iff] at hempty
        simp [Feed.cursor?, hempty] at hcursor
    refine ⟨all, ?_⟩
    rw [Feed.publish, if_pos hempty]
    refine ⟨h.sound, h.published, h.retained, fun id => ?_⟩
    rw [hnone id]
    exact h.cursor?_eq_none (hnone id)
  · have hpublished : (f.publish event).published = f.published + 1 := by
      rw [Feed.publish, if_neg hempty]
    refine ⟨all ++ [event], h.sound.publish, ?_, ?_, fun id => ?_⟩
    · rw [hpublished, h.published, List.length_append, List.length_singleton]
    · rw [Feed.publish, if_neg hempty]
      have hle : all.length - f.capacity ≤ all.length := Nat.sub_le _ _
      simp only [h.retained, ← List.drop_append_of_le_length hle, List.drop_drop, List.length_drop,
        List.length_append, List.length_singleton]
      congr 1
      omega
    · cases hr : readers id with
      | none => exact (cursor?_publish f id event).trans (h.cursor?_eq_none hr)
      | some r =>
        obtain ⟨hsound, ⟨before, hsent⟩, hcursor⟩ := h.cursor? hr
        refine ⟨hsound.send, ⟨before, ?_⟩, (cursor?_publish f id event).trans ?_⟩
        · rw [← hsent, List.append_assoc]
          rfl
        · have hlength : (r.send event).sent.length = r.sent.length + 1 := List.length_append
          rw [hcursor, hpublished, hlength, Nat.add_sub_add_right]
          rfl

/-- A new subscriber has been sent nothing yet. -/
theorem subscribe (h : f.Serves all readers) :
    f.subscribe.2.Serves all fun id => if f.nextId = id then some .start else readers id := by
  refine ⟨h.sound.subscribe, h.published, h.retained, fun id => ?_⟩
  by_cases hid : f.nextId = id
  · subst hid
    rw [if_pos rfl]
    exact ⟨Reader.sound_start, List.nil_suffix, h.sound.cursor?_subscribe_self⟩
  · rw [if_neg hid]
    exact (h.placed id).congr (cursor?_subscribe_of_ne hid) rfl

/-- A subscription that ends concerns nobody else. -/
theorem unsubscribe (h : f.Serves all readers) (id : SubscriptionId) :
    (f.unsubscribe id).Serves all fun id' => if id = id' then none else readers id' := by
  refine ⟨h.sound.unsubscribe, h.published, h.retained, fun id' => ?_⟩
  by_cases hid : id = id'
  · subst hid
    rw [if_pos rfl]
    exact cursor?_unsubscribe_self
  · rw [if_neg hid]
    exact (h.placed id').congr (cursor?_unsubscribe hid) rfl

/-- A feed that ends keeps what it has. -/
theorem close (h : f.Serves all readers) : f.close.Serves all readers :=
  ⟨⟨h.sound.fresh, h.sound.bounded⟩, h.published, h.retained, fun id => (h.placed id).congr rfl rfl⟩

/-- **The next event**: a subscriber receives the oldest one held for it. -/
theorem receive (h : f.Serves all readers) (hr : readers id = some r) :
    (f.receive id).1 = (f.held id).head? ∧ (f.receive id).2.Serves all fun id' =>
      if id = id' then (readers id').map (·.take f.capacity (f.receive id).1.toList)
      else readers id' := by
  obtain ⟨-, hsent, hcursor⟩ := h.cursor? hr
  have hlength := hsent.length_le
  rw [receive_eq hcursor]
  refine ⟨rfl, h.seek hr ?_ ?_⟩
  · cases f.held id <;> simp
  · rw [← h.published] at hlength
    rw [h.oldest, ← h.published]
    simp only [Reader.take, Reader.next]
    omega

/-- **Everything at once**: a subscriber receives all that is held for it. -/
theorem drain (h : f.Serves all readers) (hr : readers id = some r) :
    (f.drain id).1 = f.held id ∧ (f.drain id).2.Serves all fun id' =>
      if id = id' then (readers id').map (·.take f.capacity (f.drain id).1) else readers id' := by
  obtain ⟨hsound, hsent, hcursor⟩ := h.cursor? hr
  have hlength := hsent.length_le
  have hheld := congrArg List.length (h.held hr)
  have hnext : r.next f.capacity ≤ r.sent.length := hsound.next_le
  rw [drain_eq hcursor]
  refine ⟨rfl, h.seek hr List.take_length.symm ?_⟩
  rw [← h.published] at hlength
  rw [List.length_drop] at hheld
  simp only [Reader.take, hheld]
  have hposition : r.position ≤ r.next f.capacity := Nat.le_max_left _ _
  omega

/-- Whoever has a subscription is a reader. -/
theorem exists_reader (h : f.Serves all readers) (hid : (f.cursor? id).isSome = true) :
    ∃ r, readers id = some r := by
  cases hr : readers id with
  | none => simp [h.cursor?_eq_none hr] at hid
  | some r => exact ⟨r, rfl⟩

end Serves

/-! ### Steps and runs -/

/-- What no step of a run changes, and what ends a feed. -/
theorem fixed_of_act? {a : Action α} {answer : Answer α} (h : f.act? a = some (answer, g)) :
    g.capacity = f.capacity ∧ (g.alive = true ↔ f.alive = true ∧ a ≠ .close) := by
  cases a with
  | close =>
    obtain ⟨-, h⟩ := Option.ite_none_right_eq_some.mp h
    obtain ⟨-, rfl⟩ := Prod.mk.inj (Option.some.inj h)
    exact ⟨rfl, by simp [Feed.close]⟩
  | subscribe | unsubscribe =>
    obtain ⟨-, h⟩ := Option.ite_none_right_eq_some.mp h
    obtain ⟨-, rfl⟩ := Prod.mk.inj (Option.some.inj h)
    exact ⟨rfl, by simp [Feed.subscribe, Feed.unsubscribe]⟩
  | publish event =>
    obtain ⟨-, h⟩ := Option.ite_none_right_eq_some.mp h
    obtain ⟨-, rfl⟩ := Prod.mk.inj (Option.some.inj h)
    unfold Feed.publish
    split <;> exact ⟨rfl, by simp⟩
  | receive id =>
    obtain ⟨-, h⟩ := Option.ite_none_right_eq_some.mp h
    obtain ⟨-, rfl⟩ := Prod.mk.inj (Option.some.inj h)
    exact ⟨(fixed_receive f id).1, by simp [(fixed_receive f id).2]⟩
  | poll id =>
    obtain ⟨-, h⟩ := Option.ite_none_right_eq_some.mp h
    obtain ⟨-, rfl⟩ := Prod.mk.inj (Option.some.inj h)
    rw [snd_poll]
    exact ⟨(fixed_receive f id).1, by simp [(fixed_receive f id).2]⟩
  | drain id =>
    obtain ⟨hid, h⟩ := Option.ite_none_right_eq_some.mp h
    obtain ⟨-, rfl⟩ := Prod.mk.inj (Option.some.inj h)
    obtain ⟨p, hp⟩ := Option.isSome_iff_exists.mp hid
    rw [drain_eq hp]
    exact ⟨rfl, by simp [Feed.seek]⟩

/-- **A feed goes on serving its readers**, whatever is done with it. -/
theorem Serves.step (h : f.Serves all readers) {a : Action α} {answer : Answer α}
    (hstep : f.act? a = some (answer, g)) :
    ∃ all', g.Serves all' fun id => Reader.after f.capacity id (readers id) (a, answer) := by
  cases a with
  | publish event =>
    obtain ⟨-, hstep⟩ := Option.ite_none_right_eq_some.mp hstep
    obtain ⟨rfl, rfl⟩ := Prod.mk.inj (Option.some.inj hstep)
    exact h.publish
  | subscribe =>
    obtain ⟨-, hstep⟩ := Option.ite_none_right_eq_some.mp hstep
    obtain ⟨rfl, rfl⟩ := Prod.mk.inj (Option.some.inj hstep)
    exact ⟨all, h.subscribe⟩
  | receive id =>
    obtain ⟨hid, hstep⟩ := Option.ite_none_right_eq_some.mp hstep
    obtain ⟨rfl, rfl⟩ := Prod.mk.inj (Option.some.inj hstep)
    obtain ⟨r, hr⟩ := h.exists_reader hid
    exact ⟨all, (h.receive hr).2⟩
  | poll id =>
    obtain ⟨hid, hstep⟩ := Option.ite_none_right_eq_some.mp hstep
    obtain ⟨rfl, rfl⟩ := Prod.mk.inj (Option.some.inj hstep)
    obtain ⟨r, hr⟩ := h.exists_reader hid
    have hserves := (h.receive hr).2
    rw [← event?_poll, ← snd_poll] at hserves
    exact ⟨all, hserves⟩
  | drain id =>
    obtain ⟨hid, hstep⟩ := Option.ite_none_right_eq_some.mp hstep
    obtain ⟨rfl, rfl⟩ := Prod.mk.inj (Option.some.inj hstep)
    obtain ⟨r, hr⟩ := h.exists_reader hid
    exact ⟨all, (h.drain hr).2⟩
  | unsubscribe id =>
    obtain ⟨hid, hstep⟩ := Option.ite_none_right_eq_some.mp hstep
    obtain ⟨rfl, rfl⟩ := Prod.mk.inj (Option.some.inj hstep)
    exact ⟨all, h.unsubscribe id⟩
  | close =>
    obtain ⟨-, hstep⟩ := Option.ite_none_right_eq_some.mp hstep
    obtain ⟨rfl, rfl⟩ := Prod.mk.inj (Option.some.inj hstep)
    exact ⟨all, h.close⟩

/-- **A feed serves its readers through every run.** -/
theorem Serves.run (h : f.Serves all readers) {as : List (Action α)}
    {steps : List (Action α × Answer α)} (hrun : f.run? as = some (steps, g)) :
    (g.alive = true ↔ f.alive = true ∧ .close ∉ as) ∧ g.capacity = f.capacity ∧
      ∃ all', g.Serves all' fun id => steps.foldl (Reader.after f.capacity id) (readers id) := by
  induction as generalizing f all readers steps with
  | nil =>
    obtain ⟨rfl, rfl⟩ := Prod.mk.inj (Option.some.inj hrun)
    exact ⟨by simp, rfl, all, h⟩
  | cons a as ih =>
    obtain ⟨⟨answer, f'⟩, hstep, hrun⟩ := Option.bind_eq_some_iff.mp hrun
    obtain ⟨⟨steps', g'⟩, hrun', hrun⟩ := Option.bind_eq_some_iff.mp hrun
    obtain ⟨rfl, rfl⟩ := Prod.mk.inj (Option.some.inj hrun)
    obtain ⟨hcapacity, halive⟩ := fixed_of_act? hstep
    obtain ⟨all', h'⟩ := h.step hstep
    obtain ⟨halive', hcapacity', all'', h''⟩ := ih h' hrun'
    refine ⟨?_, hcapacity'.trans hcapacity, all'', hcapacity ▸ h''⟩
    rw [halive', halive, and_assoc, List.mem_cons, not_or]
    exact and_congr_right fun _ => and_congr_left fun _ => ne_comm

/-- A new feed has no readers. -/
theorem serves_of_create? {capacity : Nat} (h : create? capacity = some f) :
    f.capacity = nextPowerOfTwo capacity ∧ f.alive = true ∧ f.Serves [] fun _ => none := by
  obtain ⟨-, h⟩ := Option.ite_none_left_eq_some.mp h
  obtain rfl := Option.some.inj h
  exact ⟨rfl, rfl, ⟨by simp, by simp⟩, rfl, List.drop_nil.symm, fun id => rfl⟩

/-! ### Receiving one by one and all at once -/

theorem seek_seek (f : Feed α) (id : SubscriptionId) (p q : Nat) :
    (f.seek id p).seek id q = f.seek id q := by
  have hname (c : SubscriptionId × Nat) :
      (if (if c.1 == id then (id, p) else c).1 == id then (id, q)
        else if c.1 == id then (id, p) else c) = if c.1 == id then (id, q) else c := by
    split <;> simp_all
  simp only [seek, List.map_map]
  congr 2
  funext c
  exact hname c

/-- **Taking everything is taking one event after another.** -/
theorem Sound.drain_of_receive (hf : f.Sound) (hp : f.cursor? id = some p)
    (h : f.receive id = (some event, g)) :
    f.drain id = (event :: (g.drain id).1, (g.drain id).2) := by
  have hheld := held_of_receive h
  have hg : f.seek id (max p f.oldest + 1) = g := by
    rw [receive_eq hp, hheld] at h
    exact (Prod.mk.inj h).2
  have hcursor : g.cursor? id = some (max p f.oldest + 1) := by
    rw [← hg, cursor?_seek, if_pos rfl, hp, Option.map_some]
  -- The event is held, so that the subscriber is not past all of them.
  have hlt : max p f.oldest < f.published := by
    have hbounded := hf.bounded
    have hlength := congrArg List.length hheld
    rw [held_of_cursor? hp, List.length_drop, List.length_cons] at hlength
    rw [oldest] at hlength ⊢
    omega
  have hpublished : g.published = f.published := by rw [← hg]; rfl
  rw [drain_eq hp, drain_eq hcursor, hheld, hpublished, ← hg, seek_seek]
  congr 2
  omega

/-- Taking everything when nothing is held. -/
theorem Sound.drain_of_receive_none (hf : f.Sound) (hp : f.cursor? id = some p)
    (h : (f.receive id).1 = none) : f.drain id = ([], (f.receive id).2) := by
  rw [receive_eq hp] at h ⊢
  have hheld := List.head?_eq_none_iff.mp h
  have hbounded := hf.bounded
  have hlength := congrArg List.length hheld
  rw [held_of_cursor? hp, List.length_drop, List.length_nil, oldest] at hlength
  rw [drain_eq hp, hheld, oldest]
  refine congrArg (Prod.mk []) (congrArg (f.seek id) ?_)
  simp only [List.head?_nil, Option.toList_none, List.length_nil]
  omega

/-- **What each subscriber receives.** A feed that is to keep some events keeps as many as the
smallest power of two not below their number. In every run of it, and for every subscription,
of which `sent` is what was published since it began and `position` how many of these events the
subscriber has moved past,

* the events held are those of `sent` from its position on, but no more than the feed keeps;
* the next event it receives is the first of these, after which the rest is held, and it makes no
  difference whether it waits for an event or looks for one; a waiting subscriber learns that
  nothing is held, and whether the feed has ended, only if nothing is held;
* it has received a part of what it was sent, in order and nothing twice, and missed the rest of
  what it has moved past; as long as it is never further behind than the feed keeps events, it has
  missed nothing. -/
theorem serves_readers {capacity : Nat} (hcapacity : 1 ≤ capacity) :
    (∃ k, nextPowerOfTwo capacity = 2 ^ k) ∧ capacity ≤ nextPowerOfTwo capacity ∧
    (∀ k, capacity ≤ 2 ^ k → nextPowerOfTwo capacity ≤ 2 ^ k) ∧
    ∃ f : Feed α, create? capacity = some f ∧ ∀ as steps g, f.run? as = some (steps, g) →
      (g.alive = true ↔ .close ∉ as) ∧
      ∀ id, (Reader.ofRun? (nextPowerOfTwo capacity) id steps = none ↔ g.cursor? id = none) ∧
        ∀ r, Reader.ofRun? (nextPowerOfTwo capacity) id steps = some r →
          g.held id = r.sent.drop (max r.position (r.sent.length - nextPowerOfTwo capacity)) ∧
          (g.receive id).1 = (g.held id).head? ∧
          (∀ event h, g.receive id = (some event, h) → g.held id = event :: h.held id) ∧
          g.poll id = (match (g.held id).head? with
            | some event => .event event
            | none => if g.alive then .pending else .closed, (g.receive id).2) ∧
          (g.drain id).1 = g.held id ∧
          (∀ event h, g.receive id = (some event, h) →
            g.drain id = (event :: (h.drain id).1, (h.drain id).2)) ∧
          ((g.receive id).1 = none → g.drain id = ([], (g.receive id).2)) ∧
          r.received.Sublist (r.sent.take r.position) ∧
          r.received.length + r.missed = r.position ∧
          ((∀ steps' r', steps' <+: steps →
            Reader.ofRun? (nextPowerOfTwo capacity) id steps' = some r' →
            r'.sent.length ≤ r'.position + nextPowerOfTwo capacity) →
            r.received ++ g.held id = r.sent) := by
  have hpos : create? (α := α) capacity ≠ none := by
    rw [create?, if_neg (by omega)]
    exact Option.some_ne_none _
  obtain ⟨f, hf⟩ := Option.ne_none_iff_exists'.mp hpos
  obtain ⟨hcap, halive, hserves⟩ := serves_of_create? hf
  refine ⟨exists_nextPowerOfTwo_eq _, le_nextPowerOfTwo _, fun k => nextPowerOfTwo_le, f, hf,
    fun as steps g hrun => ?_⟩
  obtain ⟨hclosed, hcapacity', all, hg⟩ := hserves.run hrun
  have hkeeps : g.capacity = nextPowerOfTwo capacity := hcapacity'.trans hcap
  rw [hcap] at hg
  refine ⟨by simp [hclosed, halive],
    fun id => ⟨⟨hg.cursor?_eq_none, fun hnone => ?_⟩, fun r hr => ?_⟩⟩
  · by_contra hne
    obtain ⟨r, hr⟩ := Option.ne_none_iff_exists'.mp hne
    obtain ⟨-, -, hcursor⟩ := hg.cursor? hr
    rw [hcursor] at hnone
    contradiction
  · obtain ⟨hsound, -, hcursor⟩ := hg.cursor? hr
    have hheld := hg.held hr
    rw [hkeeps] at hheld
    have hreceive := (hg.receive hr).1
    refine ⟨hheld, hreceive, fun event h => held_of_receive, hreceive ▸ poll_eq g id,
      (hg.drain hr).1, fun event h => hg.sound.drain_of_receive hcursor,
      hg.sound.drain_of_receive_none hcursor,
      hsound.received, hsound.missed, fun hbehind => ?_⟩
    have hnow := hbehind steps r List.prefix_rfl hr
    rw [hsound.received_eq (Reader.missed_eq_zero hbehind hr), hheld, Reader.next,
      Nat.max_eq_left (by omega), List.take_append_drop]

/-- A subscriber that reads the first of five events late, in a feed that ends then. -/
def lateRun : List (Action Nat) :=
  .subscribe :: (List.range 5).map .publish ++ [.receive 0, .close]

/-- In this run the subscriber has missed three events and one is held for it. -/
theorem serves_readers_lateRun : ∃ (f g : Feed Nat) (steps : List (Action Nat × Answer Nat)),
    create? 2 = some f ∧ f.run? lateRun = some (steps, g) ∧
      Reader.ofRun? (nextPowerOfTwo 2) 0 steps = some ⟨List.range 5, 4, [3], 3⟩ ∧
      g.poll 0 = (.event 4, (g.receive 0).2) := by
  have hrun : ((create? 2).bind (·.run? lateRun)).map (fun r =>
      Reader.ofRun? (nextPowerOfTwo 2) 0 r.1) = some (some ⟨List.range 5, 4, [3], 3⟩) := by decide
  obtain ⟨-, -, -, f, hf, hserves⟩ := serves_readers (α := Nat) (show 1 ≤ 2 by decide)
  rw [hf, Option.bind_some] at hrun
  obtain ⟨⟨steps, g⟩, hsteps, hreader⟩ := Option.map_eq_some_iff.mp hrun
  obtain ⟨-, hsubscribers⟩ := hserves lateRun steps g hsteps
  obtain ⟨hheld, -, -, hpoll, -⟩ := (hsubscribers 0).2 _ hreader
  refine ⟨f, g, steps, hf, hsteps, hreader, ?_⟩
  rw [hpoll, hheld]
  rfl

end Feed

end TxDelivery
