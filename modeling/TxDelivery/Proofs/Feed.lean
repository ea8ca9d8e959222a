import Mathlib.Data.List.Basic
import TxDelivery.Delivery.Feed

/-!
# What a subscriber of a feed can still receive

How the events held for a subscriber (`TxDelivery.Feed.held`) change with what happens to the feed.
An event that is published comes after those already held, of which the oldest may be lost
(`TxDelivery.Feed.held_publish`); taking an event takes the first of those held
(`TxDelivery.Feed.held_of_receive`); whatever other subscribers do changes nothing. A new subscriber
holds nothing (`TxDelivery.Feed.Sound.held_subscribe_self`), as long as names of subscriptions are
fresh and no more events are kept than were published (`TxDelivery.Feed.Sound`).

A feed keeps one list of events and, for each subscriber, a position counted from the first event
ever published. **What is held for a subscriber is what is kept from its position on**
(`TxDelivery.Feed.held_of_cursor?`), so it depends on the events and on that one position alone, and
each of the laws comes from what an operation does to the two. What it does to positions is said
first, and no proof afterwards looks at the list of them.

## Loss

For those who only have to know that nothing is received twice, or out of order, the laws with
`List.Sublist` suffice (`TxDelivery.Feed.GoesOn`): subscribers hold nothing but what they held
before and what was published meanwhile, in this order. They hold of any feed.

How many events are lost is exact for a subscriber who follows a feed of the default capacity
(`TxDelivery.Feed.Follows`, `TxDelivery.Feed.Sized`): an event that is published comes after those
held as long as there are fewer than the feed keeps, and drives out the oldest of them otherwise
(`TxDelivery.Feed.Follows.held_publish`). Following is asked for because a position ahead of what
was published would hold an event later than it was published, and no operation brings it there.
-/

namespace TxDelivery

namespace Feed

variable {α : Type} {f : Feed α} {id id' : SubscriptionId} {event : α}

/-- **Names are fresh and the count is right**: subscriptions are named below the next name, and no
more events are kept than were published. -/
structure Sound (f : Feed α) : Prop where
  /-- Subscriptions have been named. -/
  fresh : ∀ c ∈ f.cursors, c.1 < f.nextId
  /-- What is kept was published. -/
  bounded : f.retained.length ≤ f.published

/-! ### Positions -/

theorem cursor?_eq_none_iff : f.cursor? id = none ↔ ∀ c ∈ f.cursors, c.1 ≠ id := by
  simp [cursor?]

/-- Nobody has a name that was not given yet. -/
theorem Sound.cursor?_nextId (hf : f.Sound) : f.cursor? f.nextId = none :=
  cursor?_eq_none_iff.mpr fun c hc => Nat.ne_of_lt (hf.fresh c hc)

theorem cursor?_subscribe_of_ne (hne : f.nextId ≠ id) :
    f.subscribe.2.cursor? id = f.cursor? id := by
  simp [cursor?, subscribe, List.find?_append, beq_false_of_ne hne]

theorem cursor?_subscribe (hid : id < f.nextId) : f.subscribe.2.cursor? id = f.cursor? id :=
  cursor?_subscribe_of_ne (Nat.ne_of_gt hid)

theorem Sound.cursor?_subscribe_self (hf : f.Sound) :
    f.subscribe.2.cursor? f.nextId = some f.published := by
  have hnone : f.cursors.find? (fun c => c.1 == f.nextId) = none := by
    simpa [cursor?] using hf.cursor?_nextId
  simp [cursor?, subscribe, List.find?_append, hnone]

theorem cursor?_unsubscribe_self : (f.unsubscribe id).cursor? id = none := by
  refine cursor?_eq_none_iff.mpr fun c hc => ?_
  simpa using (List.mem_filter.mp hc).2

theorem cursor?_unsubscribe (hne : id' ≠ id) : (f.unsubscribe id').cursor? id = f.cursor? id := by
  simp only [cursor?, unsubscribe]
  rw [List.find?_filter]
  congr 2
  funext c
  by_cases hc : c.1 = id <;> simp [hc, hne.symm]

/-- Moving a subscriber leaves its name. -/
theorem cursor?_seek (f : Feed α) (id id' : SubscriptionId) (p : Nat) :
    (f.seek id' p).cursor? id =
      if id' = id then (f.cursor? id).map fun _ => p else f.cursor? id := by
  have hname : ((fun c => c.1 == id) ∘ fun c : SubscriptionId × Nat =>
      if c.1 == id' then (id', p) else c) = fun c => c.1 == id := by
    funext c
    by_cases hc : c.1 = id' <;> simp [hc]
  simp only [cursor?, seek, List.find?_map, hname, Option.map_map]
  cases hfound : f.cursors.find? (fun c => c.1 == id) with
  | none => simp
  | some c =>
    have hc : c.1 = id := by simpa using List.find?_some hfound
    by_cases hid : id' = id
    · simp [hid, hc]
    · simp [hid, hc, Ne.symm hid]

/-! ### What is held -/

/-- Nothing is held for a subscription that does not exist. -/
theorem held_of_cursor?_eq_none (h : f.cursor? id = none) : f.held id = [] := by
  simp only [held, h]

theorem held_of_cursor? {p : Nat} (h : f.cursor? id = some p) :
    f.held id = f.retained.drop (p - f.oldest) := by
  simp only [held, h]

/-- What is held depends on the events and on the position alone. -/
theorem held_congr {f g : Feed α} (hpublished : f.published = g.published)
    (hretained : f.retained = g.retained) (hcursor : f.cursor? id = g.cursor? id) :
    f.held id = g.held id := by
  simp only [held, oldest, hpublished, hretained, hcursor]

/-- **Publishing an event adds it at the end**; the oldest events held may be lost. -/
theorem held_publish (f : Feed α) (id : SubscriptionId) (event : α) :
    ((f.publish event).held id).Sublist (f.held id ++ [event]) := by
  by_cases hempty : f.cursors.isEmpty
  · have hnone : f.cursor? id = none := by
      rw [List.isEmpty_iff] at hempty
      simp [cursor?, hempty]
    rw [publish, if_pos hempty, held_of_cursor?_eq_none hnone]
    exact List.nil_sublist _
  · let kept := f.retained ++ [event]
    have hpublish : f.publish event = { f with
        published := f.published + 1
        retained := kept.drop (kept.length - f.capacity) } := by
      rw [publish, if_neg hempty]
    have hcursor : (f.publish event).cursor? id = f.cursor? id := by
      rw [hpublish, cursor?, cursor?]
    cases hp : f.cursor? id with
    | none =>
      rw [held_of_cursor?_eq_none (hcursor.trans hp)]
      exact List.nil_sublist _
    | some p =>
      rw [held_of_cursor? (hcursor.trans hp), held_of_cursor? hp, hpublish]
      simp only [oldest, List.drop_drop, List.length_drop]
      -- What is cut off at the front moves the oldest event on by as much.
      have hpos : p - (f.published - f.retained.length) ≤
          kept.length - f.capacity +
            (p - (f.published + 1 - (kept.length - (kept.length - f.capacity)))) := by
        have hlen : kept.length = f.retained.length + 1 := by simp [kept]
        omega
      have hcut : (kept.drop (kept.length - f.capacity +
            (p - (f.published + 1 - (kept.length - (kept.length - f.capacity)))))).Sublist
          (kept.drop (p - (f.published - f.retained.length))) := by
        rw [← Nat.add_sub_cancel' hpos, ← List.drop_drop]
        exact List.drop_sublist _ _
      refine hcut.trans ?_
      rw [List.drop_append]
      exact (List.Sublist.refl _).append (List.drop_sublist _ _)

/-- **Taking an event takes the first of those held.** -/
theorem held_of_receive {g : Feed α} (h : f.receive id = (some event, g)) :
    f.held id = event :: g.held id := by
  unfold receive at h
  split at h
  case h_1 => simp at h
  case h_2 p hp =>
    dsimp only at h
    split at h
    case h_2 => simp at h
    case h_1 event' hevent =>
      obtain ⟨rfl, rfl⟩ : event' = event ∧ _ = g := by simpa using h
      have hcursor : (f.seek id (max p f.oldest + 1)).cursor? id =
          some (max p f.oldest + 1) := by
        rw [cursor?_seek, if_pos rfl, hp, Option.map_some]
      rw [held_of_cursor? hp, held_of_cursor? hcursor]
      have hfirst : p - f.oldest = max p f.oldest - f.oldest := by omega
      have hrest : max p f.oldest + 1 - (f.seek id (max p f.oldest + 1)).oldest =
          max p f.oldest - f.oldest + 1 := by
        have holdest : (f.seek id (max p f.oldest + 1)).oldest = f.oldest := rfl
        omega
      obtain ⟨hlt, hget⟩ := List.getElem?_eq_some_iff.mp hevent
      rw [hfirst, hrest, List.drop_eq_getElem_cons hlt, hget]
      rfl

theorem cursor?_drain (hne : id' ≠ id) : (f.drain id').2.cursor? id = f.cursor? id := by
  unfold drain
  split
  · rfl
  · rw [cursor?_seek, if_neg hne]

/-- What another subscriber takes is not taken from this one. -/
theorem held_drain_of_ne (hne : id' ≠ id) : (f.drain id').2.held id = f.held id := by
  refine held_congr ?_ ?_ (cursor?_drain hne)
  · unfold drain
    split <;> rfl
  · unfold drain
    split <;> rfl

/-- A subscriber that takes everything leaves nothing, and the others what they have. -/
theorem held_drain (f : Feed α) (id id' : SubscriptionId) :
    ((f.drain id').2.held id).Sublist (f.held id) := by
  by_cases hid : id' = id
  · subst hid
    unfold drain
    split
    case h_1 => exact List.Sublist.refl _
    case h_2 p hp =>
      have hcursor : (f.seek id' (max p f.published)).cursor? id' = some (max p f.published) := by
        rw [cursor?_seek, if_pos rfl, hp, Option.map_some]
      rw [held_of_cursor? hcursor, held_of_cursor? hp]
      have holdest : (f.seek id' (max p f.published)).oldest = f.oldest := rfl
      have hpos : p - f.oldest ≤ max p f.published - f.oldest := by omega
      rw [holdest, ← Nat.add_sub_cancel' hpos, ← List.drop_drop]
      exact List.drop_sublist _ _
  · rw [held_drain_of_ne hid]

/-- A subscription that ends concerns no other. -/
theorem held_unsubscribe_of_ne (hne : id' ≠ id) : (f.unsubscribe id').held id = f.held id :=
  held_congr rfl rfl (cursor?_unsubscribe hne)

/-- A subscription that ends leaves the others what they have. -/
theorem held_unsubscribe (f : Feed α) (id id' : SubscriptionId) :
    ((f.unsubscribe id').held id).Sublist (f.held id) := by
  by_cases hid : id' = id
  · rw [hid, held_of_cursor?_eq_none cursor?_unsubscribe_self]
    exact List.nil_sublist _
  · rw [held_unsubscribe_of_ne hid]

/-- A new subscription leaves the others what they have. -/
theorem held_subscribe (hid : id < f.nextId) : f.subscribe.2.held id = f.held id :=
  held_congr rfl rfl (cursor?_subscribe hid)

/-- **Nothing is held for a new subscription.** -/
theorem Sound.held_subscribe_self (hf : f.Sound) : f.subscribe.2.held f.nextId = [] := by
  have hbounded := hf.bounded
  rw [held_of_cursor? hf.cursor?_subscribe_self]
  refine List.drop_eq_nil_of_le ?_
  have holdest : f.subscribe.2.oldest = f.published - f.retained.length := rfl
  have hretained : f.subscribe.2.retained = f.retained := rfl
  rw [holdest, hretained]
  omega

/-! ### What feeds keep -/

theorem sound_empty : (empty : Feed α).Sound := ⟨by simp [empty], by simp [empty]⟩

theorem Sound.subscribe (hf : f.Sound) : f.subscribe.2.Sound := by
  refine ⟨fun c hc => ?_, hf.bounded⟩
  rcases List.mem_append.mp hc with hc | hc
  · exact Nat.lt_succ_of_lt (hf.fresh c hc)
  · obtain rfl := List.mem_singleton.mp hc
    exact Nat.lt_succ_self _

theorem Sound.unsubscribe (hf : f.Sound) : (f.unsubscribe id).Sound :=
  ⟨fun c hc => hf.fresh c (List.mem_filter.mp hc).1, hf.bounded⟩

theorem Sound.publish (hf : f.Sound) : (f.publish event).Sound := by
  unfold Feed.publish
  split
  · exact hf
  · refine ⟨hf.fresh, ?_⟩
    have hbounded := hf.bounded
    simp only [List.length_drop, List.length_append, List.length_singleton]
    omega

theorem Sound.seek (hf : f.Sound) {p : Nat} : (f.seek id p).Sound := by
  refine ⟨fun c hc => ?_, hf.bounded⟩
  obtain ⟨c', hc', rfl⟩ := List.mem_map.mp hc
  split
  case isTrue hname => exact (by simpa using hname : c'.1 = id) ▸ hf.fresh c' hc'
  case isFalse => exact hf.fresh c' hc'

theorem Sound.receive (hf : f.Sound) : (f.receive id).2.Sound := by
  unfold Feed.receive
  split
  · exact hf
  · dsimp only
    split <;> exact hf.seek

theorem Sound.drain (hf : f.Sound) : (f.drain id).2.Sound := by
  unfold Feed.drain
  split
  · exact hf
  · exact hf.seek

/-- **How a feed goes on**: it stays in order, and subscribers hold nothing but what they held
before and what was published meanwhile. -/
structure GoesOn (f : Feed α) (events : List α) (g : Feed α) : Prop where
  /-- The feed is in order. -/
  sound : g.Sound
  /-- Names stay given. -/
  nextId : f.nextId ≤ g.nextId
  /-- Subscribers hold no more than they should. -/
  held : ∀ id < f.nextId, (g.held id).Sublist (f.held id ++ events)

theorem Sound.goesOn (hf : f.Sound) : f.GoesOn [] f :=
  ⟨hf, Nat.le_refl _, fun _ _ => List.sublist_append_left _ _⟩

theorem Sound.goesOn_subscribe (hf : f.Sound) : f.GoesOn [] f.subscribe.2 := by
  refine ⟨hf.subscribe, Nat.le_succ _, fun id hid => ?_⟩
  rw [held_subscribe hid]
  exact List.sublist_append_left _ _

theorem Sound.goesOn_unsubscribe (hf : f.Sound) : f.GoesOn [] (f.unsubscribe id) :=
  ⟨hf.unsubscribe, Nat.le_refl _, fun id' _ => by simpa using held_unsubscribe f id' id⟩

theorem Sound.goesOn_publish (hf : f.Sound) : f.GoesOn [event] (f.publish event) := by
  refine ⟨hf.publish, ?_, fun id _ => held_publish f id event⟩
  unfold Feed.publish
  split <;> exact Nat.le_refl _

theorem Sound.goesOn_drain (hf : f.Sound) : f.GoesOn [] (f.drain id).2 := by
  refine ⟨hf.drain, ?_, fun id' _ => by simpa using held_drain f id' id⟩
  unfold Feed.drain
  split <;> exact Nat.le_refl _

theorem nextId_receive (f : Feed α) (id : SubscriptionId) : (f.receive id).2.nextId = f.nextId := by
  unfold receive
  split
  · rfl
  · dsimp only
    split <;> rfl

/-! ### Subscribers who follow a feed -/

/-- **A feed of the default capacity**, which keeps no more than that. -/
structure Sized (f : Feed α) : Prop where
  /-- The capacity is the default one. -/
  capacity : f.capacity = defaultCapacity
  /-- No more events are kept. -/
  kept : f.retained.length ≤ f.capacity

/-- **A subscriber follows a feed**: it is subscribed, and not ahead of what was published. -/
def Follows (f : Feed α) (id : SubscriptionId) : Prop :=
  ∃ p, f.cursor? id = some p ∧ p ≤ f.published

theorem sized_empty : (empty : Feed α).Sized := by
  have hcapacity : nextPowerOfTwo defaultCapacity = defaultCapacity := by decide
  exact ⟨hcapacity, Nat.zero_le _⟩

theorem Sized.publish (hf : f.Sized) : (f.publish event).Sized := by
  have hcapacity := hf.capacity
  unfold Feed.publish
  split
  · exact hf
  · refine ⟨hcapacity, ?_⟩
    simp only [List.length_drop, List.length_append, List.length_singleton]
    omega

theorem Sized.seek (hf : f.Sized) {p : Nat} : (f.seek id p).Sized := ⟨hf.capacity, hf.kept⟩

theorem Sized.receive (hf : f.Sized) : (f.receive id).2.Sized := by
  unfold Feed.receive
  split
  · exact hf
  · dsimp only
    split <;> exact hf.seek

theorem Sized.drain (hf : f.Sized) : (f.drain id).2.Sized := by
  unfold Feed.drain
  split
  · exact hf
  · exact hf.seek

/-- A new subscriber follows. -/
theorem Sound.follows_subscribe_self (hf : f.Sound) : f.subscribe.2.Follows f.nextId :=
  ⟨f.published, hf.cursor?_subscribe_self, Nat.le_refl _⟩

theorem Follows.subscribe (h : f.Follows id) (hid : id < f.nextId) : f.subscribe.2.Follows id := by
  obtain ⟨p, hp, hle⟩ := h
  exact ⟨p, (cursor?_subscribe hid).trans hp, hle⟩

theorem Follows.unsubscribe (h : f.Follows id) (hne : id' ≠ id) :
    (f.unsubscribe id').Follows id := by
  obtain ⟨p, hp, hle⟩ := h
  exact ⟨p, (cursor?_unsubscribe hne).trans hp, hle⟩

theorem cursor?_publish (f : Feed α) (id : SubscriptionId) (event : α) :
    (f.publish event).cursor? id = f.cursor? id := by
  unfold publish
  split <;> rfl

theorem Follows.publish (h : f.Follows id) : (f.publish event).Follows id := by
  obtain ⟨p, hp, hle⟩ := h
  refine ⟨p, (cursor?_publish f id event).trans hp, ?_⟩
  unfold Feed.publish
  split
  · exact hle
  · exact Nat.le_succ_of_le hle

theorem Follows.drain (h : f.Follows id) (hne : id' ≠ id) : (f.drain id').2.Follows id := by
  obtain ⟨p, hp, hle⟩ := h
  refine ⟨p, (cursor?_drain hne).trans hp, ?_⟩
  unfold Feed.drain
  split <;> exact hle

/-- A subscriber who is moved to what was published follows on, as do the others. -/
theorem Follows.seek (h : f.Follows id) {p : Nat} (hp : p ≤ f.published) :
    (f.seek id' p).Follows id := by
  obtain ⟨q, hq, hle⟩ := h
  by_cases hid : id' = id
  · exact ⟨p, by rw [cursor?_seek, if_pos hid, hq, Option.map_some], hp⟩
  · exact ⟨q, by rw [cursor?_seek, if_neg hid, hq], hle⟩

/-- Whoever takes an event follows on, as do the others. -/
theorem Follows.receive (h : f.Follows id) (hf : f.Sound) (hid : f.Follows id') :
    (f.receive id').2.Follows id := by
  obtain ⟨p, hp, hle⟩ := hid
  have hbounded := hf.bounded
  have holdest : f.oldest = f.published - f.retained.length := rfl
  unfold Feed.receive
  rw [hp]
  dsimp only
  split
  case h_1 event hevent =>
    have hlt := (List.getElem?_eq_some_iff.mp hevent).1
    exact h.seek (by omega)
  case h_2 => exact h.seek (by omega)

/-- **What publishing an event does to those held**: it is put at their end, and as many are lost at
the front as are now too many. -/
theorem Follows.held_publish (h : f.Follows id) (hf : f.Sound) (hsized : f.Sized) (event : α) :
    (f.publish event).held id =
      (f.held id ++ [event]).drop ((f.held id).length + 1 - defaultCapacity) := by
  obtain ⟨p, hp, hle⟩ := h
  have hcursors : ¬ f.cursors.isEmpty := by
    intro hempty
    rw [List.isEmpty_iff] at hempty
    simp [cursor?, hempty] at hp
  have hbounded := hf.bounded
  have hkept := hsized.kept
  have hoffset : p - f.oldest ≤ f.retained.length := by
    simp only [oldest]
    omega
  rw [held_of_cursor? ((cursor?_publish f id event).trans hp), held_of_cursor? hp, Feed.publish,
    if_neg hcursors, ← List.drop_append_of_le_length hoffset, List.drop_drop, List.drop_drop]
  congr 1
  simp only [oldest, List.length_drop, List.length_append, List.length_singleton,
    ← hsized.capacity]
  omega

/-- As long as fewer events are held than the feed keeps, none is lost. -/
theorem Follows.held_publish_of_lt (h : f.Follows id) (hf : f.Sound) (hsized : f.Sized)
    (hroom : (f.held id).length < defaultCapacity) (event : α) :
    (f.publish event).held id = f.held id ++ [event] := by
  rw [h.held_publish hf hsized, Nat.sub_eq_zero_of_le hroom, List.drop_zero]

/-- If as many events are held as the feed keeps, the oldest is lost. -/
theorem Follows.held_publish_of_le (h : f.Follows id) (hf : f.Sound) (hsized : f.Sized)
    (hfull : defaultCapacity ≤ (f.held id).length) (event : α) :
    ∃ first rest, f.held id = first :: rest ∧ (f.publish event).held id = rest ++ [event] := by
  have hlength : (f.held id).length = defaultCapacity := by
    obtain ⟨p, hp, -⟩ := h
    have hkept := hsized.kept
    rw [hsized.capacity] at hkept
    rw [held_of_cursor? hp] at hfull ⊢
    rw [List.length_drop] at hfull ⊢
    omega
  rw [h.held_publish hf hsized, hlength, Nat.add_sub_cancel_left]
  cases hheld : f.held id with
  | nil => simp [hheld, defaultCapacity] at hlength
  | cons first rest => exact ⟨first, rest, rfl, rfl⟩

end Feed

end TxDelivery
