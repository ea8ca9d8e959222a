import TxDelivery.Service.Step

/-!
# What bookkeepers and the outside world can do

The remaining steps of a service: those of the bookkeepers of its queue
(`TxDelivery.Service.BookkeeperStep`), and those in which subscribers come and go, the queue is
closed or time passes (`TxDelivery.Service.OutsideStep`). None of them concerns an operation or a
delivery.

A bookkeeper is in one of three stages, and goes from one to the next: idle, it takes an event from
one of its feeds and asks for the status lock; marking, it has to have the lock, enters the status
and gives the lock back; told to stop while it is idle, it stops. The table says with every event
that is taken which of them it is, and what the feed is afterwards. This is how an event can be
followed from the feed to the statuses, without a list of events on their way.

The steps from outside have no stage. They are possible at any time, except that time passes only
when nobody can act and no timer is due (`TxDelivery.Service.mayWait`). Of all steps it is the only
one that changes the time.

What is logged does not matter to any proof, but it is seen. So the tables say of a step that it
logs something when the feed has skipped events, and not what; that it is nothing more than a log is
all there is to know (`TxDelivery.Service.lagLog_eq_map`).
-/

namespace TxDelivery

variable {κ : Type}

/-- Changing the entry at a place is setting it. -/
theorem modify_eq_set_of_getElem? {α : Type} {l : List α} {b : Nat} {k : α} (f : α → α)
    (h : l[b]? = some k) : l.modify b f = l.set b (f k) := by
  refine List.ext_getElem? fun j => ?_
  rw [List.getElem?_modify, List.getElem?_set]
  by_cases hj : b = j
  · subst hj
    have hlt : b < l.length := (List.getElem?_eq_some_iff.mp h).1
    rw [if_pos rfl, if_pos hlt, h]
    simp
  · simp [hj]

namespace Service

variable [DecidableEq κ]

/-- **The steps of bookkeepers.** -/
inductive BookkeeperStep (setup : Setup κ) (s : Service κ) : Action κ → Move κ → Prop where
  /-- A bookkeeper starts and follows both feeds. -/
  | start :
      BookkeeperStep setup s .startBookkeeper
        ({ s with
            confirms := s.confirms.subscribe.2
            errors := s.errors.subscribe.2
            bookkeepers := s.bookkeepers ++ [⟨s.confirms.nextId, s.errors.nextId, .idle⟩] },
         [.logged .queueStarted])
  /-- A bookkeeper takes a confirmation and wants to mark its key as finished. -/
  | takeConfirm {b : BookkeeperId} {k : Bookkeeper κ} {event : ConfirmEvent}
      {feed : Feed ConfirmEvent} {seen : List LogEvent} (hk : s.bookkeepers[b]? = some k)
      (hs : k.stage = .idle) (hreceive : s.confirms.receive k.confirms = (some event, feed)) :
      BookkeeperStep setup s (.takeConfirm b)
        ({ s with
            confirms := feed
            statusLock := s.statusLock.enter (.bookkeeper b) .exclusive
            bookkeepers := s.bookkeepers.set b
              { k with stage := .marking (setup.keyOf event.tx.tx) .finished } },
         seen.map .logged)
  /-- A bookkeeper takes a failure and wants to mark its key as failed. -/
  | takeError {b : BookkeeperId} {k : Bookkeeper κ} {event : ErrorEvent} {feed : Feed ErrorEvent}
      {seen : List LogEvent} (hk : s.bookkeepers[b]? = some k) (hs : k.stage = .idle)
      (hreceive : s.errors.receive k.errors = (some event, feed)) :
      BookkeeperStep setup s (.takeError b)
        ({ s with
            errors := feed
            statusLock := s.statusLock.enter (.bookkeeper b) .exclusive
            bookkeepers := s.bookkeepers.set b
              { k with stage := .marking (setup.keyOf event.tx.tx) .error } },
         seen.map .logged)
  /-- A bookkeeper has the status lock and marks the key. -/
  | mark {b : BookkeeperId} {k : Bookkeeper κ} {key : κ} {status : TxStatus}
      (hk : s.bookkeepers[b]? = some k) (hs : k.stage = .marking key status)
      (hheld : s.statusLock.heldBy (.bookkeeper b) = true) :
      BookkeeperStep setup s (.mark b)
        ({ s with
            statuses := s.statuses.set key status
            statusLock := s.statusLock.leave (.bookkeeper b)
            bookkeepers := s.bookkeepers.set b { k with stage := .idle } }, [])
  /-- A bookkeeper stops and ends its subscriptions. -/
  | stop {b : BookkeeperId} {k : Bookkeeper κ} (hk : s.bookkeepers[b]? = some k)
      (hs : k.stage = .idle) (hready : s.shutdown.ready = true) :
      BookkeeperStep setup s (.stop b)
        ({ s with
            confirms := s.confirms.unsubscribe k.confirms
            errors := s.errors.unsubscribe k.errors
            bookkeepers := s.bookkeepers.set b { k with stage := .stopped } },
         [.logged .queueStopped])

/-- **The steps of subscribers, of the operator and of time.** -/
inductive OutsideStep (setup : Setup κ) (s : Service κ) : Action κ → Move κ → Prop where
  /-- The queue is closed. -/
  | close : OutsideStep setup s .close ({ s with shutdown := s.shutdown.trigger }, [])
  /-- Somebody subscribes to the confirmations. -/
  | subscribeConfirms :
      OutsideStep setup s (.subscribe .confirms)
        ({ s with confirms := s.confirms.subscribe.2 }, [])
  /-- Somebody subscribes to the failures. -/
  | subscribeErrors :
      OutsideStep setup s (.subscribe .errors) ({ s with errors := s.errors.subscribe.2 }, [])
  /-- A subscriber takes all confirmations held for it. -/
  | drainConfirms {id : SubscriptionId} {log : List LogEvent} :
      OutsideStep setup s (.drain .confirms id)
        ({ s with confirms := (s.confirms.drain id).2 }, log.map .logged)
  /-- A subscriber takes all failures held for it. -/
  | drainErrors {id : SubscriptionId} {log : List LogEvent} :
      OutsideStep setup s (.drain .errors id)
        ({ s with errors := (s.errors.drain id).2 }, log.map .logged)
  /-- A subscription to the confirmations ends. -/
  | unsubscribeConfirms {id : SubscriptionId} :
      OutsideStep setup s (.unsubscribe .confirms id)
        ({ s with confirms := s.confirms.unsubscribe id }, [])
  /-- A subscription to the failures ends. -/
  | unsubscribeErrors {id : SubscriptionId} :
      OutsideStep setup s (.unsubscribe .errors id)
        ({ s with errors := s.errors.unsubscribe id }, [])
  /-- Time passes while nobody can act, up to the next timer. -/
  | wait {ms : Nat} (hwait : s.mayWait setup ms = true) :
      OutsideStep setup s (.wait ms) ({ s with now := s.now + ms }, [])

/-! ### Every such step is in the tables -/

variable {setup : Setup κ} {s : Service κ} {m : Move κ} {b : BookkeeperId}

omit [DecidableEq κ] in
/-- What is logged when a subscriber takes an event is no more than a log. -/
theorem lagLog_eq_map {α : Type} (f : Feed α) (id : SubscriptionId) :
    ∃ log : List LogEvent, lagLog f id = log.map .logged := by
  by_cases h : f.lagged id
  · exact ⟨[.eventsDropped], by simp [lagLog, h]⟩
  · exact ⟨[], by simp [lagLog, h]⟩

theorem bookkeeperStep_of_takeConfirm? (h : s.takeConfirm? setup b = some m) :
    BookkeeperStep setup s (.takeConfirm b) m := by
  obtain ⟨k, hk, hm⟩ := Option.bind_eq_some_iff.mp h
  split at hm
  case h_1 event feed hs hreceive =>
    obtain rfl := Option.some.inj hm
    obtain ⟨log, hlog⟩ := lagLog_eq_map s.confirms k.confirms
    rw [hlog, requestMark, setBookkeeper, modify_eq_set_of_getElem? _ hk]
    by_cases hinfo : event.info.isEmpty
    · have hstep := @BookkeeperStep.takeConfirm _ _ setup s _ _ _ _ log hk hs hreceive
      simpa [hinfo] using hstep
    · have hstep := @BookkeeperStep.takeConfirm _ _ setup s _ _ _ _ (log ++ [.queuedConfirmed])
        hk hs hreceive
      simpa [hinfo] using hstep
  case h_2 => contradiction

theorem bookkeeperStep_of_takeError? (h : s.takeError? setup b = some m) :
    BookkeeperStep setup s (.takeError b) m := by
  obtain ⟨k, hk, hm⟩ := Option.bind_eq_some_iff.mp h
  split at hm
  case h_1 event feed hs hreceive =>
    obtain rfl := Option.some.inj hm
    obtain ⟨log, hlog⟩ := lagLog_eq_map s.errors k.errors
    rw [hlog, requestMark, setBookkeeper, modify_eq_set_of_getElem? _ hk]
    have hstep := @BookkeeperStep.takeError _ _ setup s _ _ _ _ (log ++ [.queuedFailed])
      hk hs hreceive
    simpa using hstep
  case h_2 => contradiction

theorem bookkeeperStep_of_mark? (h : s.mark? b = some m) : BookkeeperStep setup s (.mark b) m := by
  obtain ⟨k, hk, hm⟩ := Option.bind_eq_some_iff.mp h
  split at hm
  case h_1 key status hs =>
    simp only [Option.ite_none_right_eq_some, Option.some.injEq] at hm
    obtain ⟨hheld, rfl⟩ := hm
    rw [setBookkeeper, modify_eq_set_of_getElem? _ hk]
    exact .mark hk hs hheld
  case h_2 => contradiction

theorem bookkeeperStep_of_stop? (h : s.stop? b = some m) : BookkeeperStep setup s (.stop b) m := by
  obtain ⟨k, hk, hm⟩ := Option.bind_eq_some_iff.mp h
  simp only [Option.ite_none_right_eq_some, Option.some.injEq] at hm
  obtain ⟨⟨hs, hready⟩, rfl⟩ := hm
  rw [setBookkeeper, modify_eq_set_of_getElem? _ hk]
  exact .stop hk hs hready

end Service

end TxDelivery
