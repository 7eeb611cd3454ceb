import RosKernel.Kernel.QueueInvariant
import RosKernel.Kernel.TimedWait

/-!
# Threads parked in an event wait

A thread parked in `KernelEventBroker::wait` is woken by the next matching record
if it is still the waiter of the subscription and nothing is queued there. While
`wake_waiter` runs, the threads it has detached but not yet made ready are listed
aside. Every primitive step keeps this, apart from the switch that parks a thread
in such a wait.
-/

namespace RosKernel.Kernel

open List Registry

/-- A thread is switched out inside an event wait. -/
structure ParkedIn (subscription : SubscriptionId) (thread : Thread) : Prop where
  waiting : thread.currentState = .waiting
  suspended : thread.continuation = .eventWait subscription

/-- The next record stored for the subscription will wake the thread. -/
structure WillWake (id : ThreadId) (subscriber : EventSubscriber) : Prop where
  empty : subscriber.queuedCount = 0
  registered : subscriber.waitingThread = some id

/-- Threads parked in an event wait will be woken, apart from those that are being
woken right now. -/
structure WaitersLinked (waking : List ThreadId) (kernel : Kernel) : Prop where
  linked : ∀ id thread subscription subscriber, kernel.thread id = some thread →
    ParkedIn subscription thread → kernel.subscriber subscription = some subscriber →
    id ∉ waking → WillWake id subscriber
  assigned : ∀ id thread subscription, kernel.thread id = some thread →
    thread.continuation = .eventWait subscription →
    subscription < kernel.subscribers.nextId

section

variable {kernel after : Kernel} {waking woken : List ThreadId}

namespace WaitersLinked

variable (holds : WaitersLinked waking kernel)
include holds

/-- A step that parks no thread and keeps what will be woken. -/
theorem of_parked (threads : ∀ id thread subscription, after.thread id = some thread →
      thread.continuation = .eventWait subscription →
      ∃ old, kernel.thread id = some old ∧ old.continuation = .eventWait subscription ∧
        (thread.currentState = .waiting → old.currentState = .waiting ∧ (id ∉ woken → id ∉ waking)))
    (nextId : kernel.subscribers.nextId ≤ after.subscribers.nextId)
    (subscribers : ∀ id thread subscription subscriber, id ∉ woken →
      kernel.thread id = some thread → ParkedIn subscription thread →
      after.subscriber subscription = some subscriber →
      ∃ old, kernel.subscriber subscription = some old ∧
        (WillWake id old → WillWake id subscriber)) :
    WaitersLinked woken after := by
  constructor
  · intro id thread subscription subscriber found parked subscribed notWoken
    obtain ⟨old, oldFound, suspended, waits⟩ :=
      threads id thread subscription found parked.suspended
    obtain ⟨waiting, notWaking⟩ := waits parked.waiting
    obtain ⟨before, beforeFound, kept⟩ := subscribers id old subscription subscriber
      notWoken oldFound ⟨waiting, suspended⟩ subscribed
    exact kept (holds.linked id old subscription before oldFound
      ⟨waiting, suspended⟩ beforeFound (notWaking notWoken))
  · intro id thread subscription found suspended
    obtain ⟨old, oldFound, oldSuspended, -⟩ := threads id thread subscription found suspended
    exact (holds.assigned id old subscription oldFound oldSuspended).trans_le nextId

/-- A step that leaves the subscribers alone and parks no thread. -/
theorem of_threads (subscribers : after.subscribers = kernel.subscribers)
    (threads : ∀ id thread subscription, after.thread id = some thread →
      thread.continuation = .eventWait subscription →
      ∃ old, kernel.thread id = some old ∧ old.continuation = .eventWait subscription ∧
        (thread.currentState = .waiting → old.currentState = .waiting)) :
    WaitersLinked waking after := by
  refine holds.of_parked ?_ (by rw [subscribers]) ?_
  · intro id thread subscription found suspended
    obtain ⟨old, oldFound, continues, waits⟩ := threads id thread subscription found suspended
    exact ⟨old, oldFound, continues, fun waiting => ⟨waits waiting, fun notWoken => notWoken⟩⟩
  · intro _ _ _ subscriber _ _ _ found
    rw [Kernel.subscriber, subscribers] at found
    exact ⟨subscriber, found, fun wakes => wakes⟩

theorem of_registry (threads : after.threads = kernel.threads)
    (subscribers : after.subscribers = kernel.subscribers) :
    WaitersLinked waking after := by
  refine holds.of_threads subscribers fun id thread subscription found suspended => ?_
  rw [Kernel.thread, threads] at found
  exact ⟨thread, found, suspended, fun waiting => waiting⟩

/-- A write to one thread that does not park it. -/
theorem of_rewrites {target : ThreadId} {update : Thread → Thread}
    (rewritten : Rewrites kernel after target update)
    (subscribers : after.subscribers = kernel.subscribers)
    (kept : ∀ thread subscription, kernel.thread target = some thread →
      (update thread).continuation = .eventWait subscription →
      thread.continuation = .eventWait subscription ∧
        ((update thread).currentState = .waiting → thread.currentState = .waiting)) :
    WaitersLinked waking after := by
  refine holds.of_threads subscribers ?_
  intro _ thread subscription found suspended
  rcases written_cases (rewritten _) found with ⟨rfl, old, oldFound, rfl⟩ | ⟨-, found⟩
  · obtain ⟨sameContinuation, waits⟩ := kept old subscription oldFound suspended
    exact ⟨old, oldFound, sameContinuation, waits⟩
  · exact ⟨thread, found, suspended, id⟩

/-- A write to one subscriber. -/
theorem of_modifySubscriber {target : SubscriptionId} {update : EventSubscriber → EventSubscriber}
    (kept : ∀ id thread subscriber, id ∉ waking → kernel.thread id = some thread →
      ParkedIn target thread → kernel.subscriber target = some subscriber →
      WillWake id subscriber → WillWake id (update subscriber)) :
    WaitersLinked waking (kernel.modifySubscriber target update) := by
  refine holds.of_parked ?_ le_rfl ?_
  · intro id thread subscription found suspended
    exact ⟨thread, found, suspended, fun waiting => ⟨waiting, fun notWoken => notWoken⟩⟩
  · intro id thread _ subscriber notWoken found parked subscribed
    rcases written_cases (subscriber_modifySubscriber ..) subscribed with
      ⟨rfl, old, oldFound, rfl⟩ | ⟨-, subscribed⟩
    · exact ⟨old, oldFound, kept id thread old notWoken found parked oldFound⟩
    · exact ⟨subscriber, subscribed, fun wakes => wakes⟩

end WaitersLinked

/-- The threads that are being woken by `wake_waiter`. -/
def wakingThreads (frames : List Frame) : List ThreadId :=
  frames.filterMap Frame.wakingThread

theorem Entry.wakingThreads {scope : Scope} {frames : List Frame}
    (entry : Entry scope kernel frames) : Kernel.wakingThreads frames = [] := by
  cases entry <;> rfl

variable {before after : List Frame × Kernel}

theorem CoreMove.nextId_subscribers (move : CoreMove before after) :
    after.2.subscribers.nextId = before.2.subscribers.nextId := by
  cases move with
  | announce => rw [requestReschedule_eq]
  | _ => rfl

/-- Along a move of the core it is enough to look at the subscribers and at the
threads that are no longer listed aside. -/
theorem WaitersLinked.of_coreMove (holds : WaitersLinked (wakingThreads before.1) before.2)
    (move : CoreMove before after)
    (settled : ∀ id thread subscription, before.2.thread id = some thread →
      ParkedIn subscription thread → id ∉ wakingThreads after.1 → id ∉ wakingThreads before.1)
    (subscribers : ∀ id thread subscription subscriber, id ∉ wakingThreads after.1 →
      before.2.thread id = some thread → ParkedIn subscription thread →
      after.2.subscriber subscription = some subscriber →
      ∃ old, before.2.subscriber subscription = some old ∧
        (WillWake id old → WillWake id subscriber)) :
    WaitersLinked (wakingThreads after.1) after.2 := by
  refine holds.of_parked ?_ move.nextId_subscribers.ge subscribers
  intro id thread subscription found suspended
  obtain ⟨old, oldFound, -, -, sameContinuation, waits, -⟩ := move.frame.thread id thread found
  have oldSuspended := sameContinuation.symm.trans suspended
  exact ⟨old, oldFound, oldSuspended, fun waiting =>
    ⟨waits waiting, settled id old subscription oldFound ⟨waits waiting, oldSuspended⟩⟩⟩

variable {id : ThreadId} {subscriber : EventSubscriber}

/-- Storing a record in a subscription without a waiter, or dropping it. -/
theorem WillWake.store {updated : EventSubscriber} {record : KernelEventRecord}
    {allocated stored : Bool} (result : subscriber.storeRecord record allocated = (stored, updated))
    (silent : stored = true → subscriber.waitingThread = none)
    (wakes : WillWake id subscriber) : WillWake id updated := by
  cases stored with
  | true =>
    have registered := wakes.registered
    rw [silent rfl] at registered
    cases registered
  | false =>
    have same := identity_of_storeRecord result
    refine ⟨(EventSubscriber.queuedCount_storeRecord_of_dropped result).trans wakes.empty, ?_⟩
    exact (congrArg (fun identity => identity.2.2) same).trans wakes.registered

theorem subscribers_detachWaiter
    (kernel : Kernel) (subscription : SubscriptionId) (waiter : ThreadId) :
    (kernel.detachWaiter subscription waiter).subscribers =
      kernel.subscribers.modify subscription fun subscriber =>
        { subscriber with waitingThread := none } :=
  rfl

variable {subscription : SubscriptionId}

/-- Detaching the waiter of a subscription concerns that thread only. -/
theorem subscriber_detached {after : Kernel} {target : SubscriptionId} {waiter : ThreadId}
    {written : EventSubscriber} {update : EventSubscriber → EventSubscriber}
    (found : kernel.subscriber target = some subscriber)
    (waits : subscriber.waitingThread = some waiter) (other : id ≠ waiter)
    (rewritten : after.subscribers = kernel.subscribers.modify target update)
    (subscribed : after.subscriber subscription = some written) :
    ∃ old, kernel.subscriber subscription = some old ∧ (WillWake id old → WillWake id written) := by
  rw [Kernel.subscriber, rewritten, lookup_modify] at subscribed
  split at subscribed
  · rename_i same
    subst same
    refine ⟨subscriber, found, fun wakes => ?_⟩
    exact absurd (Option.some.inj (wakes.registered.symm.trans waits)) other
  · exact ⟨written, subscribed, fun wakes => wakes⟩

theorem CoreMove.waitersLinked (move : CoreMove before after)
    (agree : before.2.QueuesAgree) (ticks : before.2.WakeTicks)
    (holds : WaitersLinked (wakingThreads before.1) before.2) :
    WaitersLinked (wakingThreads after.1) after.2 := by
  have linked := holds.of_coreMove move
  have unchanged (same : after.2.subscribers = before.2.subscribers)
      (stays : wakingThreads after.1 = wakingThreads before.1) :
      WaitersLinked (wakingThreads after.1) after.2 := by
    refine linked (fun _ _ _ _ _ notWoken => stays ▸ notWoken) ?_
    intro id thread subscription subscriber _ _ _ found
    rw [Kernel.subscriber, same] at found
    exact ⟨subscriber, found, fun wakes => wakes⟩
  cases move with
  | store _ _ _ _ _ _ _ _ found _ result silent =>
    refine holds.of_modifySubscriber fun id thread _ _ _ _ oldFound wakes => ?_
    cases found.symm.trans oldFound
    exact wakes.store result silent
  | storeWake _ kernel _ target _ _ updated waiter found _ _ waits =>
    refine linked (fun _ _ _ _ _ notWoken => not_mem_of_not_mem_cons notWoken) ?_
    intro id thread subscription written notWoken _ _ subscribed
    have rewritten := (subscribers_detachWaiter
      (kernel.modifySubscriber target fun _ => updated) target waiter).trans
        (kernel.subscribers.modify_modify target (fun _ => updated) _)
    exact subscriber_detached found waits (ne_of_not_mem_cons notWoken) rewritten subscribed
  | detach _ _ _ _ _ found waits =>
    refine linked (fun _ _ _ _ _ notWoken => not_mem_of_not_mem_cons notWoken) ?_
    intro id thread subscription _ notWoken _ _ subscribed
    exact subscriber_detached found waits (ne_of_not_mem_cons notWoken)
      (subscribers_detachWaiter _ _ _) subscribed
  | woken _ _ _ settled =>
    refine linked ?_ fun _ _ _ subscriber _ _ _ found =>
      ⟨subscriber, found, id⟩
    intro id thread subscription found parked notWoken listed
    rcases mem_cons.mp listed with rfl | later
    · rcases settled with isCurrent | settled
      · have awake := (ticks id thread found).switchedIn isCurrent (by simp [parked.suspended])
        exact awake.1 parked.waiting
      · rcases settled thread found with notWaiting | queued
        · exact notWaiting parked.waiting
        · have ready := (agree.flagged id thread found queued).1
          cases parked.waiting.symm.trans ready
    · exact notWoken later
  | announce => exact unchanged (by rw [requestReschedule_eq]) rfl
  | unsubscribe =>
    refine linked (fun _ _ _ _ _ notWoken => notWoken) ?_
    intro _ _ _ subscriber _ _ _ found
    exact ⟨subscriber, of_remove found, fun wakes => wakes⟩
  | _ => exact unchanged rfl rfl

/-- Along a run of the core the queues, the wake ticks and the waiters stay as they
should be. -/
theorem CoreRun.waitersLinked (run : CoreRun before after)
    (agree : before.2.QueuesAgree) (ticks : before.2.WakeTicks)
    (holds : WaitersLinked (wakingThreads before.1) before.2) :
    WaitersLinked (wakingThreads after.1) after.2 := by
  induction run with
  | refl => exact holds
  | tail earlier move ih =>
    exact move.waitersLinked (agree.of_core earlier) (ticks.of_core earlier) ih

/-- What every state of a run has to offer for event waits. -/
structure Orderly (kernel : Kernel) : Prop where
  operational : kernel.Operational
  queues : kernel.QueuesAgree
  ticks : kernel.WakeTicks
  waiters : WaitersLinked [] kernel

/-- The current thread is not parked in an event wait. -/
theorem Orderly.current_not_parked (orderly : kernel.Orderly) {thread : Thread}
    (current : kernel.currentThread = some id)
    (found : kernel.thread id = some thread) : ¬ ParkedIn subscription thread := by
  intro parked
  have awake := (orderly.ticks id thread found).switchedIn current (by simp [parked.suspended])
  exact awake.1 parked.waiting

section

variable {scope : Scope} {before after : Stage × Kernel}
    (noWait : ∀ subscription, ¬ scope.suspend (.eventWait subscription))
include noWait

/-- Every move keeps the waiters, unless it parks a thread in an event wait. -/
theorem KernelMove.waitersLinked (move : KernelMove scope before after)
    (orderly : before.2.Orderly) : WaitersLinked [] after.2 := by
  have holds := orderly.waiters
  cases move with
  | core _ entry _ run =>
    rw [← entry.wakingThreads] at holds ⊢
    exact run.waitersLinked orderly.queues orderly.ticks holds
  | createThread =>
    refine holds.of_threads rfl fun _ thread _ found suspended => ?_
    rcases of_insert found with rfl | found
    · cases suspended
    · exact ⟨thread, found, suspended, id⟩
  | subscribe =>
    refine holds.of_parked (fun id thread subscription found suspended =>
      ⟨thread, found, suspended, fun waiting => ⟨waiting, fun notWoken => notWoken⟩⟩)
      (Nat.le_succ _) ?_
    intro id thread subscription written _ found parked subscribed
    have older := holds.assigned id thread subscription found parked.suspended
    exact ⟨written, of_insert_older older subscribed, fun wakes => wakes⟩
  | unsubscribe =>
    refine holds.of_parked (fun id thread subscription found suspended =>
      ⟨thread, found, suspended, fun waiting => ⟨waiting, fun notWoken => notWoken⟩⟩) le_rfl ?_
    intro id thread subscription subscriber _ _ _ found
    exact ⟨subscriber, of_remove found, fun wakes => wakes⟩
  | quantum | priority | lower | finishWait | push | relink =>
    exact holds.of_rewrites (.modify rfl) rfl fun _ _ _ suspended => ⟨suspended, id⟩
  | pop =>
    rw [readyQueueRemove_eq]
    exact holds.of_rewrites (thread_readyQueueRemove _ _ ·) rfl
      fun _ _ _ suspended => ⟨suspended, id⟩
  | requeue _ _ _ _ resetRequeuedQuantum =>
    refine holds.of_rewrites (.modify rfl) rfl fun old subscription _ suspended => ?_
    cases resetRequeuedQuantum <;> exact ⟨suspended, nofun⟩
  | park _ _ _ _ thread _ _ _ _ _ found _ executing =>
    refine holds.of_rewrites (.modify rfl) rfl fun old subscription oldFound suspended => ?_
    cases found.symm.trans oldFound
    have waits : thread.continuation = .eventWait subscription := suspended
    cases executing.symm.trans waits
  | retire | selfSwitch =>
    exact holds.of_rewrites (.modify rfl) rfl fun _ _ _ suspended => ⟨suspended, nofun⟩
  | bind =>
    rw [startRunning_eq]
    exact holds.of_rewrites (.modify rfl) rfl fun _ _ _ suspended => ⟨suspended, nofun⟩
  | switchIn _ continuation _ allowed notCurrent =>
    refine holds.of_threads (subscribers_switchIn ..) fun _ written subscription found suspended =>
      ?_
    obtain ⟨old, oldFound, cases⟩ := thread_switchIn notCurrent found
    rcases cases with ⟨-, rfl⟩ | ⟨-, -, rfl⟩ | ⟨-, -, rfl⟩
    · exact ⟨old, oldFound, suspended, id⟩
    · have isWait : continuation = .eventWait subscription := suspended
      subst isWait
      exact absurd allowed (noWait subscription)
    · exact ⟨written, oldFound, suspended, id⟩
  | resumed => exact holds.of_rewrites (.modify rfl) rfl fun _ _ _ => nofun
  | setWaiter _ _ _ _ _ _ current found _ _ free =>
    refine holds.of_modifySubscriber fun other thread old _ otherFound parked oldFound wakes => ?_
    cases found.symm.trans oldFound
    rcases free with none | own
    · have registered := wakes.registered
      cases none.symm.trans registered
    · obtain rfl := Option.mem_unique wakes.registered own
      exact absurd parked (orderly.current_not_parked current otherFound)
  | clearWaiter _ _ id current =>
    refine holds.of_modifySubscriber fun other thread old _ otherFound parked _ wakes => ?_
    have ne : other ≠ id := by
      rintro rfl
      exact orderly.current_not_parked current otherFound parked
    have notCleared : ¬ old.waitingThread = some id := fun own =>
      ne (Option.some.inj (wakes.registered.symm.trans own))
    rw [if_neg notCleared]
    exact wakes
  | readEvents _ _ subscriber count found =>
    refine holds.of_modifySubscriber fun _ _ _ _ _ _ oldFound wakes => ?_
    cases found.symm.trans oldFound
    refine ⟨Nat.le_zero.mp (wakes.empty ▸
      EventSubscriber.queuedCount_readRecords_le count subscriber), ?_⟩
    exact (congrArg (fun identity => identity.2.2)
      (EventSubscriber.identity_readRecords count subscriber)).trans wakes.registered
  | _ => exact holds.of_registry rfl rfl

theorem KernelMove.orderly (move : KernelMove scope before after)
    (orderly : before.2.Orderly) : after.2.Orderly where
  operational := move.operational orderly.operational
  queues := orderly.queues.of_move move
  ticks := orderly.ticks.of_move move
  waiters := move.waitersLinked noWait orderly

theorem KernelMoves.orderly (moves : KernelMoves scope before after)
    (orderly : before.2.Orderly) : after.2.Orderly := by
  induction moves with
  | refl => exact orderly
  | tail _ move ih => exact move.orderly noWait ih

end

/-- The switch that parks the current thread in an event wait, provided that it
will be woken. -/
theorem Orderly.switchIn_eventWait (orderly : kernel.Orderly) {waiter : ThreadId}
    (notCurrent : kernel.currentThread ≠ some id)
    (awake : ∀ thread, kernel.thread id = some thread → Awake thread)
    (current : kernel.currentThread = some waiter)
    (subscribed : kernel.subscriber subscription = some subscriber)
    (wakes : WillWake waiter subscriber) :
    (kernel.switchIn id (.eventWait subscription)).Orderly := by
  have move : KernelMove Permits.all.scope (.binding (.eventWait subscription) id, kernel)
      (.running, kernel.switchIn id (.eventWait subscription)) :=
    .switchIn _ _ _ trivial notCurrent awake
  refine ⟨move.operational orderly.operational, orderly.queues.of_move move,
    orderly.ticks.of_move move, ?_⟩
  constructor
  · intro other written waited record found parked waitedFound _
    rw [Kernel.subscriber, subscribers_switchIn] at waitedFound
    obtain ⟨old, oldFound, cases⟩ := thread_switchIn notCurrent found
    rcases cases with ⟨-, rfl⟩ | ⟨-, isCurrent, rfl⟩ | ⟨-, -, rfl⟩
    · exact orderly.waiters.linked other old waited record oldFound
        ⟨parked.waiting, parked.suspended⟩ waitedFound not_mem_nil
    · cases current.symm.trans isCurrent
      have same : Continuation.eventWait subscription = .eventWait waited := parked.suspended
      cases same
      cases subscribed.symm.trans waitedFound
      exact wakes
    · exact orderly.waiters.linked other written waited record oldFound parked
        waitedFound not_mem_nil
  · intro other written waited found suspended
    rw [subscribers_switchIn]
    obtain ⟨old, oldFound, cases⟩ := thread_switchIn notCurrent found
    rcases cases with ⟨-, rfl⟩ | ⟨-, -, rfl⟩ | ⟨-, -, rfl⟩
    · exact orderly.waiters.assigned other old waited oldFound suspended
    · have same : Continuation.eventWait subscription = .eventWait waited := suspended
      cases same
      exact kernel.subscribers.lookup_lt_nextId subscribed
    · exact orderly.waiters.assigned other written waited oldFound suspended

end

theorem orderly_booted
    (processName threadName : Text) {pageTableRoot : ℕ} (table : pageTableRoot ≠ 0) :
    (booted processName threadName pageTableRoot).Orderly := by
  refine ⟨operational_booted _ _ table, .booting _ _ _, .booting _ _ _, ?_⟩
  have noWait : ∀ id thread subscription,
      (booted processName threadName pageTableRoot).thread id = some thread →
      thread.continuation ≠ .eventWait subscription := by
    intro id thread subscription found
    rw [thread_booted] at found
    split at found
    · cases found
      exact Continuation.noConfusion
    split at found
    · cases found
      exact Continuation.noConfusion
    · cases found
  constructor
  · intro id thread subscription _ found parked
    exact absurd parked.suspended (noWait id thread subscription found)
  · intro id thread subscription found suspended
    exact absurd suspended (noWait id thread subscription found)

end RosKernel.Kernel
