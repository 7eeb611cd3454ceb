import RosKernel.Kernel.EventWait
import RosKernel.Kernel.SchedulerQueues
import RosKernel.Kernel.Subscriptions

/-!
# Tearing down threads and subscriptions

A subscription points to the thread that waits on it, and a thread suspended in a wait
comes back to the subscription. Neither end knows of the other's destruction: a
destroyed thread stays registered as the waiter, and a subscription can be released
under a thread that has yet to return from its wait.
-/

namespace RosKernel

open List Registry Option

/-- The subscription a suspended thread waits on. -/
def Continuation.waitsOn : Continuation → Option SubscriptionId
  | .eventWait subscription => some subscription
  | _ => none

/-- The subscription the current thread waits on, while it executes the wait or is
being left in it. -/
def Stage.waitsOn : Stage → Option SubscriptionId
  | .running => none
  | .waiting subscription => some subscription
  | .leaving continuation => continuation.waitsOn
  | .requeuing continuation => continuation.waitsOn
  | .chosen continuation _ => continuation.waitsOn
  | .binding continuation _ => continuation.waitsOn

theorem Stage.waitsOn_ofContinuation (continuation : Continuation) :
    (Stage.ofContinuation continuation).waitsOn = continuation.waitsOn := by
  cases continuation <;> rfl

namespace Kernel

variable {continuation : Continuation}

theorem Plain.waitsOn (plain : Plain continuation) : continuation.waitsOn = none := by
  cases continuation with
  | eventWait subscription => exact absurd rfl (plain.1 subscription)
  | _ => rfl

/-! ## Waits below the calls of the core -/

/-- A thread has started a wait on a subscription and not returned from it. -/
def InsideWait (state : Stage × Kernel) (subscription : SubscriptionId) (id : ThreadId)
    (thread : Thread) : Prop :=
  state.2.currentThread = some id ∧ state.1.waitsOn = some subscription ∨
    thread.continuation.waitsOn = some subscription

/-- The current thread is alive until it is left for good, and when it is left in a wait
it is parked. -/
structure CurrentSound (stage : Stage) (kernel : Kernel) (id : ThreadId) (thread : Thread) :
    Prop where
  alive : stage.leftWith = none → thread.currentState ≠ .terminated
  executing : stage.leftWith ≠ none → thread.continuation = .executing
  parked : ∀ subscription, stage.leftWith = some (.eventWait subscription) →
    thread.currentState = .waiting ∧ kernel.idleThread ≠ some id

/-- A registered waiter is a live thread of the subscription's owner, inside the wait. -/
structure WaiterSound (state : Stage × Kernel) (subscription : SubscriptionId)
    (owner : ProcessId) (waiter : ThreadId) (thread : Thread) : Prop where
  alive : thread.currentState ≠ .terminated
  member : thread.parent = some owner
  inside : InsideWait state subscription waiter thread

/-- Subscriptions and the threads inside waits find each other, and nobody is inside a
wait on certain subscriptions. -/
structure WaitsKept (unwaited : SubscriptionId → Prop) (stage : Stage) (frames : List Frame)
    (kernel : Kernel) : Prop where
  current : ∀ id, kernel.currentThread = some id →
    ∃ thread, kernel.thread id = some thread ∧ CurrentSound stage kernel id thread
  target : ∀ id, stage.target = some id →
    ∃ thread, kernel.thread id = some thread ∧ thread.currentState ≠ .terminated
  dying : ∀ id, .dying id ∈ frames → kernel.currentThread ≠ some id
  requested : ∀ id, .requested id ∈ frames → stage.leftWith = none
  waiters : ∀ subscription subscriber waiter,
    kernel.subscriber subscription = some subscriber →
    subscriber.waitingThread = some waiter →
    ∃ thread, kernel.thread waiter = some thread ∧
      WaiterSound (stage, kernel) subscription subscriber.ownerProcessId waiter thread
  linked : ∀ subscription id thread, kernel.thread id = some thread →
    InsideWait (stage, kernel) subscription id thread →
    ∃ subscriber, kernel.subscriber subscription = some subscriber ∧
      thread.parent = some subscriber.ownerProcessId ∧ ¬ unwaited subscription

/-- The processes of registered waiters are not terminated. -/
def WaitersLive (kernel : Kernel) : Prop :=
  ∀ subscription waiter, kernel.IsWaiter subscription waiter → kernel.LiveOwner waiter

section

variable {unwaited : SubscriptionId → Prop} {stage : Stage} {before after : List Frame × Kernel}

variable {id : ThreadId}

section

variable (move : CoreMove before after)
include move

/-- A live thread of a live process that is not the current one stays alive. -/
theorem CoreMove.stays_alive (retired : before.2.RetiredTerminated)
    {thread : Thread} (found : before.2.thread id = some thread)
    (alive : thread.currentState ≠ .terminated)
    (live : before.2.currentThread = some id ∨ before.2.LiveOwner id) :
    ∃ written, after.2.thread id = some written ∧ written.currentState ≠ .terminated ∧
      written.parent = thread.parent ∧ written.continuation = thread.continuation := by
  rcases move.thread_after found with ⟨written, writtenFound⟩ | ⟨-, terminated⟩
  · obtain ⟨_, oldFound, parent, -, continuation, -⟩ := move.frame.thread id written writtenFound
    cases found.symm.trans oldFound
    refine ⟨written, writtenFound, ?_, parent, continuation⟩
    obtain ⟨_, sameFound, write⟩ := move.stateWrite writtenFound
    cases found.symm.trans sameFound
    cases write with
    | kept state => exact fun terminated => alive (state ▸ terminated)
    | readied _ _ isReady =>
      rw [isReady]
      exact nofun
    | ended _ notCurrent cause =>
      have owned := live.resolve_left notCurrent
      rcases cause with listed | ⟨owner, process, isParent, processFound, closed⟩
      · exact absurd ((retired id listed).2.2 thread found) alive
      · exact absurd closed (owned.alive thread owner process found isParent processFound)
  · exact absurd terminated alive

theorem CoreMove.currentSound (kept : WaitsKept unwaited stage before.1 before.2)
    (current : after.2.currentThread = some id) :
    ∃ written, after.2.thread id = some written ∧ CurrentSound stage after.2 id written := by
  rw [move.frame.currentThread] at current
  obtain ⟨_, found, sound⟩ := kept.current id current
  rcases move.thread_after found with ⟨written, writtenFound⟩ | ⟨dying, -⟩
  · refine ⟨written, writtenFound, ?_⟩
    obtain ⟨_, oldFound, -, -, continuation, -⟩ := move.frame.thread id written writtenFound
    cases found.symm.trans oldFound
    obtain ⟨_, sameFound, write⟩ := move.stateWrite writtenFound
    cases found.symm.trans sameFound
    have executing (left : stage.leftWith ≠ none) : written.continuation = .executing :=
      continuation.trans (sound.executing left)
    cases write with
    | kept state =>
      refine ⟨fun stays => state ▸ sound.alive stays, executing, fun subscription left => ?_⟩
      rw [state, move.frame.idleThread]
      exact sound.parked subscription left
    | readied _ guarded isReady =>
      obtain ⟨-, requested⟩ := guarded.resolve_left (fun other => other current)
      have stays := kept.requested id (mem_of_head? requested)
      refine ⟨fun _ => isReady ▸ nofun, executing, fun _ left => ?_⟩
      cases stays.symm.trans left
    | ended _ notCurrent => exact absurd current notCurrent
  · exact absurd current (kept.dying id dying)

variable {subscriber : EventSubscriber}

theorem CoreMove.waiterSound (kept : WaitsKept unwaited stage before.1 before.2)
    (retired : before.2.RetiredTerminated) (live : before.2.WaitersLive)
    {subscription : SubscriptionId} {waiter : ThreadId}
    (found : after.2.subscriber subscription = some subscriber)
    (waits : subscriber.waitingThread = some waiter) :
    ∃ written, after.2.thread waiter = some written ∧
      WaiterSound (stage, after.2) subscription subscriber.ownerProcessId waiter written := by
  have earlier := move.isWaiter ⟨subscriber, found, waits⟩
  obtain ⟨old, oldFound, waited⟩ := earlier
  obtain ⟨_, sameFound, owner, -⟩ := move.subscribersKept subscription subscriber found
  cases oldFound.symm.trans sameFound
  obtain ⟨_, threadFound, sound⟩ := kept.waiters subscription old waiter oldFound waited
  obtain ⟨written, writtenFound, alive, parent, continuation⟩ :=
    move.stays_alive retired threadFound sound.alive
      (.inr (live subscription waiter ⟨old, oldFound, waited⟩))
  refine ⟨written, writtenFound, alive, ?_, ?_⟩
  · rw [parent, owner]
    exact sound.member
  · have inside := sound.inside
    unfold InsideWait at inside ⊢
    rw [move.frame.currentThread, continuation]
    exact inside

/-- A subscription is released only when its owner has no threads left. -/
theorem CoreMove.subscriber_after {id : SubscriptionId}
    (found : before.2.subscriber id = some subscriber) :
    (∃ written, after.2.subscriber id = some written ∧
        written.ownerProcessId = subscriber.ownerProcessId) ∨
      before.2.processThreads subscriber.ownerProcessId = [] := by
  have kept : after.2.subscriber id ≠ none → ∃ written, after.2.subscriber id = some written ∧
      written.ownerProcessId = subscriber.ownerProcessId := by
    intro present
    obtain ⟨written, writtenFound⟩ := ne_none_iff_exists'.mp present
    obtain ⟨_, oldFound, owner, -⟩ := move.subscribersKept id written writtenFound
    cases found.symm.trans oldFound
    exact ⟨written, writtenFound, owner⟩
  have modified {target : SubscriptionId} {update : EventSubscriber → EventSubscriber}
      (subscribers : after.2.subscribers = before.2.subscribers.modify target update) :
      after.2.subscriber id ≠ none := by
    rw [Kernel.subscriber, subscribers, lookup_modify,
      show before.2.subscribers.lookup id = _ from found]
    split <;> simp
  cases move.subscribersWrite with
  | same subscribers =>
    refine .inl (kept ?_)
    rw [Kernel.subscriber, subscribers]
    exact ne_none_iff_exists'.mpr ⟨subscriber, found⟩
  | stored _ _ _ _ _ subscribers => exact .inl (kept (modified subscribers))
  | detached _ subscribers => exact .inl (kept (modified subscribers))
  | removed target _ removedFound empty subscribers =>
    by_cases isTarget : id = target
    · subst isTarget
      cases removedFound.symm.trans found
      exact .inr empty
    · refine .inl (kept ?_)
      rw [Kernel.subscriber, subscribers, lookup_remove, if_neg isTarget]
      exact ne_none_iff_exists'.mpr ⟨subscriber, found⟩

/-- The core destroys no current thread. -/
theorem CoreMove.dies (dying : .dying id ∈ after.1) :
    .dying id ∈ before.1 ∨ before.2.currentThread ≠ some id := by
  cases move with
  | reap _ _ _ _ _ _ _ notCurrent =>
    rcases mem_cons.mp dying with same | earlier
    · cases same
      exact .inr notCurrent
    · exact .inl earlier
  | terminate _ _ _ _ _ _ _ _ _ _ notCurrent =>
    rcases mem_cons.mp dying with same | earlier
    · cases same
      exact .inr notCurrent
    · exact .inl earlier
  | published | woken | announce | unregister => exact .inl (.tail _ dying)
  | publish | skip | advance | store | storeWake | detach | link =>
    refine .inl ?_
    revert dying
    simp
  | _ => exact .inl dying

/-- Requests from outside the core are made when it is entered. -/
theorem CoreMove.requests (requested : .requested id ∈ after.1) : .requested id ∈ before.1 := by
  cases move with
  | published | woken | announce | unregister => exact .tail _ requested
  | publish | skip | advance | store | storeWake | detach | link | reap | terminate =>
    revert requested
    simp
  | _ => exact requested

theorem CoreMove.waitsKept
    (kept : WaitsKept unwaited stage before.1 before.2) (named : NamedLive (stage, before.2))
    (retired : before.2.RetiredTerminated) (live : before.2.WaitersLive) :
    WaitsKept unwaited stage after.1 after.2 where
  current _ isCurrent := move.currentSound kept isCurrent
  target id isTarget := by
    obtain ⟨thread, found, alive⟩ := kept.target id isTarget
    obtain ⟨written, writtenFound, stillAlive, -⟩ :=
      move.stays_alive retired found alive (.inr (named id (.inr isTarget)))
    exact ⟨written, writtenFound, stillAlive⟩
  dying id dying := by
    rw [move.frame.currentThread]
    rcases move.dies dying with earlier | notCurrent
    · exact kept.dying id earlier
    · exact notCurrent
  requested id requested := kept.requested id (move.requests requested)
  waiters _ _ _ found waits := move.waiterSound kept retired live found waits
  linked subscription id written found inside := by
    obtain ⟨thread, threadFound, parent, -, continuation, -⟩ := move.frame.thread id written found
    unfold InsideWait at inside
    rw [move.frame.currentThread, continuation] at inside
    obtain ⟨_, subscribed, mem⟩ := kept.linked subscription id thread threadFound inside
    rcases move.subscriber_after subscribed with ⟨still, stillFound, owner⟩ | empty
    · exact ⟨still, stillFound, by rwa [parent, owner]⟩
    · have listed := mem_processThreads_iff.mpr ⟨thread, threadFound, mem.1⟩
      rw [empty] at listed
      cases listed

end

theorem CoreRun.waitsKept (run : CoreRun before after)
    (kept : WaitsKept unwaited stage before.1 before.2) (named : NamedLive (stage, before.2))
    (retired : before.2.RetiredTerminated) (live : before.2.WaitersLive) :
    WaitsKept unwaited stage after.1 after.2 ∧ NamedLive (stage, after.2) ∧
      after.2.RetiredTerminated ∧ after.2.WaitersLive := by
  induction run with
  | refl => exact ⟨kept, named, retired, live⟩
  | tail _ move ih =>
    obtain ⟨middleKept, middleNamed, middleRetired, middleLive⟩ := ih
    refine ⟨move.waitsKept middleKept middleNamed middleRetired middleLive, ?_,
      move.retiredTerminated middleRetired, ?_⟩
    · intro id isNamed
      rw [move.frame.currentThread] at isNamed
      exact move.liveOwner (middleNamed id isNamed)
    · exact fun subscription waiter waits =>
        move.liveOwner (middleLive subscription waiter (move.isWaiter waits))

end

/-! ## Waits through an operation -/

variable {thread : Thread}

section

variable {unwaited : SubscriptionId → Prop} {scope : Scope} {before after : Stage × Kernel}

section

variable (kept : WaitsKept unwaited before.1 [] before.2)
include kept

/-- A move that writes to threads only and leaves those inside waits inside them. -/
theorem WaitsKept.of_map
    (subscribers : after.2.subscribers = before.2.subscribers) {update : ThreadId → Thread → Thread}
    (rewritten : ∀ id, after.2.thread id = (before.2.thread id).map (update id))
    (parent : ∀ id thread, (update id thread).parent = thread.parent)
    (inside : ∀ subscription id thread, before.2.thread id = some thread →
      (InsideWait after subscription id (update id thread) ↔
        InsideWait before subscription id thread))
    (alive : ∀ subscription id thread, before.2.IsWaiter subscription id →
      before.2.thread id = some thread → thread.currentState ≠ .terminated →
      (update id thread).currentState ≠ .terminated) (targets : ∀ id, after.1.target = some id →
      ∃ thread, after.2.thread id = some thread ∧ thread.currentState ≠ .terminated)
    (current : ∀ id, after.2.currentThread = some id → ∃ thread,
      before.2.thread id = some thread ∧ CurrentSound after.1 after.2 id (update id thread)) :
    WaitsKept unwaited after.1 [] after.2 := by
  have forward {id : ThreadId} {thread : Thread} (found : before.2.thread id = some thread) :
      after.2.thread id = some (update id thread) := by
    rw [rewritten, found]
    rfl
  refine ⟨?_, targets, nofun, nofun, ?_, ?_⟩
  · intro id isCurrent
    obtain ⟨thread, found, sound⟩ := current id isCurrent
    exact ⟨update id thread, forward found, sound⟩
  · intro subscription subscriber waiter found waits
    rw [Kernel.subscriber, subscribers] at found
    obtain ⟨thread, threadFound, sound⟩ := kept.waiters subscription subscriber waiter found waits
    refine ⟨update waiter thread, forward threadFound, ?_, ?_, ?_⟩
    · exact alive subscription waiter thread ⟨subscriber, found, waits⟩ threadFound sound.alive
    · rw [parent]
      exact sound.member
    · exact (inside subscription waiter thread threadFound).mpr sound.inside
  · intro subscription id _ found insideAfter
    rw [rewritten] at found
    obtain ⟨thread, threadFound, rfl⟩ := map_eq_some_iff.mp found
    obtain ⟨subscriber, subscribed, mem⟩ := kept.linked subscription id thread threadFound
      ((inside subscription id thread threadFound).mp insideAfter)
    rw [Kernel.subscriber, subscribers, parent]
    exact ⟨subscriber, subscribed, mem⟩

variable {target : ThreadId} {update : Thread → Thread}
    (current : after.2.currentThread = before.2.currentThread)
    (waitsOn : after.1.waitsOn = before.1.waitsOn)
    (subscribers : after.2.subscribers = before.2.subscribers)
    (rewritten : Rewrites before.2 after.2 target update)
include current waitsOn subscribers rewritten

/-- A move that writes to one thread, keeps its parent and its continuation, and neither
starts nor ends a wait. -/
theorem WaitsKept.of_write
    (parent : ∀ thread, (update thread).parent = thread.parent)
    (continuation : ∀ thread, (update thread).continuation = thread.continuation)
    (alive : ∀ subscription thread, before.2.IsWaiter subscription target →
      before.2.thread target = some thread → thread.currentState ≠ .terminated →
      (update thread).currentState ≠ .terminated) (targets : ∀ id, after.1.target = some id →
      ∃ thread, after.2.thread id = some thread ∧ thread.currentState ≠ .terminated)
    (sound : ∀ id thread, before.2.currentThread = some id →
      before.2.thread id = some thread → CurrentSound before.1 before.2 id thread →
      CurrentSound after.1 after.2 id (if id = target then update thread else thread)) :
    WaitsKept unwaited after.1 [] after.2 := by
  have mapped : ∀ id, after.2.thread id =
      (before.2.thread id).map fun thread => if id = target then update thread else thread := by
    intro id
    rw [rewritten]
    split
    · rfl
    · rw [Option.map_id']
  refine kept.of_map subscribers mapped ?_ ?_ ?_ targets ?_
  · intro id thread
    split
    · exact parent thread
    · rfl
  · intro subscription id thread _
    unfold InsideWait
    rw [current, waitsOn]
    split
    · rw [continuation]
    · rfl
  · intro subscription id thread waits found isAlive
    split
    · rename_i isTarget
      subst isTarget
      exact alive subscription thread waits found isAlive
    · exact isAlive
  · intro id isCurrent
    rw [current] at isCurrent
    obtain ⟨thread, found, holds⟩ := kept.current id isCurrent
    exact ⟨thread, found, sound id thread isCurrent found holds⟩

/-- A move that leaves the states of threads as they are. -/
theorem WaitsKept.of_quiet_write (idle : after.2.idleThread = before.2.idleThread)
    (leftWith : after.1.leftWith = before.1.leftWith) (targetless : after.1.target = none)
    (kept_fields : ∀ thread, (update thread).parent = thread.parent ∧
      (update thread).continuation = thread.continuation ∧
      (update thread).currentState = thread.currentState) :
    WaitsKept unwaited after.1 [] after.2 := by
  refine kept.of_write current waitsOn subscribers rewritten (fun thread => (kept_fields thread).1)
    (fun thread => (kept_fields thread).2.1) ?_ ?_ ?_
  · exact fun _ thread _ _ alive => (kept_fields thread).2.2 ▸ alive
  · intro id isTarget
    cases targetless.symm.trans isTarget
  · intro id thread _ _ sound
    have same : (if id = target then update thread else thread).currentState = thread.currentState ∧
        (if id = target then update thread else thread).continuation = thread.continuation := by
      split
      · exact ⟨(kept_fields thread).2.2, (kept_fields thread).2.1⟩
      · exact ⟨rfl, rfl⟩
    constructor
    · rw [same.1, leftWith]
      exact sound.alive
    · rw [same.2, leftWith]
      exact sound.executing
    · rw [same.1, leftWith, idle]
      exact sound.parked

end

theorem Rewrites.of_threads {first second : Kernel} (threads : second.threads = first.threads) :
    Rewrites first second 0 fun thread => thread := by
  intro _
  rw [Option.map_id', ite_self, Kernel.thread, threads]
  rfl

/-- A call of the broker that registers no waiter and releases no subscription somebody
is inside a wait on. -/
theorem WaitsKept.of_subscribers {kernel written : Kernel}
    (kept : WaitsKept unwaited .running [] kernel)
    (current : written.currentThread = kernel.currentThread)
    (idle : written.idleThread = kernel.idleThread) (threads : written.threads = kernel.threads)
    (waiters : ∀ id subscriber waiter, written.subscriber id = some subscriber →
      subscriber.waitingThread = some waiter → ∃ old, kernel.subscriber id = some old ∧
        old.waitingThread = some waiter ∧
        subscriber.ownerProcessId = old.ownerProcessId)
    (linked : ∀ id subscriber, kernel.subscriber id = some subscriber →
      (∃ waiter thread, kernel.thread waiter = some thread ∧
        InsideWait (.running, kernel) id waiter thread) →
      ∃ still, written.subscriber id = some still ∧
        still.ownerProcessId = subscriber.ownerProcessId) :
    WaitsKept unwaited .running [] written := by
  have same (id : ThreadId) : written.thread id = kernel.thread id :=
    congrArg (·.lookup id) threads
  have sameInside {subscription : SubscriptionId} {id : ThreadId} {thread : Thread} :
      InsideWait (.running, written) subscription id thread ↔
        InsideWait (.running, kernel) subscription id thread := by
    unfold InsideWait
    rw [current]
  refine ⟨?_, nofun, nofun, nofun, ?_, ?_⟩
  · intro id isCurrent
    rw [current] at isCurrent
    obtain ⟨thread, found, sound⟩ := kept.current id isCurrent
    refine ⟨thread, (same id).trans found, sound.alive, sound.executing, ?_⟩
    rw [idle]
    exact sound.parked
  · intro id subscriber waiter found waits
    obtain ⟨old, oldFound, waited, owner⟩ := waiters id subscriber waiter found waits
    obtain ⟨thread, threadFound, sound⟩ := kept.waiters id old waiter oldFound waited
    refine ⟨thread, (same waiter).trans threadFound, sound.alive, ?_, ?_⟩
    · rw [owner]
      exact sound.member
    · exact sameInside.mpr sound.inside
  · intro subscription id thread found inside
    rw [same] at found
    have insideBefore := sameInside.mp inside
    obtain ⟨subscriber, subscribed, mem⟩ := kept.linked subscription id thread found insideBefore
    obtain ⟨still, stillFound, owner⟩ := linked subscription subscriber subscribed
      ⟨id, thread, found, insideBefore⟩
    exact ⟨still, stillFound, by rwa [owner]⟩

variable {kernel : Kernel}

/-- A subscription whose record is rewritten stays linked. -/
theorem subscriber_of_modify {id : SubscriptionId} {subscriber : EventSubscriber}
    (found : kernel.subscriber id = some subscriber)
    (target : SubscriptionId) (update : EventSubscriber → EventSubscriber)
    (owner : ∀ subscriber, kernel.subscriber target = some subscriber →
      (update subscriber).ownerProcessId = subscriber.ownerProcessId) :
    ∃ still, (kernel.modifySubscriber target update).subscriber id = some still ∧
      still.ownerProcessId = subscriber.ownerProcessId := by
  rw [subscriber_modifySubscriber]
  split
  · rename_i isTarget
    subst isTarget
    exact ⟨update subscriber, congrArg (Option.map update) found, owner subscriber found⟩
  · exact ⟨subscriber, found, rfl⟩

variable {subscription : SubscriptionId} {id : ThreadId}

/-- In the stage `running` being inside a wait shows in the continuation. -/
theorem insideWait_running :
    InsideWait (.running, kernel) subscription id thread ↔
      thread.continuation.waitsOn = some subscription := by
  refine ⟨fun inside => inside.resolve_left ?_, .inr⟩
  rintro ⟨-, isWait⟩
  cases isWait

/-- The current thread enters a wait on a subscription of its own process. -/
theorem WaitsKept.setWaiter (kept : WaitsKept unwaited .running [] kernel)
    {subscriber : EventSubscriber} (current : kernel.currentThread = some id)
    (found : kernel.subscriber subscription = some subscriber)
    (own : ∀ thread, kernel.thread id = some thread →
      thread.parent = some subscriber.ownerProcessId) (allowed : ¬ unwaited subscription) :
    WaitsKept unwaited (.waiting subscription) []
      (kernel.modifySubscriber subscription fun subscriber =>
        { subscriber with waitingThread := some id }) := by
  obtain ⟨caller, callerFound, callerSound⟩ := kept.current id current
  have onward {other : SubscriptionId} {waiter : ThreadId} {thread : Thread}
      (inside : InsideWait (.running, kernel) other waiter thread) :
      thread.continuation.waitsOn = some other := insideWait_running.mp inside
  refine ⟨?_, nofun, nofun, nofun, ?_, ?_⟩
  · intro other isCurrent
    cases current.symm.trans isCurrent
    exact ⟨caller, callerFound, callerSound.alive, fun left => absurd rfl left, nofun⟩
  · intro other written waiter writtenFound waits
    rcases written_cases (subscriber_modifySubscriber ..) writtenFound with
      ⟨rfl, old, oldFound, rfl⟩ | ⟨-, writtenFound⟩
    · cases found.symm.trans oldFound
      obtain rfl : id = waiter := Option.some.inj waits
      exact ⟨caller, callerFound, callerSound.alive rfl, own caller callerFound,
        .inl ⟨current, rfl⟩⟩
    · obtain ⟨thread, threadFound, sound⟩ := kept.waiters other written waiter writtenFound waits
      exact ⟨thread, threadFound, sound.alive, sound.member, .inr (onward sound.inside)⟩
  · intro other waiter thread threadFound inside
    have owner : ∃ old, kernel.subscriber other = some old ∧
        thread.parent = some old.ownerProcessId ∧ ¬ unwaited other := by
      rcases inside with ⟨isCurrent, isWaited⟩ | continues
      · cases current.symm.trans isCurrent
        obtain rfl : subscription = other := Option.some.inj isWaited
        exact ⟨subscriber, found, own thread threadFound, allowed⟩
      · exact kept.linked other waiter thread threadFound (.inr continues)
    obtain ⟨_, oldFound, mem⟩ := owner
    obtain ⟨still, stillFound, sameOwner⟩ := subscriber_of_modify oldFound subscription
      (fun subscriber => { subscriber with waitingThread := some id }) fun _ _ => rfl
    exact ⟨still, stillFound, by rwa [sameOwner]⟩

/-- The end of a wait leaves subscriptions linked. -/
theorem subscriber_of_eventWaitTail {other : SubscriptionId} {subscriber : EventSubscriber}
    (found : kernel.subscriber other = some subscriber) :
    ∃ still, (kernel.eventWaitTail subscription id).subscriber other = some still ∧
      still.ownerProcessId = subscriber.ownerProcessId :=
  subscriber_of_modify found subscription _ fun _ _ => by split <;> rfl

/-- The current thread returns from a wait. -/
theorem WaitsKept.clearWaiter (kept : WaitsKept unwaited (.waiting subscription) [] kernel)
    (current : kernel.currentThread = some id) :
    WaitsKept unwaited .running [] (kernel.eventWaitTail subscription id) := by
  refine ⟨?_, nofun, nofun, nofun, ?_, ?_⟩
  · intro other isCurrent
    obtain ⟨thread, found, sound⟩ := kept.current other isCurrent
    exact ⟨thread, found, sound.alive, fun left => absurd rfl left, nofun⟩
  · intro other written waiter writtenFound waits
    obtain ⟨⟨old, oldFound, waited⟩, notSelf⟩ :=
      IsWaiter.of_eventWaitTail ⟨written, writtenFound, waits⟩
    obtain ⟨_, stillFound, owner⟩ := subscriber_of_eventWaitTail oldFound
    cases writtenFound.symm.trans stillFound
    obtain ⟨thread, threadFound, sound⟩ := kept.waiters other old waiter oldFound waited
    refine ⟨thread, threadFound, sound.alive, by rw [owner]; exact sound.member, .inr ?_⟩
    refine sound.inside.resolve_left ?_
    rintro ⟨isCurrent, isWaited⟩
    obtain rfl : subscription = other := Option.some.inj isWaited
    exact notSelf rfl (Option.some.inj (isCurrent.symm.trans current))
  · intro other waiter thread threadFound inside
    obtain ⟨_, oldFound, mem⟩ := kept.linked other waiter thread threadFound
      (.inr (insideWait_running.mp inside))
    obtain ⟨still, stillFound, owner⟩ := subscriber_of_eventWaitTail oldFound
    exact ⟨still, stillFound, by rwa [owner]⟩

/-- The operation may remove the subscription. -/
def Scope.Removes (scope : Scope) (subscription : SubscriptionId) : Prop :=
  ∃ owner, scope.unsubscribe owner subscription

/-- What keeps waits intact between the moves of an operation. -/
structure TeardownSound (scope : Scope) (state : Stage × Kernel) : Prop where
  /-- Nobody is inside a wait on a subscription that is removed. -/
  kept : WaitsKept scope.Removes state.1 [] state.2
  named : NamedLive state
  retired : state.2.RetiredTerminated
  live : state.2.WaitersLive
  callers : ∀ id, scope.caller id → id < state.2.threads.nextId
  /-- A wait that starts is on a subscription of the caller's process. -/
  wait : ∀ owner subscription, scope.wait owner subscription → ∀ id thread, scope.caller id →
    state.2.thread id = some thread → thread.parent = some owner
  /-- No process with a registered waiter is going to be destroyed. -/
  doomed : ∀ owner, scope.destroy owner → ∀ subscription waiter thread,
    state.2.IsWaiter subscription waiter → state.2.thread waiter = some thread →
    thread.parent ≠ some owner
  apart : ∀ owner subscription, scope.wait owner subscription →
    (∀ other target, ¬ scope.unsubscribe other target) ∧ ∀ other, ¬ scope.destroy other

/-- Nobody is inside a wait on other subscriptions either. -/
theorem WaitsKept.spare {stage : Stage} {frames : List Frame} {other : SubscriptionId → Prop}
    (kept : WaitsKept unwaited stage frames kernel)
    (spared : ∀ subscription id thread, kernel.thread id = some thread →
      InsideWait (stage, kernel) subscription id thread → ¬ other subscription) :
    WaitsKept other stage frames kernel := by
  refine { kept with linked := fun subscription id thread found inside => ?_ }
  obtain ⟨subscriber, subscribed, mem, -⟩ := kept.linked subscription id thread found inside
  exact ⟨subscriber, subscribed, mem, spared subscription id thread found inside⟩

theorem WaitsKept.reframe {stage : Stage} {frames other : List Frame}
    (kept : WaitsKept unwaited stage frames kernel) (dying : ∀ id, .dying id ∉ other)
    (requested : ∀ id, .requested id ∈ other → stage.leftWith = none) :
    WaitsKept unwaited stage other kernel :=
  { kept with dying := fun id isDying => absurd isDying (dying id), requested }

theorem TeardownSound.core {stage : Stage} {frames : List Frame} {first last : Kernel}
    (sound : TeardownSound scope (stage, first))
    (entry : Entry scope first frames) (calm : frames = [] ∨ stage = .running)
    (run : CoreRun (frames, first) (frames, last)) :
    WaitsKept scope.Removes stage [] last := by
  have entered : WaitsKept scope.Removes stage frames first := by
    refine sound.kept.reframe (by cases entry <;> simp) fun _ requested => ?_
    rcases calm with rfl | rfl
    · cases requested
    · rfl
  have kept := (run.waitsKept entered sound.named sound.retired sound.live).1
  exact kept.reframe nofun nofun

theorem WaitsKept.createThread (kept : WaitsKept unwaited .running [] kernel)
    (created : Thread) (starts : created.continuation.waitsOn = none) :
    WaitsKept unwaited .running [] { kernel with threads := kernel.threads.insert created } := by
  refine ⟨?_, nofun, nofun, nofun, ?_, ?_⟩
  · intro id isCurrent
    obtain ⟨thread, found, sound⟩ := kept.current id isCurrent
    exact ⟨thread, lookup_older found, sound.alive, sound.executing, sound.parked⟩
  · intro subscription subscriber waiter found waits
    obtain ⟨thread, threadFound, sound⟩ := kept.waiters subscription subscriber waiter found waits
    exact ⟨thread, lookup_older threadFound, sound.alive, sound.member,
      .inr (insideWait_running.mp sound.inside)⟩
  · intro subscription id thread found inside
    have continues := insideWait_running.mp inside
    rcases of_insert found with rfl | found
    · cases starts.symm.trans continues
    · exact kept.linked subscription id thread found (.inr continues)

theorem WaitsKept.switchIn (kept : WaitsKept unwaited (.binding continuation id) [] kernel)
    (notCurrent : kernel.currentThread ≠ some id) :
    WaitsKept unwaited .running [] (kernel.switchIn id continuation) := by
  refine @WaitsKept.of_map unwaited (.binding continuation id, kernel)
    (.running, kernel.switchIn id continuation) kept (subscribers_switchIn _ _ _) _
    (thread_switchIn_map notCurrent continuation) ?_ ?_ ?_ nofun ?_
  · intro other thread
    split
    · rfl
    · split <;> rfl
  · intro _ other thread found
    rw [insideWait_running]
    split
    · rename_i isTarget
      subst isTarget
      exact ⟨.inr, fun inside => inside.resolve_left fun outgoing => notCurrent outgoing.1⟩
    · split
      · -- The outgoing thread takes along what it is left with.
        rename_i isCurrent
        obtain ⟨outgoing, outgoingFound, sound⟩ := kept.current other isCurrent
        cases found.symm.trans outgoingFound
        refine ⟨fun left => .inl ⟨isCurrent, left⟩, fun inside => ?_⟩
        refine (inside.resolve_right fun continues => ?_).2
        rw [sound.executing nofun] at continues
        cases continues
      · rename_i isOther
        exact ⟨.inr, fun inside => inside.resolve_left fun outgoing => isOther outgoing.1⟩
  · intro _ other thread _ _ alive
    split
    · exact alive
    · split <;> exact alive
  · intro other isCurrent
    have isTarget : id = other := by
      rw [currentThread_switchIn] at isCurrent
      exact Option.some.inj isCurrent
    subst isTarget
    obtain ⟨thread, found, alive⟩ := kept.target id rfl
    refine ⟨thread, found, ?_⟩
    rw [if_pos rfl]
    exact ⟨fun _ => alive, fun left => absurd rfl left, nofun⟩

/-- A thread left in a wait is parked and is not chosen to go on. -/
theorem WaitsKept.selfSwitch_plain (kept : WaitsKept unwaited (.chosen continuation id) [] kernel)
    (current : kernel.currentThread = some id)
    (fit : ∀ thread, kernel.thread id = some thread → kernel.Eligible id thread ∨
      kernel.highestReadyPriority = none ∧ threadIsRunnable thread = true) :
    continuation.waitsOn = none := by
  cases continuation with
  | eventWait subscription =>
    obtain ⟨thread, found, sound⟩ := kept.current id current
    obtain ⟨waiting, notIdle⟩ := sound.parked subscription rfl
    rcases fit thread found with (⟨isReady, -⟩ | isIdle) | ⟨-, runnable⟩
    · cases waiting.symm.trans isReady
    · exact absurd isIdle notIdle
    · simp [threadIsRunnable, waiting] at runnable
  | _ => rfl

/-- The current thread goes on with the call it was left in. -/
theorem WaitsKept.resumed (kept : WaitsKept unwaited .running [] kernel)
    (current : kernel.currentThread = some id) (found : kernel.thread id = some thread) :
    WaitsKept unwaited (.ofContinuation thread.continuation) [] (kernel.resumeExecution id) := by
  have leftWith : (Stage.ofContinuation thread.continuation).leftWith = none := by
    cases thread.continuation <;> rfl
  refine @WaitsKept.of_map unwaited (.running, kernel)
    (.ofContinuation thread.continuation, kernel.resumeExecution id) kept rfl
    (fun other thread => if other = id then { thread with continuation := .executing }
      else thread) ?_ ?_ ?_ ?_ ?_ ?_
  · intro other
    unfold resumeExecution
    rw [thread_modifyThread]
    split
    · rfl
    · rw [Option.map_id']
  · intro other old
    split <;> rfl
  · intro subscription other old oldFound
    rw [insideWait_running]
    unfold InsideWait
    rw [Stage.waitsOn_ofContinuation]
    split
    · rename_i isCurrent
      subst isCurrent
      cases found.symm.trans oldFound
      exact ⟨fun inside => (inside.resolve_right nofun).2, fun waits => .inl ⟨current, waits⟩⟩
    · rename_i isOther
      refine ⟨fun inside => inside.resolve_left fun here => ?_, .inr⟩
      exact isOther (Option.some.inj (current.symm.trans here.1)).symm
  · intro _ other old _ _ alive
    split <;> exact alive
  · intro other isTarget
    cases continuation : thread.continuation <;> rw [continuation] at isTarget <;> cases isTarget
  · intro _ isCurrent
    cases current.symm.trans isCurrent
    obtain ⟨old, oldFound, sound⟩ := kept.current id current
    refine ⟨old, oldFound, ?_⟩
    rw [if_pos rfl]
    refine ⟨fun _ => sound.alive rfl, fun _ => rfl, fun subscription left => ?_⟩
    cases leftWith.symm.trans left

theorem KernelMove.waitsKept (move : KernelMove scope before after)
    (sound : TeardownSound scope before) : WaitsKept scope.Removes after.1 [] after.2 := by
  have kept := sound.kept
  cases move with
  | core _ entry calm run => exact sound.core entry calm run
  | tick | messages | createProcess | setLauncher | markExiting | markTree | markTerminated
  | pend | decline | clearPending | sleep | clearBit | refuse | fallBack =>
    exact kept.of_quiet_write rfl rfl rfl (.of_threads rfl) rfl rfl rfl fun _ => ⟨rfl, rfl, rfl⟩
  | createThread => exact kept.createThread _ rfl
  | subscribe =>
    refine kept.of_subscribers rfl rfl rfl ?_ ?_
    · intro id subscriber waiter found waits
      rcases of_insert found with rfl | found
      · cases waits
      · exact ⟨subscriber, found, waits, rfl⟩
    · intro id subscriber found _
      exact ⟨subscriber, lookup_older found, rfl⟩
  | unsubscribe _ owner _ _ allowed =>
    refine kept.of_subscribers rfl rfl rfl ?_ ?_
    · intro id other waiter found waits
      exact ⟨other, of_remove found, waits, rfl⟩
    · rintro id other found ⟨waiter, thread, threadFound, inside⟩
      refine ⟨other, lookup_kept ?_ found, rfl⟩
      rintro rfl
      obtain ⟨-, -, -, notRemoved⟩ := kept.linked id waiter thread threadFound inside
      exact notRemoved ⟨owner, allowed⟩
  | readEvents _ target subscriber count found =>
    have same := EventSubscriber.identity_readRecords count subscriber
    refine kept.of_subscribers rfl rfl rfl ?_ ?_
    · intro id written waiter writtenFound waits
      rcases written_cases (subscriber_modifySubscriber ..) writtenFound with
        ⟨rfl, _, _, rfl⟩ | ⟨-, writtenFound⟩
      · exact ⟨subscriber, found, (congrArg (fun identity => identity.2.2) same).symm.trans waits,
          congrArg Prod.fst same⟩
      · exact ⟨written, writtenFound, waits, rfl⟩
    · intro id other otherFound _
      exact subscriber_of_modify otherFound target _ (of_found found (congrArg Prod.fst same))
  | quantum | priority | lower | relink | push =>
    refine kept.of_quiet_write rfl rfl rfl (.modify rfl) rfl rfl rfl fun _ => ?_
    exact ⟨rfl, rfl, rfl⟩
  | finishWait _ stage _ _ resumed =>
    have targetless : stage.target = none := by
      rcases resumed with rfl | ⟨subscription, rfl⟩ <;> rfl
    refine kept.of_quiet_write rfl rfl rfl (.modify rfl) rfl rfl targetless fun _ => ?_
    exact ⟨rfl, rfl, rfl⟩
  | pop =>
    rw [readyQueueRemove_eq]
    exact kept.of_quiet_write rfl rfl rfl (thread_readyQueueRemove _ _ ·) rfl rfl rfl
      fun _ => ⟨rfl, rfl, rfl⟩
  | leave _ _ plain _ executing =>
    refine kept.of_write rfl plain.waitsOn rfl (.of_threads rfl) (fun _ => rfl)
      (fun _ => rfl) (fun _ _ _ _ alive => alive) nofun ?_
    intro id thread current found sound
    rw [ite_self]
    exact ⟨nofun, fun _ => executing id thread current found,
      fun subscription left => absurd (Option.some.inj left) (plain.1 subscription)⟩
  | requeue _ _ _ _ _ current _ found running =>
    refine kept.of_write rfl rfl rfl (.modify rfl) ?_ ?_ ?_ nofun ?_
    · intro other
      split <;> rfl
    · intro other
      split <;> rfl
    · intro _ other _ _ _
      split <;> exact nofun
    · intro id other isCurrent otherFound holds
      cases current.symm.trans isCurrent
      cases found.symm.trans otherFound
      rw [if_pos rfl]
      refine ⟨nofun, fun left => ?_, fun subscription left => ?_⟩
      · split <;> exact holds.executing left
      · have waiting := (holds.parked subscription left).1
        rw [running] at waiting
        cases waiting
  | park _ stage continuation _ _ _ _ parks current notIdle found _ executing =>
    have waitsOn : continuation.waitsOn = stage.waitsOn := by
      cases parks with
      | plain _ _ other => exact other.waitsOn
      | event => rfl
    refine kept.of_write rfl waitsOn rfl (.modify rfl) (fun _ => rfl)
      (fun _ => rfl) (fun _ _ _ _ _ => nofun) nofun ?_
    intro id other isCurrent otherFound holds
    cases current.symm.trans isCurrent
    cases found.symm.trans otherFound
    rw [if_pos rfl]
    exact ⟨nofun, fun _ => executing, fun _ _ => ⟨rfl, notIdle⟩⟩
  | retire _ target _ _ current _ found _ executing =>
    refine kept.of_write rfl rfl rfl (.modify rfl) (fun _ => rfl) (fun _ => rfl) ?_ nofun ?_
    · rintro subscription other ⟨subscriber, subscribed, waits⟩ otherFound
      obtain ⟨_, waiterFound, holds⟩ := kept.waiters subscription subscriber target subscribed waits
      cases found.symm.trans waiterFound
      have continues := insideWait_running.mp holds.inside
      rw [executing] at continues
      cases continues
    · intro id other isCurrent otherFound holds
      cases current.symm.trans isCurrent
      cases found.symm.trans otherFound
      rw [if_pos rfl]
      exact ⟨nofun, fun _ => executing, nofun⟩
  | selfSwitch _ _ _ current fit =>
    refine kept.of_write rfl (kept.selfSwitch_plain current fit).symm rfl
      (.modify rfl) (fun _ => rfl) (fun _ => rfl) (fun _ _ _ _ _ => nofun)
      nofun ?_
    intro id other isCurrent _ _
    cases current.symm.trans isCurrent
    rw [if_pos rfl]
    exact ⟨fun _ => nofun, fun left => absurd rfl left, nofun⟩
  | bind _ _ target thread _ found notCurrent =>
    rw [startRunning_eq]
    refine kept.of_write rfl rfl rfl (.modify rfl) (fun _ => rfl)
      (fun _ => rfl) (fun _ _ _ _ _ => nofun) ?_ ?_
    · intro id isTarget
      obtain rfl : target = id := Option.some.inj isTarget
      refine ⟨{ thread with currentState := .running }, ?_, nofun⟩
      rw [thread_modifyThread, if_pos rfl]
      exact congrArg (Option.map _) found
    · intro id other isCurrent _ holds
      have ne : id ≠ target := fun same => notCurrent (same ▸ isCurrent)
      rw [if_neg ne]
      exact ⟨nofun, holds.executing, holds.parked⟩
  | switchIn _ _ _ _ notCurrent => exact kept.switchIn notCurrent
  | resumed _ _ _ current found => exact kept.resumed current found
  | setWaiter _ owner subscription _ id allowed current found owns _ _ called =>
    refine kept.setWaiter current found (fun thread threadFound => ?_) ?_
    · rw [owns]
      exact sound.wait owner subscription allowed id thread called threadFound
    · rintro ⟨other, removed⟩
      exact (sound.apart owner subscription allowed).1 other subscription removed
  | clearWaiter _ _ _ current => exact kept.clearWaiter current

/-- Every move keeps waits intact. -/
theorem KernelMove.teardownSound (move : KernelMove scope before after)
    (sound : TeardownSound scope before) : TeardownSound scope after where
  kept := move.waitsKept sound
  named := move.namedLive sound.named
  retired := move.retiredTerminated sound.retired
  live subscription waiter waits := by
    rcases move.isWaiter waits with earlier | ⟨⟨owner, starts⟩, current, -⟩
    · refine move.liveOwner (sound.live subscription waiter earlier) ?_
      exact fun owner doomed _ _ thread found =>
        sound.doomed owner doomed subscription waiter thread earlier found
    · refine move.liveOwner (sound.named waiter (.inl current)) ?_
      exact fun other doomed => absurd doomed ((sound.apart owner subscription starts).2 other)
  callers id calls := (sound.callers id calls).trans_le move.nextId_threads_le
  wait owner subscription starts id written calls found := by
    obtain ⟨old, oldFound, parent, -⟩ := move.descends (fun _ => sound.callers id calls) found
    rw [parent]
    exact sound.wait owner subscription starts id old calls oldFound
  doomed owner doomed subscription waiter written waits found := by
    rcases move.isWaiter waits with earlier | ⟨⟨other, starts⟩, -⟩
    · obtain ⟨old, oldFound, parent, -⟩ :=
        move.descends (fun _ => (sound.live subscription waiter earlier).assigned) found
      rw [parent]
      exact sound.doomed owner doomed subscription waiter old earlier oldFound
    · exact absurd doomed ((sound.apart other subscription starts).2 owner)
  apart := sound.apart

end

/-! ## Runs with destructions -/

/-- An operation, or a call of `destroy_thread` or `destroy_process`. -/
inductive TeardownOp
  | call (op : Op)
  | destroyThread (id : ThreadId)
  | destroyProcess (id : ProcessId)

/-- Whether a call can start. -/
def teardownStartable (kernel : Kernel) : TeardownOp → Bool
  | .call op => kernel.startable op
  | _ => kernel.executing

/-- Run one call that can start, with a depth of publications and outcomes of the heap. -/
def teardown (kernel : Kernel) : TeardownOp × ℕ × List Bool → Option Kernel
  | (op, depth, outcomes) =>
    if kernel.teardownStartable op then
      let kernel := { kernel with heapOutcomes := outcomes }
      match op with
      | .call op => (kernel.exec (env depth) op).map Prod.snd
      | .destroyThread id => (kernel.destroyThread (env depth) id).map Prod.snd
      | .destroyProcess id => (kernel.destroyProcess (env depth) id).map Prod.snd
    else none

/-- The states reached by calls that all met a condition on the state before them. -/
abbrev TeardownReachable (condition : Kernel → TeardownOp → Prop) : Kernel → Prop :=
  Runs.Reachable Booted teardown fun kernel call => condition kernel call.1

/-- The process has no thread that is registered as a waiter. -/
def Unwaiting (kernel : Kernel) (owner : ProcessId) : Prop :=
  ∀ subscription waiter thread, kernel.IsWaiter subscription waiter →
    kernel.thread waiter = some thread → thread.parent ≠ some owner

/-- Waits are on subscriptions of the caller's own process, a subscription is removed
only when no thread is suspended in a wait on it, and neither a registered waiter nor a
process with one is destroyed, nor the caller. -/
def SparesWaits (kernel : Kernel) : TeardownOp → Prop
  | .call (.eventWait owner _) => kernel.currentProcess = some owner
  | .call (.unsubscribe _ subscription) => ∀ id thread, kernel.thread id = some thread →
      thread.continuation ≠ .eventWait subscription
  | .call op => ∀ owner, kernel.Dooms op owner → kernel.Unwaiting owner
  | .destroyThread id => kernel.currentThread ≠ some id ∧
      ∀ subscription, ¬ kernel.IsWaiter subscription id
  | .destroyProcess id => kernel.currentProcess ≠ some id ∧ kernel.Unwaiting id

/-- What waits satisfy between calls. -/
structure WaitsOrderly (kernel : Kernel) : Prop where
  kept : WaitsKept (fun _ => False) .running [] kernel
  named : NamedLive (.running, kernel)
  retired : kernel.RetiredTerminated
  live : kernel.WaitersLive

variable {kernel after : Kernel} {subscription : SubscriptionId}

theorem Continuation.eq_eventWait_of_waitsOn (waits : continuation.waitsOn = some subscription) :
    continuation = .eventWait subscription := by
  cases continuation with
  | eventWait other =>
    obtain rfl : other = subscription := Option.some.inj waits
    rfl
  | _ => cases waits

theorem TeardownSound.orderly
    {scope : Scope} (sound : TeardownSound scope (.running, kernel)) : kernel.WaitsOrderly where
  kept := sound.kept.spare fun _ _ _ _ _ none => none
  named := sound.named
  retired := sound.retired
  live := sound.live

/-- The scope of a call that spares waits. -/
theorem WaitsOrderly.begin
    (orderly : kernel.WaitsOrderly) {op : Op} (spares : kernel.SparesWaits (.call op)) :
    TeardownSound (kernel.scopeOf op) (.running, kernel) where
  kept := by
    refine orderly.kept.spare ?_
    rintro _ id thread found inside ⟨owner, rfl⟩
    exact spares id thread found
      (Continuation.eq_eventWait_of_waitsOn (insideWait_running.mp inside))
  named := orderly.named
  retired := orderly.retired
  live := orderly.live
  callers id current := by
    obtain ⟨thread, found, -⟩ := orderly.kept.current id current
    exact kernel.threads.lookup_lt_nextId found
  wait owner subscription starts id thread current found := by
    obtain rfl : op = .eventWait owner subscription := starts
    have process : kernel.currentProcess = some owner := spares
    have isCurrent : kernel.currentThread = some id := current
    have isFound : kernel.thread id = some thread := found
    simpa [currentProcess, isCurrent, isFound] using process
  doomed owner doomed := by
    cases op with
    | serviceKill | terminateLaunched | reapExiting => exact spares owner doomed
    | _ => cases doomed
  apart owner subscription starts := by
    obtain rfl : op = .eventWait owner subscription := starts
    refine ⟨fun _ _ removes => ?_, fun _ doomed => doomed⟩
    cases removes

theorem KernelMoves.teardownSound
    {scope : Scope} {first last : Stage × Kernel} (moves : KernelMoves scope first last)
    (sound : TeardownSound scope first) : TeardownSound scope last := by
  induction moves with
  | refl => exact sound
  | tail _ move ih => exact move.teardownSound ih

variable {id : ThreadId}

theorem LiveOwner.of_write (live : kernel.LiveOwner id)
    (assigned : after.threads.nextId = kernel.threads.nextId)
    (processes : after.processes = kernel.processes) {target : ThreadId} {update : Thread → Thread}
    (rewritten : Rewrites kernel after target update)
    (parent : ∀ thread, (update thread).parent = thread.parent) : after.LiveOwner id where
  assigned := assigned ▸ live.assigned
  alive written owner process found isParent processFound := by
    rw [Kernel.process, processes] at processFound
    rcases written_cases (rewritten _) found with ⟨-, old, oldFound, rfl⟩ | ⟨-, found⟩
    · exact live.alive old owner process oldFound ((parent old).symm.trans isParent) processFound
    · exact live.alive written owner process found isParent processFound

/-- The first writes of `destroy_thread` to a thread that is neither current nor a
waiter. -/
theorem WaitsOrderly.end
    (orderly : kernel.WaitsOrderly) (notCurrent : kernel.currentThread ≠ some id)
    (notWaiter : ∀ subscription, ¬ kernel.IsWaiter subscription id) :
    WaitsOrderly (kernel.modifyThread id endThread) where
  kept := by
    refine @WaitsKept.of_write _ (.running, kernel) (.running, kernel.modifyThread id endThread)
      orderly.kept id endThread rfl rfl rfl (.modify rfl) (fun _ => rfl)
      (fun _ => rfl) ?_ nofun ?_
    · exact fun subscription _ waits => absurd waits (notWaiter subscription)
    · intro other _ isCurrent _ sound
      have ne : other ≠ id := fun same => notCurrent (same ▸ isCurrent)
      rw [if_neg ne]
      exact { sound with }
  named other isNamed :=
    (orderly.named other isNamed).of_write rfl rfl (.modify rfl) fun _ => rfl
  retired other listed := by
    obtain ⟨notIdle, assigned, terminated⟩ := orderly.retired other listed
    refine ⟨notIdle, assigned, fun written found => ?_⟩
    rcases written_cases (thread_modifyThread ..) found with ⟨-, _, -, rfl⟩ | ⟨-, found⟩
    · rfl
    · exact terminated written found
  live subscription waiter waits :=
    (orderly.live subscription waiter waits).of_write rfl rfl (.modify rfl) fun _ => rfl

theorem WaitsOrderly.core (orderly : kernel.WaitsOrderly) {frames : List Frame}
    (dying : ∀ id, .dying id ∈ frames → kernel.currentThread ≠ some id)
    (run : CoreRun (frames, kernel) ([], after)) : after.WaitsOrderly := by
  have entered : WaitsKept (fun _ => False) .running frames kernel :=
    { orderly.kept with dying := dying, requested := fun _ _ => rfl }
  obtain ⟨kept, named, retired, live⟩ :=
    run.waitsKept entered orderly.named orderly.retired orderly.live
  exact ⟨kept, named, retired, live⟩

variable {depth : ℕ}

theorem WaitsOrderly.destroyThread
    (orderly : kernel.WaitsOrderly) (operational : kernel.Operational) {status : Status}
    (notCurrent : kernel.currentThread ≠ some id)
    (notWaiter : ∀ subscription, ¬ kernel.IsWaiter subscription id)
    (call : kernel.destroyThread (env depth) id = some (status, after)) :
    after.Operational ∧ after.WaitsOrderly := by
  cases found : kernel.thread id with
  | none =>
    unfold Kernel.destroyThread at call
    rw [found] at call
    cases call
    exact ⟨operational, orderly⟩
  | some =>
    have run := destroyThread_run operational.current [] found notCurrent
      calm_nil (fun _ => .refl) call
    rw [forget_terminated notCurrent] at run
    have unlinked : CoreRun ([], kernel) ([], (kernel.readyQueueRemove id).sleepQueueRemove id) :=
      (kernel.readyQueueRemove_run id fun _ _ => .inl notCurrent).tail (.unsleep _ _ _)
    have frame : CoreFrame kernel ((kernel.readyQueueRemove id).sleepQueueRemove id) :=
      unlinked.frame
    have stillNotCurrent :
        ((kernel.readyQueueRemove id).sleepQueueRemove id).currentThread ≠ some id := by
      rw [frame.currentThread]
      exact notCurrent
    have unlinkedOrderly := orderly.core (fun _ dying => absurd dying not_mem_nil) unlinked
    have ended := unlinkedOrderly.end stillNotCurrent fun subscription waits =>
      notWaiter subscription (unlinked.isWaiter waits)
    have unlinkedOperational := frame.operational operational
    refine ⟨run.frame.operational { unlinkedOperational with }, ended.core ?_ run⟩
    intro other dying
    obtain rfl : other = id := by simpa using dying
    exact stillNotCurrent

theorem WaitsOrderly.destroyProcess
    (orderly : kernel.WaitsOrderly) (operational : kernel.Operational)
    {id : ProcessId} {status : Status}
    (other : kernel.currentProcess ≠ some id) (unwaiting : kernel.Unwaiting id)
    (call : kernel.destroyProcess (env depth) id = some (status, after)) :
    after.Operational ∧ after.WaitsOrderly := by
  let scope : Scope := { idleScope with mark := True, destroy := (· = id) }
  have moves : scope.Moves kernel after :=
    (destroyProcess_moves operational trivial rfl other call).1
  have sound : TeardownSound scope (.running, kernel) := by
    refine ⟨orderly.kept.spare fun _ _ _ _ _ => nofun, orderly.named, orderly.retired,
      orderly.live, nofun, nofun, ?_, nofun⟩
    intro owner isDoomed
    obtain rfl : owner = id := isDoomed
    exact unwaiting
  exact ⟨moves.operational operational, (moves.teardownSound sound).orderly⟩

theorem waitsOrderly_booted (processName threadName : Text) (pageTableRoot : ℕ) :
    (booted processName threadName pageTableRoot).WaitsOrderly where
  kept := by
    refine ⟨?_, nofun, nofun, nofun, ?_, ?_⟩
    · intro id isCurrent
      obtain rfl : 1 = id := Option.some.inj isCurrent
      exact ⟨bootThread threadName, thread_booted _ _ _ 1, fun _ => nofun,
        fun left => absurd rfl left, nofun⟩
    · intro subscription subscriber waiter found
      cases found
    · intro subscription _ _ found inside
      have continues := insideWait_running.mp inside
      rw [thread_booted] at found
      split at found
      · cases found
        cases continues
      · split at found
        · cases found
          cases continues
        · cases found
  named := namedLive_booted _ _ _
  retired := nofun
  live subscription waiter waits := by
    obtain ⟨_, found, -⟩ := waits
    cases found

theorem WaitsOrderly.charged (orderly : kernel.WaitsOrderly) (outcomes : List Bool) :
    ({ kernel with heapOutcomes := outcomes } : Kernel).WaitsOrderly := by
  have run : CoreRun ([], kernel) ([], { kernel with heapOutcomes := outcomes }) :=
    .single (.bookkeeping [] kernel outcomes kernel.exitRecords)
  exact orderly.core (fun _ dying => absurd dying not_mem_nil) run

theorem TeardownReachable.waitsOrderly (reachable : TeardownReachable SparesWaits kernel) :
    kernel.Operational ∧ kernel.WaitsOrderly := by
  induction reachable with
  | start isBooted =>
    obtain ⟨_, _, _, table⟩ := isBooted
    exact ⟨operational_booted _ _ table, waitsOrderly_booted _ _ _⟩
  | @step kernel after _ call meets result ih =>
    obtain ⟨operational, orderly⟩ := ih
    obtain ⟨op, depth, outcomes⟩ := call
    obtain ⟨starts, result⟩ := ite_none_right_eq_some.mp result
    cases op with
    | call op =>
      obtain ⟨⟨transfer, middle⟩, call, rfl⟩ := map_eq_some_iff.mp result
      have stepped : kernel.Step op transfer middle := ⟨starts, depth, outcomes, call⟩
      exact (stepped.carries (fun move _ sound => move.teardownSound sound) operational
        (orderly.begin meets)).imp_right TeardownSound.orderly
    | destroyThread =>
      obtain ⟨⟨status, middle⟩, call, rfl⟩ := map_eq_some_iff.mp result
      exact (orderly.charged outcomes).destroyThread { operational with } meets.1 meets.2 call
    | destroyProcess =>
      obtain ⟨⟨_, _⟩, call, rfl⟩ := map_eq_some_iff.mp result
      exact (orderly.charged outcomes).destroyProcess { operational with } meets.1 meets.2 call

/-- The rest of a wait runs on a subscription that is still linked. -/
theorem WaitsOrderly.resume_linked
    (orderly : kernel.WaitsOrderly) (operational : kernel.Operational)
    (current : kernel.currentThread = some id) (found : kernel.thread id = some thread)
    (suspended : thread.continuation = .eventWait subscription) {transfer : Transfer}
    (call : kernel.resume (env depth) = some (transfer, after)) :
    ∃ subscriber, after.subscriber subscription = some subscriber := by
  have sound : TeardownSound (kernel.scopeOf .resume) (.running, kernel) :=
    orderly.begin fun _ doomed => doomed.elim
  simp only [resume, current, found, suspended, bind_eq_bind, bind_some, bind_eq_some_iff] at call
  obtain ⟨middle, reaping, result⟩ := call
  cases result
  have resumed : KernelMove (kernel.scopeOf .resume) (.running, kernel)
      (.waiting subscription, kernel.resumeExecution id) := by
    have move : KernelMove (kernel.scopeOf .resume) (.running, kernel)
        (.ofContinuation thread.continuation, kernel.resumeExecution id) :=
      .resumed _ _ _ current found (by simp [suspended]) (by simp [suspended])
    rwa [suspended] at move
  have resumedOperational : (kernel.resumeExecution id).Operational :=
    { operational with }
  have reaped : KernelMoves (kernel.scopeOf .resume) (.waiting subscription,
      kernel.resumeExecution id)
      (.waiting subscription, middle) :=
    reap_moves resumedOperational _ reaping
  have kept := (reaped.teardownSound (resumed.teardownSound sound)).kept
  have stillCurrent : middle.currentThread = some id :=
    (reap_currentThread resumedOperational reaping).trans current
  obtain ⟨caller, callerFound, -⟩ := kept.current id stillCurrent
  obtain ⟨subscriber, linked, -⟩ :=
    kept.linked subscription id caller callerFound (.inl ⟨stillCurrent, rfl⟩)
  have unchanged : (middle.blockCurrentTail .ok).subscriber subscription = some subscriber := by
    unfold blockCurrentTail modifyCurrent
    split <;> exact linked
  obtain ⟨still, stillFound, -⟩ := subscriber_of_eventWaitTail unchanged
  exact ⟨still, stillFound⟩

/-- In every run that spares waits, registered waiters are registered threads, the
subscription of every suspended wait is linked, and so it is when the wait goes on. -/
theorem waitingThreads_registered (reachable : TeardownReachable SparesWaits kernel) :
    (∀ subscription waiter, kernel.IsWaiter subscription waiter →
        ∃ thread, kernel.thread waiter = some thread) ∧
      (∀ id thread subscription, kernel.thread id = some thread →
        thread.continuation = .eventWait subscription →
        ∃ subscriber, kernel.subscriber subscription = some subscriber) ∧
      ∀ id thread subscription transfer after, kernel.currentThread = some id →
        kernel.thread id = some thread → thread.continuation = .eventWait subscription →
        kernel.Step .resume transfer after →
        ∃ subscriber, after.subscriber subscription = some subscriber := by
  obtain ⟨operational, orderly⟩ := reachable.waitsOrderly
  refine ⟨?_, ?_, ?_⟩
  · rintro subscription waiter ⟨subscriber, found, waits⟩
    obtain ⟨thread, threadFound, -⟩ :=
      orderly.kept.waiters subscription subscriber waiter found waits
    exact ⟨thread, threadFound⟩
  · intro id thread subscription found suspended
    have inside : InsideWait (.running, kernel) subscription id thread := by
      rw [insideWait_running, suspended]
      rfl
    obtain ⟨subscriber, subscribed, -⟩ := orderly.kept.linked subscription id thread found inside
    exact ⟨subscriber, subscribed⟩
  · intro _ _ _ _ _ current found suspended step
    obtain ⟨-, _, outcomes, call⟩ := step
    exact (orderly.charged outcomes).resume_linked { operational with } current found suspended call

/-- A process with two threads, the first of which waits for a filesystem event on the
subscription of its process; then the boot thread runs. -/
def parkedWaiterRun : List Op :=
  [.createProcess [] true 4096, .createThread 2 [] 1 16 1 true, .createThread 2 [] 1 16 1 true,
    .enqueue 3, .yield, .resume, .subscribe 2 (familyRequest EventFamily.filesystem),
    .eventWait 2 1, .resume]

/-- Destroying the waiter leaves it registered, and the second thread can remove the
subscription under it. -/
theorem waitingThread_dangling :
    (∃ (kernel : Kernel) (subscription : SubscriptionId) (waiter : ThreadId),
      TeardownReachable (fun _ _ => True) kernel ∧ kernel.IsWaiter subscription waiter ∧
        kernel.thread waiter = none) ∧
      ∃ (kernel : Kernel) (id : ThreadId) (thread : Thread) (subscription : SubscriptionId),
        TeardownReachable (fun _ _ => True) kernel ∧ kernel.thread id = some thread ∧
          thread.continuation = .eventWait subscription ∧
          kernel.subscriber subscription = none := by
  have destroyed : Runs.performAll (Runs.checked (fun _ _ => true) teardown) (booted [] [] 4096)
      (parkedWaiterRun.map (.call ·, 6, []) ++ [(.destroyThread 3, 6, [])]) = some _ := rfl
  have removed : Runs.performAll (Runs.checked (fun _ _ => true) teardown) (booted [] [] 4096)
      ((parkedWaiterRun ++ [Op.enqueue 4, .yield, .resume, .unsubscribe 2 1]).map
        (.call ·, 6, [])) = some _ := rfl
  exact ⟨⟨_, 1, 3, reachable_of_calls (fun _ _ _ => trivial) destroyed, ⟨_, rfl, rfl⟩, rfl⟩,
    _, 3, _, 1, reachable_of_calls (fun _ _ _ => trivial) removed, rfl, rfl, rfl⟩

/-- The condition on calls, evaluated; destructions of processes are allowed when nobody
waits. -/
def sparesWaits (kernel : Kernel) : TeardownOp → Bool
  | .call (.eventWait owner _) => decide (kernel.currentProcess = some owner)
  | .call (.unsubscribe _ subscription) => kernel.threads.entries.all fun entry =>
    decide (entry.2.continuation ≠ .eventWait subscription)
  | .call (.serviceKill _) | .call (.terminateLaunched _) | .call .reapExiting =>
    kernel.nobodyWaits
  | .call _ => true
  | .destroyThread id => decide (kernel.currentThread ≠ some id) &&
      kernel.subscribers.entries.all fun entry => decide (entry.2.waitingThread ≠ some id)
  | .destroyProcess id => decide (kernel.currentProcess ≠ some id) && kernel.nobodyWaits

theorem unwaiting_of_nobodyWaits (nobody : kernel.nobodyWaits = true) (owner : ProcessId) :
    kernel.Unwaiting owner :=
  fun _ _ _ waits => absurd waits (not_isWaiter_of_nobodyWaits nobody)

theorem sparesWaits_sound
    {op : TeardownOp} (spares : kernel.sparesWaits op = true) : kernel.SparesWaits op := by
  cases op with
  | call op =>
    cases op with
    | eventWait owner =>
      have own : kernel.currentProcess = some owner := of_decide_eq_true spares
      exact own
    | unsubscribe =>
      intro id _ found
      exact of_decide_eq_true (all_eq_true.mp spares _ (kernel.threads.mem_of_lookup found))
    | serviceKill | terminateLaunched | reapExiting =>
      exact fun owner _ => unwaiting_of_nobodyWaits spares owner
    | _ => exact fun _ doomed => doomed.elim
  | destroyThread =>
    simp only [sparesWaits, Bool.and_eq_true, decide_eq_true_eq] at spares
    refine ⟨spares.1, ?_⟩
    rintro _ ⟨_, found, waits⟩
    exact of_decide_eq_true
      (all_eq_true.mp spares.2 _ (kernel.subscribers.mem_of_lookup found)) waits
  | destroyProcess id =>
    simp only [sparesWaits, Bool.and_eq_true, decide_eq_true_eq] at spares
    exact ⟨spares.1, unwaiting_of_nobodyWaits spares.2 id⟩

/-- Destroying the other thread of the process leaves the waiter and its subscription
alone. -/
theorem waitingThreads_registered_parkedWaiter :
    ∃ kernel : Kernel, TeardownReachable SparesWaits kernel ∧ kernel.IsWaiter 1 3 ∧
      kernel.thread 4 = none ∧ (∃ thread, kernel.thread 3 = some thread) ∧
      ∀ id thread subscription, kernel.thread id = some thread →
        thread.continuation = .eventWait subscription →
        ∃ subscriber, kernel.subscriber subscription = some subscriber := by
  have ran : Runs.performAll (Runs.checked (fun kernel call => kernel.sparesWaits call.1) teardown)
      (booted [] [] 4096) (parkedWaiterRun.map (.call ·, 6, []) ++ [(.destroyThread 4, 6, [])]) =
        some _ := rfl
  have reachable : TeardownReachable SparesWaits _ :=
    reachable_of_calls (fun _ _ => sparesWaits_sound) ran
  obtain ⟨registered, linked, -⟩ := waitingThreads_registered reachable
  exact ⟨_, reachable, ⟨_, rfl, rfl⟩, rfl, registered 1 3 ⟨_, rfl, rfl⟩, linked⟩

end Kernel

end RosKernel
