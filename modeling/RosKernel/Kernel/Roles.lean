import RosKernel.Kernel.SleepQueue

/-!
# Who runs and who waits

The thread that executes is running, and a thread registered as the waiter of a
subscription is either just executing the wait or parked in it. So no wake that a
publication performs reaches the thread that is being dispatched, as long as
nobody else makes a registered waiter ready.
-/

namespace RosKernel.Kernel

open List Registry Option

/-! ## What a move of the core writes -/

variable {frames : List Frame} {update : Thread → Thread} {target : ThreadId}

section

variable {before after : List Frame × Kernel}

/-- What a move of the core does to the state of one thread. -/
inductive StateWrite (frames : List Frame) (kernel : Kernel) (id : ThreadId) :
    Thread → Thread → Prop
  | kept {old written}
      (state : written.currentState = old.currentState)
      (reason : written.waitStatus = old.waitStatus ∨ written.waitStatus = .none) :
      StateWrite frames kernel id old written
  | readied {old written}
      (asked : Asked id frames)
      (guarded : kernel.currentThread ≠ some id ∨
        old.currentState = .waiting ∧ frames.head? = some (.requested id))
      (isReady : written.currentState = .ready) :
      StateWrite frames kernel id old written
  | ended {old written}
      (terminated : written.currentState = .terminated)
      (notCurrent : kernel.currentThread ≠ some id)
      (cause : id ∈ kernel.retiredThreads ∨ ∃ owner process,
        old.parent = some owner ∧ kernel.process owner = some process ∧
          process.currentState = .terminated) :
      StateWrite frames kernel id old written

variable {id waiter : ThreadId} {written : Thread}

theorem StateWrite.of_modifyThread {kernel later : Kernel}
    (rewritten : Rewrites kernel later target update)
    (writes : ∀ thread, kernel.thread target = some thread →
      StateWrite frames kernel target thread (update thread))
    (found : later.thread id = some written) :
    ∃ old, kernel.thread id = some old ∧ StateWrite frames kernel id old written := by
  rcases written_cases (rewritten _) found with ⟨rfl, old, oldFound, rfl⟩ | ⟨-, found⟩
  · exact ⟨old, oldFound, writes old oldFound⟩
  · exact ⟨written, found, .kept rfl (.inl rfl)⟩

theorem CoreMove.stateWrite (move : CoreMove before after)
    (found : after.2.thread id = some written) :
    ∃ old, before.2.thread id = some old ∧ StateWrite before.1 before.2 id old written := by
  have unchanged (same : before.2.thread id = some written) :
      ∃ old, before.2.thread id = some old ∧ StateWrite before.1 before.2 id old written :=
    ⟨written, same, .kept rfl (.inl rfl)⟩
  cases move with
  | storeWake | detach =>
    refine StateWrite.of_modifyThread (.modify rfl) (fun _ _ => ?_) found
    exact .kept rfl (.inr rfl)
  | leaveWait _ _ _ _ _ asked targetFound _ _ guarded =>
    exact StateWrite.of_modifyThread (.modify rfl)
      (of_found targetFound (.readied asked guarded rfl)) found
  | link | unlink =>
    refine StateWrite.of_modifyThread (.modify rfl) (fun _ _ => ?_) found
    exact .kept rfl (.inl rfl)
  | announce _ _ target => exact unchanged ((requestReschedule_thread target id).symm.trans found)
  | reap _ _ _ _ _ head _ notCurrent =>
    refine StateWrite.of_modifyThread (.modify rfl) (fun _ _ => ?_) found
    exact .ended rfl notCurrent (.inl (head ▸ (.head _)))
  | terminate _ _ _ _ owner process targetFound mem owned closed notCurrent =>
    refine StateWrite.of_modifyThread (.modify rfl) (of_found targetFound ?_) found
    exact .ended rfl notCurrent (.inr ⟨owner, process, mem, owned, closed⟩)
  | unregister => exact unchanged (of_remove found)
  | _ => exact unchanged found

/-- A thread registered as the waiter of a subscription. -/
def IsWaiter (kernel : Kernel) (subscription : SubscriptionId) (waiter : ThreadId) : Prop :=
  ∃ subscriber, kernel.subscriber subscription = some subscriber ∧
    subscriber.waitingThread = some waiter

variable {subscription : SubscriptionId}

/-- Whether no thread is registered as a waiter. -/
def nobodyWaits (kernel : Kernel) : Bool :=
  kernel.subscribers.entries.all fun entry => entry.2.waitingThread.isNone

theorem not_isWaiter_of_nobodyWaits {kernel : Kernel} {waiter : ThreadId}
    (nobody : kernel.nobodyWaits = true) : ¬ kernel.IsWaiter subscription waiter := by
  rintro ⟨_, found, waits⟩
  have isNone := List.all_eq_true.mp nobody _ (kernel.subscribers.mem_of_lookup found)
  simp [waits] at isNone

theorem IsWaiter.of_modifySubscriber {kernel : Kernel} {target : SubscriptionId}
    {update : EventSubscriber → EventSubscriber}
    (waits : (kernel.modifySubscriber target update).IsWaiter subscription waiter) :
    kernel.IsWaiter subscription waiter ∧ subscription ≠ target ∨
      subscription = target ∧ ∃ subscriber, kernel.subscriber target = some subscriber ∧
        (update subscriber).waitingThread = some waiter := by
  obtain ⟨subscriber, found, isWaiter⟩ := waits
  rcases written_cases (subscriber_modifySubscriber ..) found with
    ⟨same, old, oldFound, rfl⟩ | ⟨ne, found⟩
  · exact .inr ⟨same, old, same ▸ oldFound, isWaiter⟩
  · exact .inl ⟨⟨subscriber, found, isWaiter⟩, ne⟩

theorem IsWaiter.of_detach {kernel : Kernel} {target : SubscriptionId}
    (waits : (kernel.modifySubscriber target fun subscriber =>
      { subscriber with waitingThread := none }).IsWaiter subscription waiter) :
    kernel.IsWaiter subscription waiter ∧ subscription ≠ target := by
  rcases waits.of_modifySubscriber with earlier | ⟨_, _, _, isWaiter⟩
  · exact earlier
  · cases isWaiter

/-- The end of a wait registers no waiter and takes the thread back. -/
theorem IsWaiter.of_eventWaitTail {kernel : Kernel} {target : SubscriptionId} {id : ThreadId}
    (waits : (kernel.eventWaitTail target id).IsWaiter subscription waiter) :
    kernel.IsWaiter subscription waiter ∧ (subscription = target → waiter ≠ id) := by
  rcases waits.of_modifySubscriber with ⟨earlier, ne⟩ | ⟨rfl, old, found, isWaiter⟩
  · exact ⟨earlier, fun same => absurd same ne⟩
  · split at isWaiter
    · cases isWaiter
    · rename_i notSelf
      exact ⟨⟨old, found, isWaiter⟩, fun _ same => notSelf (same ▸ isWaiter)⟩

/-- The core registers no waiter. -/
theorem CoreMove.isWaiter (move : CoreMove before after)
    (waits : after.2.IsWaiter subscription waiter) :
    before.2.IsWaiter subscription waiter := by
  cases move with
  | store _ _ _ _ subscriber _ _ _ found _ result =>
    rcases waits.of_modifySubscriber with ⟨earlier, -⟩ | ⟨rfl, _, _, isWaiter⟩
    · exact earlier
    · have same := congrArg (fun identity => identity.2.2) (identity_of_storeRecord result)
      exact ⟨subscriber, found, same.symm.trans isWaiter⟩
  | storeWake _ kernel _ target _ _ updated =>
    obtain ⟨stored, ne⟩ :=
      @IsWaiter.of_detach _ _ (kernel.modifySubscriber target fun _ => updated) target waits
    rcases stored.of_modifySubscriber with ⟨earlier, -⟩ | ⟨same, -⟩
    · exact earlier
    · exact absurd same ne
  | detach _ kernel target => exact (@IsWaiter.of_detach _ _ kernel target waits).1
  | announce =>
    rwa [requestReschedule_eq] at waits
  | unsubscribe =>
    obtain ⟨subscriber, found, isWaiter⟩ := waits
    exact ⟨subscriber, of_remove found, isWaiter⟩
  | _ => exact waits

theorem CoreRun.isWaiter (run : CoreRun before after)
    (waits : after.2.IsWaiter subscription waiter) :
    before.2.IsWaiter subscription waiter := by
  induction run with
  | refl => exact waits
  | tail _ move ih => exact ih (move.isWaiter waits)

theorem CoreMove.sleepQueue_sublist (move : CoreMove before after) :
    after.2.sleepQueue.Sublist before.2.sleepQueue := by
  cases move with
  | leaveWait | unsleep | reap | terminate => exact erase_sublist
  | announce => rw [requestReschedule_eq]
  | _ => exact .refl _

/-! ## Roles below the calls of the core -/

/-- A thread that executes or is about to. -/
def Runs (state : Stage × Kernel) (id : ThreadId) : Prop :=
  state.2.currentThread = some id ∧ state.1.leftWith = none ∨ state.1.target = some id

/-- A thread has left, or is just leaving, the processor inside a wait. -/
def LeftInWait (state : Stage × Kernel) (subscription : SubscriptionId) (id : ThreadId)
    (thread : Thread) : Prop :=
  state.2.currentThread = some id ∧ state.1.leftWith = some (.eventWait subscription) ∨
    state.2.currentThread ≠ some id ∧ thread.continuation = .eventWait subscription

/-- A parked thread that only its subscription or its destruction will wake. -/
def Dormant (kernel : Kernel) (id : ThreadId) (thread : Thread) : Prop :=
  thread.currentState = .terminated ∨
    thread.currentState = .waiting ∧ thread.waitStatus ≠ .message ∧ id ∉ kernel.sleepQueue

/-- A registered waiter executes the wait or is parked in it. -/
def WaitsFor (state : Stage × Kernel) (subscription : SubscriptionId) (id : ThreadId)
    (thread : Thread) : Prop :=
  state.2.currentThread = some id ∧ state.1 = .waiting subscription ∨
    state.2.idleThread ≠ some id ∧ LeftInWait state subscription id thread ∧
      state.2.Dormant id thread

/-- The roles of threads while calls of the core are in progress. -/
structure RolesKept (stage : Stage) (frames : List Frame) (kernel : Kernel) : Prop where
  running : ∀ id thread, Runs (stage, kernel) id → kernel.thread id = some thread →
    thread.currentState = .running
  apart : ∀ id, stage.target = some id → kernel.currentThread ≠ some id
  waiters : ∀ subscription waiter, kernel.IsWaiter subscription waiter →
    waiter < kernel.threads.nextId ∧ ∀ thread, kernel.thread waiter = some thread →
      WaitsFor (stage, kernel) subscription waiter thread
  asked : ∀ id, .waking id ∈ frames ∨ .requested id ∈ frames →
    ∀ thread, kernel.thread id = some thread → stage.target ≠ some id ∧
      ∀ subscription, ¬ kernel.IsWaiter subscription id

namespace RolesKept

variable {stage : Stage} {frames : List Frame} {kernel : Kernel}

variable {thread : Thread}

/-- Neither the running thread nor the next one is parked. -/
theorem not_dormant (kept : RolesKept stage frames kernel)
    {id : ThreadId} (found : kernel.thread id = some thread)
    (runs : Runs (stage, kernel) id) : ¬ kernel.Dormant id thread := by
  have running := kept.running id thread runs found
  rintro (terminated | ⟨waiting, -⟩)
  · cases running.symm.trans terminated
  · cases running.symm.trans waiting

/-- A registered thread waits on one subscription at most. -/
theorem waits_once (kept : RolesKept stage frames kernel)
    {first second : SubscriptionId} {waiter : ThreadId} (found : kernel.thread waiter = some thread)
    (waitsFirst : kernel.IsWaiter first waiter)
    (waitsSecond : kernel.IsWaiter second waiter) : first = second := by
  have mixed {one other : SubscriptionId}
      (executes : kernel.currentThread = some waiter ∧ stage = .waiting one)
      (dormant : kernel.Dormant waiter thread) : one = other :=
    absurd dormant (kept.not_dormant found (.inl ⟨executes.1, by
      change stage.leftWith = none
      rw [executes.2]
      rfl⟩))
  rcases (kept.waiters first waiter waitsFirst).2 thread found with
    executesFirst | ⟨-, leftFirst, dormant⟩
  · rcases (kept.waiters second waiter waitsSecond).2 thread found with
      executesSecond | ⟨-, -, dormant⟩
    · exact Stage.waiting.inj (executesFirst.2.symm.trans executesSecond.2)
    · exact mixed executesFirst dormant
  · rcases (kept.waiters second waiter waitsSecond).2 thread found with
      executesSecond | ⟨-, leftSecond, -⟩
    · exact (mixed executesSecond dormant).symm
    · rcases leftFirst with ⟨current, left⟩ | ⟨notCurrent, continues⟩
      · rcases leftSecond with ⟨-, left'⟩ | ⟨notCurrent, -⟩
        · exact Continuation.eventWait.inj (Option.some.inj (left.symm.trans left'))
        · exact absurd current notCurrent
      · rcases leftSecond with ⟨current, -⟩ | ⟨-, continues'⟩
        · exact absurd current notCurrent
        · exact Continuation.eventWait.inj (continues.symm.trans continues')

/-- The next thread is not a registered waiter. -/
theorem target_not_waiter (kept : RolesKept stage frames kernel)
    {id : ThreadId} (found : kernel.thread id = some thread)
    (isTarget : stage.target = some id) (subscription : SubscriptionId) :
    ¬ kernel.IsWaiter subscription id := by
  intro waits
  rcases (kept.waiters subscription id waits).2 thread found with
    ⟨-, waiting⟩ | ⟨-, -, dormant⟩
  · have same : stage = .waiting subscription := waiting
    rw [same] at isTarget
    cases isTarget
  · exact kept.not_dormant found (.inr isTarget) dormant

end RolesKept

variable {stage : Stage}

section

variable (move : CoreMove before after)
include move

/-- What a move of the core writes to the running thread leaves it running. -/
theorem CoreMove.stays_running
    (kept : RolesKept stage before.1 before.2) (live : NamedLive (stage, before.2))
    (retired : before.2.RetiredTerminated) (runs : Runs (stage, before.2) id)
    (found : after.2.thread id = some written) : written.currentState = .running := by
  obtain ⟨old, oldFound, write⟩ := move.stateWrite found
  have running := kept.running id old runs oldFound
  cases write with
  | kept state => exact state.trans running
  | readied asked guarded =>
    have called : .waking id ∈ before.1 ∨ .requested id ∈ before.1 :=
      asked.imp mem_of_head? mem_of_head?
    have notTarget := (kept.asked id called old oldFound).1
    rcases runs with ⟨current, -⟩ | isTarget
    · rcases guarded with notCurrent | ⟨waiting, -⟩
      · exact absurd current notCurrent
      · cases running.symm.trans waiting
    · exact absurd isTarget notTarget
  | ended _ notCurrent cause =>
    rcases runs with ⟨current, -⟩ | isTarget
    · exact absurd current notCurrent
    · rcases cause with listed | ⟨owner, process, parent, processFound, closed⟩
      · have ended := (retired id listed).2.2 old oldFound
        cases running.symm.trans ended
      · exact absurd closed
          ((live id (.inr isTarget)).alive old owner process oldFound parent processFound)

/-- What a move of the core writes to a registered waiter leaves it parked. -/
theorem CoreMove.stays_waiting
    (kept : RolesKept stage before.1 before.2) (waits : before.2.IsWaiter subscription waiter)
    (found : after.2.thread waiter = some written) :
    WaitsFor (stage, after.2) subscription waiter written := by
  obtain ⟨old, oldFound, write⟩ := move.stateWrite found
  obtain ⟨_, sameFound, -, -, continuation, -, -, stays⟩ := move.frame.thread waiter written found
  cases oldFound.symm.trans sameFound
  unfold WaitsFor LeftInWait
  rw [move.frame.currentThread, move.frame.idleThread, continuation]
  refine ((kept.waiters subscription waiter waits).2 old oldFound).imp_right ?_
  rintro ⟨notIdle, left, dormant⟩
  refine ⟨notIdle, left, ?_⟩
  rcases dormant with terminated | ⟨waiting, reason, awake⟩
  · exact .inl (stays terminated)
  · cases write with
    | kept state sameReason =>
      refine .inr ⟨state.trans waiting, ?_, fun mem =>
        awake (move.sleepQueue_sublist.mem mem)⟩
      rcases sameReason with unchanged | cleared
      · rw [unchanged]
        exact reason
      · rw [cleared]
        exact nofun
    | readied asked =>
      have called : .waking waiter ∈ before.1 ∨ .requested waiter ∈ before.1 :=
        asked.imp mem_of_head? mem_of_head?
      exact absurd waits ((kept.asked waiter called old oldFound).2 subscription)
    | ended terminated => exact .inl terminated

/-- Who a move asks the scheduler to make ready: a waiter it has just detached. -/
theorem CoreMove.asks (called : .waking id ∈ after.1 ∨ .requested id ∈ after.1) :
    (.waking id ∈ before.1 ∨ .requested id ∈ before.1) ∨
      ∃ subscription, before.2.IsWaiter subscription id ∧ ¬ after.2.IsWaiter subscription id := by
  cases move with
  | storeWake _ kernel _ target subscriber _ updated waiter found _ _ waits =>
    by_cases same : id = waiter
    · subst same
      refine .inr ⟨target, ⟨subscriber, found, waits⟩, fun still => ?_⟩
      exact (@IsWaiter.of_detach _ _ (kernel.modifySubscriber target fun _ => updated) _
        still).2 rfl
    · exact .inl (by simpa [same] using called)
  | detach _ kernel target subscriber waiter found waits =>
    by_cases same : id = waiter
    · subst same
      refine .inr ⟨target, ⟨subscriber, found, waits⟩, fun still => ?_⟩
      exact (@IsWaiter.of_detach _ _ kernel _ still).2 rfl
    · exact .inl (by simpa [same] using called)
  | woken => exact .inl (called.imp (.tail _) (.tail _))
  | publish | skip | advance | published | store | link | announce | reap | terminate
  | unregister =>
    refine .inl ?_
    revert called
    simp +contextual
  | _ => exact .inl called

theorem CoreMove.rolesKept
    (kept : RolesKept stage before.1 before.2) (live : NamedLive (stage, before.2))
    (retired : before.2.RetiredTerminated) : RolesKept stage after.1 after.2 where
  running id written runs found := by
    unfold Runs at runs
    rw [move.frame.currentThread] at runs
    exact move.stays_running kept live retired runs found
  apart id isTarget := by
    rw [move.frame.currentThread]
    exact kept.apart id isTarget
  waiters subscription waiter waits := by
    have earlier := move.isWaiter waits
    refine ⟨?_, fun written found => move.stays_waiting kept earlier found⟩
    rw [move.nextId_threads]
    exact (kept.waiters subscription waiter earlier).1
  asked id called written found := by
    obtain ⟨old, oldFound, -⟩ := move.frame.thread id written found
    rcases move.asks called with earlier | ⟨subscription, waits, detached⟩
    · obtain ⟨notTarget, notWaiter⟩ := kept.asked id earlier old oldFound
      exact ⟨notTarget, fun subscription waits => notWaiter subscription (move.isWaiter waits)⟩
    · refine ⟨fun isTarget => kept.target_not_waiter oldFound isTarget subscription waits,
        fun _ waitsOther => ?_⟩
      have same := kept.waits_once oldFound waits (move.isWaiter waitsOther)
      exact detached (same ▸ waitsOther)

end

theorem CoreRun.rolesKept (run : CoreRun before after)
    (kept : RolesKept stage before.1 before.2) (live : NamedLive (stage, before.2))
    (retired : before.2.RetiredTerminated) : RolesKept stage after.1 after.2 := by
  suffices together : RolesKept stage after.1 after.2 ∧ NamedLive (stage, after.2) ∧
      after.2.RetiredTerminated from together.1
  induction run with
  | refl => exact ⟨kept, live, retired⟩
  | tail _ move ih =>
    obtain ⟨middleKept, middleLive, middleRetired⟩ := ih
    refine ⟨move.rolesKept middleKept middleLive middleRetired, ?_,
      move.retiredTerminated middleRetired⟩
    intro id named
    rw [move.frame.currentThread] at named
    exact move.liveOwner (middleLive id named)

end

/-! ## Roles through an operation -/

variable {scope : Scope} {before after : Stage × Kernel}

variable {subscription : SubscriptionId} {waiter id : ThreadId}

/-- Only the start of a wait registers a waiter, the current thread. -/
theorem KernelMove.isWaiter (move : KernelMove scope before after)
    (waits : after.2.IsWaiter subscription waiter) :
    before.2.IsWaiter subscription waiter ∨
      (∃ owner, scope.wait owner subscription) ∧ before.2.currentThread = some waiter ∧
        after.2.currentThread = some waiter ∧ after.1 = .waiting subscription := by
  cases move with
  | core _ _ _ run => exact .inl (run.isWaiter waits)
  | subscribe =>
    obtain ⟨subscriber, found, isWaiter⟩ := waits
    rcases of_insert found with rfl | found
    · cases isWaiter
    · exact .inl ⟨subscriber, found, isWaiter⟩
  | unsubscribe =>
    obtain ⟨subscriber, found, isWaiter⟩ := waits
    exact .inl ⟨subscriber, of_remove found, isWaiter⟩
  | readEvents _ _ subscriber count found =>
    rcases waits.of_modifySubscriber with ⟨earlier, -⟩ | ⟨rfl, _, _, isWaiter⟩
    · exact .inl earlier
    · have same := congrArg (fun identity => identity.2.2)
        (EventSubscriber.identity_readRecords count subscriber)
      exact .inl ⟨subscriber, found, same.symm.trans isWaiter⟩
  | setWaiter _ owner _ _ id allowed current =>
    rcases waits.of_modifySubscriber with ⟨earlier, -⟩ | ⟨rfl, _, _, isWaiter⟩
    · exact .inl earlier
    · obtain rfl : id = waiter := Option.some.inj isWaiter
      exact .inr ⟨⟨owner, allowed⟩, current, current, rfl⟩
  | clearWaiter => exact .inl waits.of_eventWaitTail.1
  | pop =>
    rw [readyQueueRemove_eq] at waits
    exact .inl waits
  | bind =>
    rw [startRunning_eq] at waits
    exact .inl waits
  | switchIn =>
    rw [switchIn_eq] at waits
    exact .inl waits
  | _ => exact .inl waits

variable {stage : Stage}

/-- A thread fit to run is no registered waiter, unless it executes the wait. -/
theorem RolesKept.fit_not_waiter {kernel : Kernel} (kept : RolesKept stage frames kernel)
    {thread : Thread} (found : kernel.thread id = some thread)
    (elsewhere : stage ≠ .waiting subscription) (fit : kernel.idleThread = some id ∨
      thread.currentState ≠ .waiting ∧ thread.currentState ≠ .terminated) :
    ¬ kernel.IsWaiter subscription id := by
  intro waits
  rcases (kept.waiters subscription id waits).2 thread found with
    ⟨-, here⟩ | ⟨notIdle, -, dormant⟩
  · exact elsewhere here
  · rcases fit with isIdle | ⟨notWaiting, notTerminated⟩
    · exact notIdle isIdle
    · exact dormant.elim notTerminated fun parked => notWaiting parked.1

variable {written : Thread}

/-- A move leaves the processor to the same thread, and to a waiter its place in the wait. -/
structure LeavesWait (before after : Stage × Kernel) (subscription : SubscriptionId)
    (id : ThreadId) : Prop where
  current : after.2.currentThread = before.2.currentThread
  idle : after.2.idleThread = before.2.idleThread
  executes : before.2.currentThread = some id → before.1 = .waiting subscription →
    after.1 = .waiting subscription
  left : before.2.currentThread = some id →
    before.1.leftWith = some (.eventWait subscription) →
    after.1.leftWith = some (.eventWait subscription)

theorem WaitsFor.of_kept {old : Thread} (waits : WaitsFor before subscription id old)
    (leaves : LeavesWait before after subscription id)
    (asleep : id ∈ after.2.sleepQueue → id ∈ before.2.sleepQueue)
    (continuation : written.continuation = old.continuation)
    (state : written.currentState = old.currentState)
    (reason : written.waitStatus = old.waitStatus ∨ written.waitStatus = .none) :
    WaitsFor after subscription id written := by
  unfold WaitsFor LeftInWait
  rw [leaves.current, leaves.idle, continuation]
  rcases waits with ⟨isCurrent, here⟩ | ⟨notIdle, leftInWait, dormant⟩
  · exact .inl ⟨isCurrent, leaves.executes isCurrent here⟩
  · refine .inr ⟨notIdle, leftInWait.imp_left fun leaving =>
      ⟨leaving.1, leaves.left leaving.1 leaving.2⟩, ?_⟩
    rcases dormant with terminated | ⟨waiting, notMessage, awake⟩
    · exact .inl (state.trans terminated)
    · refine .inr ⟨state.trans waiting, ?_, fun mem => awake (asleep mem)⟩
      rcases reason with same | cleared
      · rw [same]
        exact notMessage
      · rw [cleared]
        exact nofun

/-- A move that writes to one thread, and to a waiter nothing that would wake it. -/
theorem RolesKept.waitsFor_of_write
    (kept : RolesKept before.1 frames before.2) (waits : before.2.IsWaiter subscription waiter)
    (found : after.2.thread waiter = some written)
    (rewritten : Rewrites before.2 after.2 target update)
    (benign : ∀ thread, before.2.thread target = some thread →
      before.2.IsWaiter subscription target →
      (update thread).continuation = thread.continuation ∧
        (update thread).currentState = thread.currentState ∧
        ((update thread).waitStatus = thread.waitStatus ∨ (update thread).waitStatus = .none))
    (asleep : after.2.sleepQueue = before.2.sleepQueue)
    (leaves : LeavesWait before after subscription waiter) :
    WaitsFor after subscription waiter written := by
  have earlier := (kept.waiters subscription waiter waits).2
  have sleeping : waiter ∈ after.2.sleepQueue → waiter ∈ before.2.sleepQueue :=
    fun mem => asleep ▸ mem
  rcases written_cases (rewritten _) found with ⟨rfl, old, oldFound, rfl⟩ | ⟨-, found⟩
  · obtain ⟨continuation, state, reason⟩ := benign old oldFound waits
    exact (earlier old oldFound).of_kept leaves sleeping continuation state reason
  · exact (earlier written found).of_kept leaves sleeping rfl rfl (.inl rfl)

/-- What roles rest on between the moves of an operation. -/
structure RolesSound (scope : Scope) (state : Stage × Kernel) : Prop where
  kept : RolesKept state.1 [] state.2
  live : NamedLive state
  retired : state.2.RetiredTerminated
  sleep : state.2.SleepOrdered
  /-- Nobody asks for a registered waiter to be made ready. -/
  requests : ∀ id, scope.request id → ∀ subscription, ¬ state.2.IsWaiter subscription id
  waitless : ∀ id, scope.request id → ∀ owner subscription, ¬ scope.wait owner subscription

/-- The calls under which the core is entered ask for no registered waiter. -/
theorem RolesSound.entered {kernel : Kernel}
    (sound : RolesSound scope (stage, kernel)) (entry : Entry scope kernel frames)
    (calm : frames = [] ∨ stage = .running) : RolesKept stage frames kernel := by
  have kept : RolesKept stage [] kernel := sound.kept
  refine ⟨kept.running, kept.apart, kept.waiters, ?_⟩
  intro id called thread found
  have running : stage = .running := by
    rcases calm with rfl | running
    · simp at called
    · exact running
  subst running
  refine ⟨nofun, fun subscription waits => ?_⟩
  have parked := (kept.waiters subscription id waits).2 thread found
  have dormant : kernel.Dormant id thread := by
    rcases parked with ⟨-, here⟩ | ⟨-, -, dormant⟩
    · cases here
    · exact dormant
  cases entry with
  | plain | external | unsubscribing => simp at called
  | request target allowed =>
    obtain rfl : id = target := by simpa using called
    exact sound.requests id allowed subscription waits
  | expired target _ sleeperFound waiting asleep =>
    obtain rfl : id = target := by simpa using called
    cases found.symm.trans sleeperFound
    rcases dormant with terminated | ⟨-, -, awake⟩
    · cases waiting.symm.trans terminated
    · exact awake asleep
  | message target _ receiverFound waiting reason =>
    obtain rfl : id = target := by simpa using called
    cases found.symm.trans receiverFound
    rcases dormant with terminated | ⟨-, notMessage, -⟩
    · cases waiting.symm.trans terminated
    · exact notMessage reason

theorem RolesSound.core {first last : Kernel}
    (sound : RolesSound scope (stage, first)) (entry : Entry scope first frames)
    (calm : frames = [] ∨ stage = .running)
    (run : CoreRun (frames, first) (frames, last)) : RolesKept stage [] last := by
  have kept : RolesKept stage frames last :=
    run.rolesKept (sound.entered entry calm) sound.live sound.retired
  exact ⟨kept.running, kept.apart, kept.waiters, by simp⟩

/-- The running thread is not asleep. -/
theorem RolesSound.runs_awake (sound : RolesSound scope before)
    (runs : Runs before id) {thread : Thread}
    (found : before.2.thread id = some thread) : id ∉ before.2.sleepQueue := by
  intro mem
  have waiting := sound.sleep.waiting_of_mem mem found
  rw [sound.kept.running id thread runs found] at waiting
  cases waiting

/-- A registered waiter that a switch leaves behind, or that is not involved in it. -/
theorem RolesSound.waitsFor_switchIn {kernel : Kernel} {continuation : Continuation}
    (sound : RolesSound scope (.binding continuation id, kernel))
    (notCurrent : kernel.currentThread ≠ some id) (waits : kernel.IsWaiter subscription waiter)
    (found : (kernel.switchIn id continuation).thread waiter = some written) :
    WaitsFor (.running, kernel.switchIn id continuation) subscription waiter written := by
  have kept : RolesKept (.binding continuation id) [] kernel := sound.kept
  obtain ⟨old, oldFound, cases⟩ := thread_switchIn notCurrent found
  have ne : waiter ≠ id := by
    rintro rfl
    exact kept.target_not_waiter oldFound rfl subscription waits
  have gone : (kernel.switchIn id continuation).currentThread ≠ some waiter := by
    rw [currentThread_switchIn]
    exact fun same => ne (Option.some.inj same).symm
  have earlier := (kept.waiters subscription waiter waits).2 old oldFound
  rcases earlier with ⟨-, here⟩ | ⟨notIdle, left, dormant⟩
  · cases here
  rcases cases with ⟨same, -⟩ | ⟨-, current, rfl⟩ | ⟨-, elsewhere, rfl⟩
  · exact absurd same ne
  · -- The outgoing thread keeps the continuation of its wait.
    rcases left with ⟨-, left⟩ | ⟨notLeft, -⟩
    · refine .inr ⟨by rw [idleThread_switchIn]; exact notIdle,
        .inr ⟨gone, Option.some.inj left⟩, ?_⟩
      rw [switchIn_eq]
      exact dormant
    · exact absurd current notLeft
  · rcases left with ⟨current, -⟩ | ⟨-, continues⟩
    · exact absurd current elsewhere
    · refine .inr ⟨by rw [idleThread_switchIn]; exact notIdle, .inr ⟨gone, continues⟩, ?_⟩
      rw [switchIn_eq]
      exact dormant

/-- A registered waiter keeps waiting through every move. -/
theorem KernelMove.stays_waiting (move : KernelMove scope before after)
    (sound : RolesSound scope before) (waits : before.2.IsWaiter subscription waiter)
    (still : after.2.IsWaiter subscription waiter) (found : after.2.thread waiter = some written) :
    WaitsFor after subscription waiter written := by
  have kept := sound.kept
  have earlier := (kept.waiters subscription waiter waits).2
  -- The moves that write to no thread and stay in their stage, or leave it as it was.
  have unwritten (same : after.2.threads = before.2.threads)
      (asleep : after.2.sleepQueue = before.2.sleepQueue)
      (leaves : LeavesWait before after subscription waiter) :
      WaitsFor after subscription waiter written := by
    have oldFound : before.2.thread waiter = some written :=
      (congrArg (·.lookup waiter) same).symm.trans found
    exact (earlier written oldFound).of_kept leaves (fun mem => asleep ▸ mem) rfl rfl (.inl rfl)
  cases move with
  | core _ entry calm run =>
    exact ((sound.core entry calm run).waiters subscription waiter still).2 written found
  | createThread kernel =>
    have assigned := (kept.waiters subscription waiter waits).1
    exact (earlier written (of_insert_older assigned found)).of_kept
      ⟨rfl, rfl, fun _ here => here, fun _ left => left⟩ (id) rfl rfl (.inl rfl)
  | quantum | priority | lower | relink =>
    refine kept.waitsFor_of_write waits found (.modify rfl) ?_ rfl
      ⟨rfl, rfl, fun _ here => here, fun _ left => left⟩
    exact fun _ _ _ => ⟨rfl, rfl, .inl rfl⟩
  | finishWait =>
    refine kept.waitsFor_of_write waits found (.modify rfl) ?_ rfl
      ⟨rfl, rfl, fun _ here => here, fun _ left => left⟩
    exact fun _ _ _ => ⟨rfl, rfl, .inr rfl⟩
  | push =>
    refine kept.waitsFor_of_write waits found (.modify rfl) ?_ rfl
      ⟨rfl, rfl, fun _ => nofun, fun _ left => left⟩
    exact fun _ _ _ => ⟨rfl, rfl, .inl rfl⟩
  | requeue _ _ _ _ _ _ _ threadFound running =>
    refine kept.waitsFor_of_write waits found (.modify rfl) ?_ rfl
      ⟨rfl, rfl, fun _ => nofun, fun _ left => left⟩
    exact fun _ _ waitsOther =>
      absurd waitsOther (kept.fit_not_waiter threadFound nofun (.inr (by simp [running])))
  | park kernel _ _ id thread _ _ parks current notIdle threadFound running =>
    cases parks with
    | plain _ _ other =>
      refine kept.waitsFor_of_write waits found (.modify rfl) ?_ rfl
        ⟨rfl, rfl, fun _ => nofun, fun _ => nofun⟩
      exact fun _ _ waitsOther =>
        absurd waitsOther (kept.fit_not_waiter threadFound nofun (.inr (by simp [running])))
    | event here =>
      by_cases same : waiter = id
      · -- The current thread parks in the wait it has registered for.
        subst same
        have awake : waiter ∉ kernel.sleepQueue :=
          sound.runs_awake (.inl ⟨current, rfl⟩) threadFound
        have isHere : here = subscription := by
          by_contra elsewhere
          have other : Stage.waiting here ≠ .waiting subscription :=
            fun equal => elsewhere (Stage.waiting.inj equal)
          exact kept.fit_not_waiter threadFound other (.inr (by simp [running])) waits
        subst isHere
        obtain ⟨old, -, rfl⟩ := thread_of_modified found
        exact .inr ⟨notIdle, .inl ⟨current, rfl⟩, .inr ⟨rfl, nofun, awake⟩⟩
      · have notCurrent : kernel.currentThread ≠ some waiter :=
          fun isCurrent => same (Option.some.inj (isCurrent.symm.trans current))
        have oldFound : kernel.thread waiter = some written := by
          rwa [thread_modifyThread, if_neg same] at found
        exact (earlier written oldFound).of_kept
          ⟨rfl, rfl, fun isCurrent => absurd isCurrent notCurrent,
            fun isCurrent => absurd isCurrent notCurrent⟩ (fun mem => mem) rfl rfl (.inl rfl)
  | sleep _ _ id thread plain current _ threadFound =>
    have ne : waiter ≠ id := by
      rintro rfl
      rcases earlier thread threadFound with ⟨-, here⟩ | ⟨-, ⟨-, left⟩ | ⟨gone, -⟩, -⟩
      · cases here
      · exact plain.1 subscription (Option.some.inj left)
      · exact gone current
    refine (earlier written found).of_kept ⟨rfl, rfl, fun _ here => here, fun _ left => left⟩ ?_
      rfl rfl (.inl rfl)
    intro mem
    rcases mem_append.mp mem with front | rear
    · exact erase_sublist.mem ((takeWhile_sublist _).mem front)
    · rcases mem_cons.mp rear with same | back
      · exact absurd same ne
      · exact erase_sublist.mem ((dropWhile_sublist _).mem back)
  | retire _ id thread _ current _ threadFound =>
    have running := kept.running id thread (.inl ⟨current, rfl⟩) threadFound
    refine kept.waitsFor_of_write waits found (.modify rfl) ?_ rfl
      ⟨rfl, rfl, fun _ => nofun, fun _ => nofun⟩
    exact fun _ _ waitsOther =>
      absurd waitsOther (kept.fit_not_waiter threadFound nofun (.inr (by simp [running])))
  | pop =>
    rw [readyQueueRemove_eq] at found ⊢
    refine kept.waitsFor_of_write waits found (thread_readyQueueRemove _ _ ·) ?_ rfl
      ⟨rfl, rfl, fun _ => nofun, fun _ left => left⟩
    exact fun _ _ _ => ⟨rfl, rfl, .inl rfl⟩
  | selfSwitch kernel _ id current fit =>
    have fitThread (thread : Thread) (threadFound : kernel.thread id = some thread) :
        ¬ kernel.IsWaiter subscription id := by
      refine kept.fit_not_waiter threadFound nofun ?_
      rcases fit thread threadFound with (⟨isReady, -⟩ | isIdle) | ⟨-, runnable⟩
      · exact .inr (by simp [isReady])
      · exact .inl isIdle
      · exact .inr (awake_of_threadIsRunnable runnable)
    refine kept.waitsFor_of_write waits found (.modify rfl)
      (fun thread threadFound waitsOther => absurd waitsOther (fitThread thread threadFound))
      rfl ⟨rfl, rfl, fun _ => nofun, ?_⟩
    intro isCurrent
    cases current.symm.trans isCurrent
    obtain ⟨thread, threadFound, -⟩ := thread_of_modified found
    exact absurd waits (fitThread thread threadFound)
  | bind _ _ _ _ _ threadFound _ fit =>
    rw [startRunning_eq] at found ⊢
    refine kept.waitsFor_of_write waits found (.modify rfl) ?_ rfl
      ⟨rfl, rfl, fun _ => nofun, fun _ left => left⟩
    refine fun _ _ waitsOther => absurd waitsOther (kept.fit_not_waiter threadFound nofun ?_)
    rcases fit with ⟨isReady, -⟩ | isIdle
    · exact .inr (by simp [isReady])
    · exact .inl isIdle
  | switchIn _ _ _ _ notCurrent => exact sound.waitsFor_switchIn notCurrent waits found
  | resumed kernel id thread current threadFound =>
    have running := kept.running id thread (.inl ⟨current, rfl⟩) threadFound
    have notWaiter : ¬ kernel.IsWaiter subscription id :=
      kept.fit_not_waiter threadFound nofun (.inr (by simp [running]))
    exact kept.waitsFor_of_write waits found (.modify rfl)
      (fun _ _ waitsOther => absurd waitsOther notWaiter) rfl
      ⟨rfl, rfl, fun _ => nofun, fun _ => nofun⟩
  | setWaiter | leave => exact unwritten rfl rfl ⟨rfl, rfl, fun _ => nofun, fun _ => nofun⟩
  | clearWaiter kernel target id current =>
    refine unwritten rfl rfl ⟨rfl, rfl, ?_, fun _ => nofun⟩
    -- The current thread would still be registered only if it waited elsewhere.
    intro isCurrent here
    obtain rfl := mem_unique current isCurrent
    obtain rfl : target = subscription := Stage.waiting.inj here
    exact absurd rfl (still.of_eventWaitTail.2 rfl)
  | fallBack | refuse => exact unwritten rfl rfl ⟨rfl, rfl, fun _ => nofun, fun _ left => left⟩
  | _ => exact unwritten rfl rfl ⟨rfl, rfl, fun _ here => here, fun _ left => left⟩

/-- A write that keeps the state of the thread it goes to. -/
theorem RolesKept.running_of_write (kept : RolesKept before.1 frames before.2)
    (found : after.2.thread id = some written) (rewritten : Rewrites before.2 after.2 target update)
    (state : ∀ thread, (update thread).currentState = thread.currentState)
    (runs : Runs before id) : written.currentState = .running := by
  rcases written_cases (rewritten _) found with ⟨-, old, oldFound, rfl⟩ | ⟨-, found⟩
  · rw [state]
    exact kept.running id old runs oldFound
  · exact kept.running id written runs found

variable (move : KernelMove scope before after)
include move

/-- Whoever executes or is about to is running. -/
theorem KernelMove.stays_running (sound : RolesSound scope before) (runs : Runs after id)
    (found : after.2.thread id = some written) : written.currentState = .running := by
  have kept := sound.kept
  cases move with
  | core _ entry calm run => exact (sound.core entry calm run).running id written runs found
  | createThread kernel =>
    have current : kernel.currentThread = some id := (runs.resolve_right nofun).1
    have assigned := (sound.live id (.inl current)).assigned
    exact kept.running id written runs (of_insert_older assigned found)
  | quantum | priority | finishWait | relink =>
    exact kept.running_of_write found (.modify rfl) (fun _ => rfl) runs
  | leave | clearPending | lower | requeue | push | park | sleep | retire | clearBit | pop
  | fallBack => cases (runs.resolve_right nofun).2
  | selfSwitch kernel _ _ current =>
    have isCurrent : kernel.currentThread = some id := (runs.resolve_right nofun).1
    cases current.symm.trans isCurrent
    obtain ⟨old, -, rfl⟩ := thread_of_modified found
    rfl
  | bind _ _ target =>
    rcases runs with ⟨-, stays⟩ | isTarget
    · cases stays
    · obtain rfl : target = id := Option.some.inj isTarget
      exact thread_startRunning found
  | switchIn _ continuation target _ notCurrent =>
    have isTarget : Stage.target (.binding continuation target) = some id :=
      (currentThread_switchIn _ _ _).symm.trans (runs.resolve_right nofun).1
    obtain rfl : target = id := Option.some.inj isTarget
    obtain ⟨old, oldFound, ⟨-, rfl⟩ | ⟨ne, -⟩ | ⟨ne, -⟩⟩ := thread_switchIn notCurrent found
    · exact kept.running target old (.inr rfl) oldFound
    · exact absurd rfl ne
    · exact absurd rfl ne
  | resumed _ _ thread =>
    refine kept.running_of_write found (.modify rfl) ?_ ?_
    · exact fun _ => rfl
    · rcases runs with ⟨current, -⟩ | isTarget
      · exact .inl ⟨current, rfl⟩
      · cases continuation : thread.continuation <;> rw [continuation] at isTarget <;>
          cases isTarget
  | setWaiter | clearWaiter =>
    exact kept.running id written (.inl ⟨(runs.resolve_right nofun).1, rfl⟩) found
  | _ => exact kept.running id written runs found

theorem KernelMove.target_apart
    (kept : RolesKept before.1 [] before.2) (isTarget : after.1.target = some id) :
    after.2.currentThread ≠ some id := by
  cases move with
  | core _ _ _ run =>
    rw [run.frame.currentThread]
    exact kept.apart id isTarget
  | bind _ _ target _ _ _ notCurrent =>
    obtain rfl : target = id := Option.some.inj isTarget
    rw [currentThread_startRunning]
    exact notCurrent
  | resumed _ _ thread =>
    cases continuation : thread.continuation <;> rw [continuation] at isTarget <;>
      cases isTarget
  | finishWait => exact kept.apart id isTarget
  | _ => cases isTarget

/-- Every move keeps the roles of threads. -/
theorem KernelMove.rolesKept (sound : RolesSound scope before) : RolesKept after.1 [] after.2 where
  running _ _ runs found := move.stays_running sound runs found
  apart _ isTarget := move.target_apart sound.kept isTarget
  waiters subscription waiter waits := by
    rcases move.isWaiter waits with earlier | ⟨-, current, stillCurrent, here⟩
    · refine ⟨?_, fun written found => move.stays_waiting sound earlier waits found⟩
      exact (sound.kept.waiters subscription waiter earlier).1.trans_le move.nextId_threads_le
    · refine ⟨?_, fun _ _ => .inl ⟨stillCurrent, here⟩⟩
      exact (sound.live waiter (.inl current)).assigned.trans_le move.nextId_threads_le
  asked _ called := by simp at called

theorem KernelMove.requests_kept (sound : RolesSound scope before)
    (requested : scope.request id) (subscription : SubscriptionId) :
    ¬ after.2.IsWaiter subscription id := by
  intro waits
  rcases move.isWaiter waits with earlier | ⟨⟨owner, allowed⟩, -⟩
  · exact sound.requests id requested subscription earlier
  · exact sound.waitless id requested owner subscription allowed

end RosKernel.Kernel
