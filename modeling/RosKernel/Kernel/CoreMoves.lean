import RosKernel.Kernel.CoreSteps

/-!
# Calls in progress

Every call into the re-entrant core is a sequence of moves. A move acts on the kernel and on the
stack of calls that are in progress: which thread is being woken and on whose
behalf, which thread is queued but not yet compared with the current one, which
thread is being destroyed, and how far each publication has come. The frames say
why a thread is woken, destroyed or written to. An invariant of the core is checked against
the moves once; the functions of the core are never unfolded again.
-/

namespace RosKernel

open Registry

/-- A call of the core that has not returned. -/
inductive Frame
  /-- `wake_waiter` has detached the thread and calls the scheduler. -/
  | waking (id : ThreadId)
  /-- The scheduler was asked from outside the core to make the thread ready. -/
  | requested (id : ThreadId)
  /-- The broker was given a record from outside the core. -/
  | external
  /-- The broker was asked from outside the core to drop a subscription. -/
  | unsubscribing
  /-- `transition_thread_to_ready` has queued the thread. -/
  | readied (id : ThreadId)
  /-- `destroy_thread` has terminated the thread. -/
  | dying (id : ThreadId)
  /-- `publish_record` has come to a subscriber. -/
  | publishing (record : KernelEventRecord) (cursor : Option SubscriptionId)
  /-- `publish_record` is done with a subscriber. -/
  | delivered (record : KernelEventRecord) (subscription : SubscriptionId)

/-- The thread `wake_waiter` is waking, if that is what a frame stands for. -/
def Frame.wakingThread : Frame → Option ThreadId
  | .waking id => some id
  | _ => none

/-- Whether a frame stands for a publication. -/
def Frame.publishes : Frame → Bool
  | .publishing .. => true
  | .delivered .. => true
  | _ => false

/-- The families of the records that the core itself publishes. -/
def KernelEventRecord.OfCore (record : KernelEventRecord) : Prop :=
  record.family = EventFamily.thread ∨ record.family = EventFamily.process

namespace Kernel

theorem threadRecord_ofCore (type : KernelEventType) (id : ThreadId) (thread : Thread)
    (previous current : ThreadState) :
    (threadRecord type id thread previous current).OfCore :=
  .inl rfl

theorem processRecord_ofCore (type : KernelEventType) (id : ProcessId) (process : Process) :
    (processRecord type id process).OfCore :=
  .inr rfl

/-- The record `publish_record` distributes for one it was given. -/
def numbered (record : KernelEventRecord) (kernel : Kernel) : KernelEventRecord :=
  { record with
    sequence := kernel.nextSequence + 1
    uptimeMsec := ticksToMilliseconds kernel.tickCount }

/-- Somebody asked for the thread to be made ready. -/
def Asked (id : ThreadId) (frames : List Frame) : Prop :=
  frames.head? = some (.waking id) ∨ frames.head? = some (.requested id)

/-- The innermost call is not a publication: while a record is handed to a subscriber
nothing else happens but what waking the subscriber brings about. -/
def Calm (frames : List Frame) : Prop :=
  ∀ frame, frames.head? = some frame → frame.publishes = false

theorem calm_nil : Calm [] := by
  intro _ top
  cases top

theorem calm_cons {frame : Frame} (quiet : frame.publishes = false) (frames : List Frame) :
    Calm (frame :: frames) := by
  rintro _ ⟨⟩
  exact quiet

variable {id : ThreadId}

theorem Asked.calm {frames : List Frame} (asked : Asked id frames) : Calm frames := by
  intro _ top
  rcases asked with waking | requested
  · cases waking.symm.trans top
    rfl
  · cases requested.symm.trans top
    rfl

/-- The writes of `destroy_thread` to the thread before its publication. -/
def endThread (thread : Thread) : Thread :=
  { thread with waitStatus := .none, wakeTick := 0, currentState := .terminated }

/-- One move of the core. -/
inductive CoreMove : List Frame × Kernel → List Frame × Kernel → Prop
  /-- Heap outcomes and exit records. -/
  | bookkeeping (frames kernel outcomes records) :
      CoreMove (frames, kernel)
        (frames, { kernel with heapOutcomes := outcomes, exitRecords := records })
  /-- `publish_record` starts; below other calls the record is one of the core's. -/
  | publish (frames kernel) (record : KernelEventRecord)
      (family : record.OfCore ∨ frames = [.external])
      (calm : Calm frames) :
      CoreMove (frames, kernel)
        (.publishing (kernel.numbered record) kernel.subscribers.ids.head? :: frames,
          { kernel with nextSequence := kernel.nextSequence + 1 })
  /-- `publish_record` passes over a subscriber. -/
  | skip (frames kernel record) (subscription : SubscriptionId) :
      CoreMove (.publishing record (some subscription) :: frames, kernel)
        (.delivered record subscription :: frames, kernel)
  /-- `publish_record` turns to the next subscriber. -/
  | advance (frames kernel record) (subscription : SubscriptionId)
      (linked : kernel.subscriber subscription ≠ none) :
      CoreMove (.delivered record subscription :: frames, kernel)
        (.publishing record (kernel.subscribers.next subscription) :: frames, kernel)
  | published (frames kernel record) :
      CoreMove (.publishing record none :: frames, kernel) (frames, kernel)
  /-- `enqueue_record` on a subscription without a waiter, or dropping the record. -/
  | store (frames kernel record) (subscription : SubscriptionId) (subscriber)
      (allocated stored : Bool) (updated)
      (found : kernel.subscriber subscription = some subscriber)
      (accepted : subscriptionMatches subscriber.request record = true)
      (result : subscriber.storeRecord record allocated = (stored, updated))
      (silent : stored = true → subscriber.waitingThread = none) :
      CoreMove (.publishing record (some subscription) :: frames, kernel)
        (.delivered record subscription :: frames,
          kernel.modifySubscriber subscription fun _ => updated)
  /-- `enqueue_record` and the start of `wake_waiter`. -/
  | storeWake (frames kernel record) (subscription : SubscriptionId) (subscriber)
      (allocated : Bool) (updated) (waiter : ThreadId)
      (found : kernel.subscriber subscription = some subscriber)
      (accepted : subscriptionMatches subscriber.request record = true)
      (result : subscriber.storeRecord record allocated = (true, updated))
      (waits : subscriber.waitingThread = some waiter) :
      CoreMove (.publishing record (some subscription) :: frames, kernel)
        (.waking waiter :: .delivered record subscription :: frames,
          (kernel.modifySubscriber subscription fun _ => updated).detachWaiter subscription waiter)
  /-- The start of `wake_waiter` when a subscription is destroyed: by `unsubscribe`, or
  by `unsubscribe_process` for a process without threads. -/
  | detach (frames kernel) (subscription : SubscriptionId) (subscriber)
      (waiter : ThreadId)
      (found : kernel.subscriber subscription = some subscriber)
      (waits : subscriber.waitingThread = some waiter)
      (origin : frames = [.unsubscribing] ∨ kernel.processThreads subscriber.ownerProcessId = [])
      (calm : Calm frames) :
      CoreMove (frames, kernel) (.waking waiter :: frames, kernel.detachWaiter subscription waiter)
  /-- The end of `wake_waiter`. -/
  | woken (frames kernel) (waiter : ThreadId)
      (settled : kernel.currentThread = some waiter ∨
        ∀ thread, kernel.thread waiter = some thread →
          thread.currentState ≠ .waiting ∨ thread.inReadyQueue = true) :
      CoreMove (.waking waiter :: frames, kernel) (frames, kernel)
  | revive (frames kernel) (id : ProcessId) :
      CoreMove (frames, kernel) (frames, kernel.modifyProcess id reviveProcess)
  /-- A thread leaves its wait, and the sleep queue with it. -/
  | leaveWait (frames kernel) (id : ThreadId) (cause : WakeCause) (thread)
      (asked : Asked id frames)
      (found : kernel.thread id = some thread)
      (alive : thread.currentState ≠ .terminated)
      (notQueued : thread.inReadyQueue = false)
      (guarded : kernel.currentThread ≠ some id ∨
        thread.currentState = .waiting ∧ frames.head? = some (.requested id)) :
      CoreMove (frames, kernel)
        (frames, (kernel.sleepQueueRemove id).modifyThread id (leaveWait cause))
  /-- `ready_queue_push` succeeds below `transition_thread_to_ready`. -/
  | link (frames kernel) (id : ThreadId) (thread) (atTail : Bool)
      (asked : Asked id frames)
      (found : kernel.thread id = some thread)
      (isReady : thread.currentState = .ready)
      (notIdle : kernel.idleThread ≠ some id)
      (valid : thread.currentPriority < threadPriorityLevelCount)
      (notQueued : thread.inReadyQueue = false)
      (guarded : kernel.currentThread ≠ some id ∨ frames.head? = some (.requested id)) :
      CoreMove (frames, kernel)
        (.readied id :: frames, kernel.linkReady id thread.currentPriority atTail)
  /-- `transition_thread_to_ready` compares the queued thread with the current one. -/
  | announce (frames kernel) (id : ThreadId) :
      CoreMove (.readied id :: frames, kernel) (frames, kernel.requestReschedule id)
  /-- `ready_queue_remove` unlinks a queued thread. -/
  | unlink (frames kernel) (id : ThreadId) (thread)
      (found : kernel.thread id = some thread)
      (queued : thread.inReadyQueue = true)
      (valid : thread.currentPriority < threadPriorityLevelCount)
      (spares : kernel.currentThread ≠ some id ∨ thread.currentState ≠ .ready ∨
        kernel.idleThread = some id) :
      CoreMove (frames, kernel) (frames, kernel.unlinkReady id thread.currentPriority)
  /-- `sleep_queue_remove` before an expired sleeper is made ready. -/
  | unsleep (frames kernel) (id : ThreadId) :
      CoreMove (frames, kernel) (frames, kernel.sleepQueueRemove id)
  /-- `reap_retired_threads` begins to destroy the head of the retired list. -/
  | reap (frames kernel) (id : ThreadId) (rest) (thread)
      (head : kernel.retiredThreads = id :: rest)
      (found : kernel.thread id = some thread)
      (notCurrent : kernel.currentThread ≠ some id)
      (unqueued : thread.inReadyQueue = true → ¬ thread.currentPriority < threadPriorityLevelCount)
      (calm : Calm frames) :
      CoreMove (frames, kernel)
        (.dying id :: frames,
          ({ kernel with retiredThreads := rest }.sleepQueueRemove id).modifyThread id endThread)
  /-- `destroy_process` begins to destroy a thread of a terminated process. -/
  | terminate (frames kernel) (id : ThreadId) (thread) (owner : ProcessId) (process)
      (found : kernel.thread id = some thread)
      (member : thread.parent = some owner)
      (owned : kernel.process owner = some process)
      (closed : process.currentState = .terminated)
      (notCurrent : kernel.currentThread ≠ some id)
      (unqueued : thread.inReadyQueue = true → ¬ thread.currentPriority < threadPriorityLevelCount)
      (calm : Calm frames) :
      CoreMove (frames, kernel)
        (.dying id :: frames, (kernel.sleepQueueRemove id).modifyThread id endThread)
  /-- `destroy_thread` releases the thread object. -/
  | unregister (frames kernel) (id : ThreadId) (thread)
      (found : kernel.thread id = some thread)
      (terminated : thread.currentState = .terminated) :
      CoreMove (.dying id :: frames, kernel)
        (frames, { kernel with threads := kernel.threads.remove id })
  /-- `destroy_process` on a process without threads. -/
  | closeProcess (frames kernel) (id : ProcessId)
      (empty : kernel.processThreads id = []) :
      CoreMove (frames, kernel) (frames, kernel.modifyProcess id fun process =>
          { process with currentState := .terminated })
  /-- `orphan_launched_processes` and `unlink_process`. -/
  | removeProcess (frames kernel) (id : ProcessId)
      (empty : kernel.processThreads id = []) :
      CoreMove (frames, kernel)
        (frames,
          { kernel with
            processes :=
              (kernel.orphanLaunchedProcesses id).processes.remove id })
  /-- `unsubscribe_process` releases a subscriber of a process without threads. -/
  | unsubscribe (frames kernel) (id : SubscriptionId) (subscriber)
      (found : kernel.subscriber id = some subscriber)
      (empty : kernel.processThreads subscriber.ownerProcessId = []) :
      CoreMove (frames, kernel)
        (frames, { kernel with subscribers := kernel.subscribers.remove id })

/-- A finite sequence of moves. -/
abbrev CoreRun : List Frame × Kernel → List Frame × Kernel → Prop :=
  Relation.ReflTransGen CoreMove

/-! ## What no move changes -/

/-- A request for a reschedule is never withdrawn by the core. -/
theorem requestReschedule_eq (kernel : Kernel) (id : ThreadId) :
    kernel.requestReschedule id = { kernel with
      reschedulePending := (kernel.requestReschedule id).reschedulePending } := by
  unfold requestReschedule
  split <;> rfl

variable {before after : List Frame × Kernel}

theorem CoreMove.frame (move : CoreMove before after) : CoreFrame before.2 after.2 := by
  cases move with
  | storeWake | detach | link | unlink =>
    exact .of_modifyThread rfl rfl rfl (.modify rfl) (fun _ _ => ⟨rfl, rfl, rfl, id, id, id⟩) rfl
  | revive =>
    refine .of_modifyProcess fun process => ?_
    unfold reviveProcess
    split <;> exact ⟨rfl, rfl, rfl⟩
  | leaveWait _ _ _ _ _ _ found alive =>
    refine .of_modifyThread rfl rfl rfl (.modify rfl) (of_found found ?_) rfl
    exact ⟨rfl, rfl, rfl, by simp [Kernel.leaveWait], by simp [Kernel.leaveWait],
      fun dead => absurd dead alive⟩
  | announce =>
    rw [requestReschedule_eq]
    exact .of_registries rfl rfl rfl rfl rfl
  | reap | terminate =>
    exact .of_modifyThread rfl rfl rfl (.modify rfl)
      (fun _ _ => ⟨rfl, rfl, rfl, by simp [endThread], by simp [endThread], fun _ => rfl⟩) rfl
  | unregister =>
    refine ⟨rfl, rfl, rfl, ?_, fun _ process found => ⟨process, found, rfl, rfl, rfl⟩⟩
    intro id thread found
    exact ⟨thread, of_remove found, rfl, rfl, rfl, fun h => h, fun h => h, fun h => h⟩
  | closeProcess => exact .of_modifyProcess fun _ => ⟨rfl, rfl, rfl⟩
  | removeProcess =>
    refine .of_processes rfl rfl rfl rfl ?_
    intro _ _ found
    obtain ⟨old, _, oldFound, rfl, -⟩ := process_orphanLaunchedProcesses (of_remove found)
    exact ⟨old, oldFound, rfl, rfl, rfl⟩
  | _ => exact .of_registries rfl rfl rfl rfl rfl

theorem CoreRun.frame (run : CoreRun before after) : CoreFrame before.2 after.2 := by
  induction run with
  | refl => exact .refl _
  | tail _ move ih => exact ih.trans move.frame

theorem CoreMove.written {thread : Thread} (move : CoreMove before after)
    (found : after.2.thread id = some thread) : Written before.2 id thread := by
  cases move with
  | storeWake | detach => exact .of_modifyThread (.modify rfl) (fun _ _ => .detach _) found
  | leaveWait _ _ _ _ _ _ oldFound alive _ guarded =>
    refine .of_modifyThread (.modify rfl) (of_found oldFound ?_) found
    exact .leaveWait _ _ alive (guarded.imp_right And.left)
  | link => exact .of_modifyThread (.modify rfl) (fun _ _ => .link _) found
  | announce =>
    rw [requestReschedule_eq] at found
    exact ⟨thread, found, .refl⟩
  | unlink => exact .of_modifyThread (.modify rfl) (fun _ _ => .unlink _) found
  | reap _ _ _ _ _ _ _ notCurrent =>
    exact .of_modifyThread (.modify rfl) (fun _ _ => .terminate _ notCurrent) found
  | terminate _ _ _ _ _ _ _ _ _ _ notCurrent =>
    exact .of_modifyThread (.modify rfl) (fun _ _ => .terminate _ notCurrent) found
  | unregister => exact ⟨thread, of_remove found, .refl⟩
  | _ => exact ⟨thread, found, .refl⟩

theorem CoreRun.written {thread : Thread} (run : CoreRun before after)
    (found : after.2.thread id = some thread) : Written before.2 id thread := by
  induction run generalizing thread with
  | refl => exact ⟨thread, found, .refl⟩
  | tail earlier move ih =>
    obtain ⟨_, middleFound, later⟩ := move.written found
    obtain ⟨old, oldFound, sooner⟩ := ih middleFound
    rw [(CoreRun.frame earlier).currentThread] at later
    exact ⟨old, oldFound, sooner.trans later⟩

/-- What every write of the core keeps of one thread holds along a run. -/
theorem CoreRun.thread_closed (run : CoreRun before after)
    (property : Thread → Prop) (closed : ∀ old written,
      ThreadWrite (before.2.currentThread = some id) old written →
      property old → property written)
    (holds : ∀ thread, before.2.thread id = some thread → property thread)
    (thread : Thread) (found : after.2.thread id = some thread) : property thread := by
  obtain ⟨old, oldFound, writes⟩ := run.written found
  have start := holds old oldFound
  clear found oldFound
  induction writes with
  | refl => exact start
  | tail _ last ih => exact closed _ _ last ih

theorem CoreRun.ipcQueues
    (run : CoreRun before after) : after.2.ipcQueues = before.2.ipcQueues := by
  induction run with
  | refl => rfl
  | tail _ move ih =>
    rw [← ih]
    cases move with
    | announce => rw [requestReschedule_eq]
    | _ => rfl

theorem CoreRun.active (run : CoreRun before after)
    (active : before.2.currentThread.isSome) : after.2.currentThread.isSome := by
  rw [run.frame.currentThread]
  exact active

/-! ## Subscriptions -/

/-- Owner and filter of a subscription never change. -/
def SubscribersKept (before after : Kernel) : Prop :=
  ∀ id subscriber, after.subscriber id = some subscriber →
    ∃ old, before.subscriber id = some old ∧
      subscriber.ownerProcessId = old.ownerProcessId ∧
      subscriber.request = old.request

theorem SubscribersKept.of_modify {before after : Kernel} (target : SubscriptionId)
    (update : EventSubscriber → EventSubscriber)
    (rewritten : after.subscribers = before.subscribers.modify target update)
    (kept : ∀ subscriber, before.subscriber target = some subscriber →
      (update subscriber).ownerProcessId = subscriber.ownerProcessId ∧
        (update subscriber).request = subscriber.request) :
    SubscribersKept before after := by
  intro _ subscriber found
  rw [Kernel.subscriber, rewritten, lookup_modify] at found
  rcases written_cases rfl found with ⟨rfl, old, oldFound, rfl⟩ | ⟨-, found⟩
  · exact ⟨old, oldFound, kept old oldFound⟩
  · exact ⟨subscriber, found, rfl, rfl⟩

/-- Storing a record keeps owner, filter and waiter of the subscription. -/
theorem identity_of_storeRecord {subscriber updated : EventSubscriber} {record : KernelEventRecord}
    {allocated stored : Bool}
    (result : subscriber.storeRecord record allocated = (stored, updated)) :
    updated.identity = subscriber.identity := by
  have kept := EventSubscriber.identity_storeRecord subscriber record allocated
  rwa [result] at kept

theorem CoreMove.subscribersKept
    (move : CoreMove before after) : SubscribersKept before.2 after.2 := by
  have unchanged (same : after.2.subscribers = before.2.subscribers) :
      SubscribersKept before.2 after.2 := by
    intro id subscriber found
    rw [Kernel.subscriber, same] at found
    exact ⟨subscriber, found, rfl, rfl⟩
  cases move with
  | store _ _ _ subscription _ _ _ updated found _ result =>
    refine .of_modify subscription (fun _ => updated) rfl (of_found found ?_)
    have same := identity_of_storeRecord result
    exact ⟨congrArg Prod.fst same, congrArg (fun identity => identity.2.1) same⟩
  | storeWake _ kernel _ subscription subscriber _ updated _ found _ result =>
    have rewritten := kernel.subscribers.modify_modify subscription (fun _ => updated)
      fun subscriber => { subscriber with waitingThread := none }
    refine .of_modify subscription _ rewritten (of_found found ?_)
    have same := identity_of_storeRecord result
    exact ⟨congrArg Prod.fst same, congrArg (fun identity => identity.2.1) same⟩
  | detach _ _ subscription =>
    exact .of_modify subscription (fun subscriber =>
      { subscriber with waitingThread := none }) rfl fun _ _ => ⟨rfl, rfl⟩
  | announce => exact unchanged (by rw [requestReschedule_eq])
  | unsubscribe =>
    intro _ subscriber found
    exact ⟨subscriber, of_remove found, rfl, rfl⟩
  | _ => exact unchanged rfl

theorem CoreRun.subscribersKept
    (run : CoreRun before after) : SubscribersKept before.2 after.2 := by
  induction run with
  | refl => exact fun _ subscriber found => ⟨subscriber, found, rfl, rfl⟩
  | tail _ move ih =>
    intro id subscriber found
    obtain ⟨middle, middleFound, owner, request⟩ := move.subscribersKept id subscriber found
    obtain ⟨old, oldFound, owner', request'⟩ := ih id middle middleFound
    exact ⟨old, oldFound, owner.trans owner', request.trans request'⟩

/-! ## Processes -/

/-- Processes are only removed or lose their launcher. -/
def LinksKept (before after : Kernel) : Prop :=
  ∀ id process, after.process id = some process →
    ∃ old, before.process id = some old ∧
      process.permanent = old.permanent ∧
      (process.parentProcessId = old.parentProcessId ∨ process.parentProcessId = 0)

/-- Besides, no process enters the exiting state. -/
structure ProcessesKept (before after : Kernel) : Prop where
  links : LinksKept before after
  exiting : ∀ id process, after.process id = some process →
    process.currentState = .exiting →
    ∃ old, before.process id = some old ∧ old.currentState = .exiting

variable {first second third : Kernel}

theorem LinksKept.trans (earlier : LinksKept first second)
    (later : LinksKept second third) : LinksKept first third := by
  intro id process found
  obtain ⟨middle, middleFound, permanent, parent⟩ := later id process found
  obtain ⟨old, oldFound, permanent', parent'⟩ := earlier id middle middleFound
  refine ⟨old, oldFound, permanent.trans permanent', ?_⟩
  rcases parent with same | orphaned
  · rw [same]
    exact parent'
  · exact .inr orphaned

variable {update : Process → Process}

namespace ProcessesKept

/-- It is enough to name what each process was. -/
theorem of_origin {before after : Kernel} (origin : ∀ id process, after.process id = some process →
      ∃ old, before.process id = some old ∧ process.permanent = old.permanent ∧
        (process.parentProcessId = old.parentProcessId ∨ process.parentProcessId = 0) ∧
        (process.currentState = .exiting → old.currentState = .exiting)) :
    ProcessesKept before after := by
  constructor
  · intro id process found
    obtain ⟨old, oldFound, permanent, parent, -⟩ := origin id process found
    exact ⟨old, oldFound, permanent, parent⟩
  · intro id process found exiting
    obtain ⟨old, oldFound, -, -, same⟩ := origin id process found
    exact ⟨old, oldFound, same exiting⟩

theorem of_processes {before after : Kernel} (same : after.processes = before.processes) :
    ProcessesKept before after := by
  refine .of_origin fun id process found => ?_
  rw [Kernel.process, same] at found
  exact ⟨process, found, rfl, .inl rfl, fun exiting => exiting⟩

theorem refl (kernel : Kernel) : ProcessesKept kernel kernel :=
  .of_processes rfl

theorem trans (earlier : ProcessesKept first second)
    (later : ProcessesKept second third) : ProcessesKept first third where
  links := earlier.links.trans later.links
  exiting := by
    intro id process found exiting
    obtain ⟨middle, middleFound, stillExiting⟩ := later.exiting id process found exiting
    exact earlier.exiting id middle middleFound stillExiting

theorem of_modify (kernel : Kernel) (target : ProcessId)
    (kept : ∀ process, (update process).permanent = process.permanent ∧
      (update process).parentProcessId = process.parentProcessId ∧
      ((update process).currentState = .exiting → process.currentState = .exiting)) :
    ProcessesKept kernel (kernel.modifyProcess target update) := by
  refine .of_origin fun id process found => ?_
  rcases written_cases (process_modifyProcess ..) found with
    ⟨-, old, oldFound, rfl⟩ | ⟨-, found⟩
  · obtain ⟨permanent, parent, exiting⟩ := kept old
    exact ⟨old, oldFound, permanent, .inl parent, exiting⟩
  · exact ⟨process, found, rfl, .inl rfl, fun exiting => exiting⟩

end ProcessesKept

theorem CoreMove.processesKept (move : CoreMove before after) : ProcessesKept before.2 after.2 := by
  cases move with
  | revive _ kernel id =>
    refine .of_modify kernel id fun process => ?_
    unfold reviveProcess
    split
    · exact ⟨rfl, rfl, fun exiting => exiting⟩
    · exact ⟨rfl, rfl, nofun⟩
  | closeProcess _ kernel id => exact .of_modify kernel id fun _ => ⟨rfl, rfl, nofun⟩
  | removeProcess =>
    refine .of_origin fun _ _ found => ?_
    obtain ⟨old, _, oldFound, rfl, parent⟩ := process_orphanLaunchedProcesses (of_remove found)
    exact ⟨old, oldFound, rfl, parent, fun exiting => exiting⟩
  | announce =>
    rw [requestReschedule_eq]
    exact .of_processes rfl
  | _ => exact .of_processes rfl

theorem CoreRun.processesKept (run : CoreRun before after) : ProcessesKept before.2 after.2 := by
  induction run with
  | refl => exact .refl _
  | tail _ move ih => exact ih.trans move.processesKept

/-! ## Terminated processes -/

/-- A process is terminated or gone. -/
def Closed (kernel : Kernel) (id : ProcessId) : Prop :=
  ∀ process, kernel.process id = some process → process.currentState = .terminated

variable {id : ProcessId}

theorem Closed.of_modifyProcess {kernel : Kernel} {target : ProcessId}
    (closed : kernel.Closed id) (kept : ∀ process, process.currentState = .terminated →
      (update process).currentState = .terminated) :
    (kernel.modifyProcess target update).Closed id := by
  intro process found
  rcases written_cases (process_modifyProcess ..) found with
    ⟨-, old, oldFound, rfl⟩ | ⟨-, found⟩
  · exact kept old (closed old oldFound)
  · exact closed process found

/-- No move brings a terminated process back. -/
theorem CoreMove.closed (move : CoreMove before after)
    (closed : before.2.Closed id) : after.2.Closed id := by
  cases move with
  | revive =>
    refine closed.of_modifyProcess fun process terminated => ?_
    simp [reviveProcess, terminated, ProcessState.isExiting]
  | closeProcess => exact closed.of_modifyProcess fun _ _ => rfl
  | removeProcess =>
    intro _ found
    obtain ⟨old, _, oldFound, rfl, -⟩ := process_orphanLaunchedProcesses (of_remove found)
    exact closed old oldFound
  | announce =>
    rw [requestReschedule_eq]
    exact closed
  | _ => exact closed

theorem CoreRun.closed (run : CoreRun before after)
    (closed : before.2.Closed id) : after.2.Closed id := by
  induction run with
  | refl => exact closed
  | tail _ move ih => exact move.closed ih

end Kernel

end RosKernel
