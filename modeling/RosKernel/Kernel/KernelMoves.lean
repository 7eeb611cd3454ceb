import RosKernel.Kernel.CorePaths
import RosKernel.Kernel.Runs

/-!
# What an operation can do, and on whose behalf

The writes kernel operations make outside the re-entrant core, with the checks the source
makes before them. Moves that matter to one group of properties only need a permission, so
that a property can exclude them. A move acts on the kernel and on the stage of the running
operation: whether the caller still runs, is registered as the waiter of a subscription, is
about to be switched out, or is being replaced by a chosen thread. An operation starts and
ends in the stage `running`.
-/

namespace RosKernel

/-- How far an operation has come in giving up the processor. -/
inductive Stage
  | running
  /-- The current thread runs and is registered as the waiter of a subscription. -/
  | waiting (subscription : SubscriptionId)
  /-- Another thread is being chosen; the current one will be left with a
  continuation. -/
  | leaving (continuation : Continuation)
  /-- `dispatch` has made the current thread ready and is going to queue it. -/
  | requeuing (continuation : Continuation)
  /-- `pick_next_thread` has settled on a thread. -/
  | chosen (continuation : Continuation) (id : ThreadId)
  /-- `bind_current_thread` has marked the thread running. -/
  | binding (continuation : Continuation) (id : ThreadId)
  deriving DecidableEq

/-- The stage in which a switched-in thread goes on. -/
def Stage.ofContinuation : Continuation → Stage
  | .eventWait subscription => .waiting subscription
  | _ => .running

/-- The continuation the current thread is going to be left with. -/
def Stage.leftWith : Stage → Option Continuation
  | .leaving continuation => some continuation
  | .requeuing continuation => some continuation
  | .chosen continuation _ => some continuation
  | .binding continuation _ => some continuation
  | _ => none

/-- The thread that is about to become the current one. -/
def Stage.target : Stage → Option ThreadId
  | .binding _ id => some id
  | _ => none

namespace Kernel

/-- Which of the restricted moves an operation may make. -/
structure Permits where
  /-- Continuations under which the caller may be switched out. -/
  suspend : Continuation → Prop
  /-- Whether processes may be put in an exiting state. -/
  mark : Prop
  /-- Whether threads may be created. -/
  spawn : Prop
  /-- Whether another thread may be switched in. -/
  dispatch : Prop

/-- A thread is not linked in the queue of its priority by `ready_queue_push`. -/
def Unqueued (thread : Thread) : Prop :=
  thread.inReadyQueue = true → ¬ thread.currentPriority < threadPriorityLevelCount

/-- The thread does not wait, and it does not wait for a tick if it is terminated. -/
def Awake (thread : Thread) : Prop :=
  thread.currentState ≠ .waiting ∧ (thread.currentState = .terminated → thread.wakeTick = 0)

/-- The current thread runs its own code. -/
def Executing (kernel : Kernel) : Prop :=
  ∀ id thread, kernel.currentThread = some id → kernel.thread id = some thread →
    thread.continuation = .executing

/-- The step that moves `g_current_thread` and saves the previous context. -/
def switchIn (id : ThreadId) (continuation : Continuation) (kernel : Kernel) : Kernel :=
  (({ kernel with currentThread := some id } : Kernel).modifyThread id
    resetQuantum).contextSwitch kernel.currentThread continuation

/-- Which of the restricted moves an operation may make, on which objects. -/
structure Scope extends Permits where
  /-- The thread that makes the call and may give up the processor. -/
  caller : ThreadId → Prop
  /-- Whether the caller may wait or exit. -/
  park : Prop
  /-- Threads that `Scheduler::enqueue` is called for. -/
  request : ThreadId → Prop
  /-- Whether records from outside the core are published. -/
  publish : Prop
  /-- Priorities that `set_current_priority` and `set_thread_priority` assign. -/
  prioritise : ThreadId → ℕ → Prop
  subscribe : ProcessId → SubscriptionRequest → Prop
  unsubscribe : ProcessId → SubscriptionId → Prop
  /-- Subscriptions a wait starts on. -/
  wait : ProcessId → SubscriptionId → Prop
  destroy : ProcessId → Prop

/-- The current thread is the caller. -/
def Scope.Called (scope : Scope) (kernel : Kernel) : Prop :=
  ∀ id, kernel.currentThread = some id → scope.caller id

/-- The calls under which the core is entered. -/
inductive Entry (scope : Scope) (kernel : Kernel) : List Frame → Prop
  | plain : Entry scope kernel []
  | external (allowed : scope.publish) : Entry scope kernel [.external]
  | unsubscribing : Entry scope kernel [.unsubscribing]
  | request (id : ThreadId) (allowed : scope.request id) :
      Entry scope kernel [.requested id]
  /-- `wake_expired_sleepers`. -/
  | expired (id : ThreadId) (thread) (found : kernel.thread id = some thread)
      (waiting : thread.currentState = .waiting) (asleep : id ∈ kernel.sleepQueue) :
      Entry scope kernel [.requested id]
  /-- `ipc_wake_waiter`. -/
  | message (id : ThreadId) (thread) (found : kernel.thread id = some thread)
      (waiting : thread.currentState = .waiting)
      (reason : thread.waitStatus = .message) :
      Entry scope kernel [.requested id]

/-- No ready thread outranks the current one, or the idle thread runs. -/
def Unrivalled (kernel : Kernel) : Prop :=
  kernel.currentThread = kernel.idleThread ∨
    ∃ id thread, kernel.currentThread = some id ∧ kernel.thread id = some thread ∧
      kernel.outranked thread.currentPriority = false

/-- The current thread is no longer running, or it is the idle thread. -/
def Relinquished (kernel : Kernel) : Prop :=
  kernel.currentThread = kernel.idleThread ∨
    ∀ id thread, kernel.currentThread = some id → kernel.thread id = some thread →
      thread.currentState ≠ .running

/-- A thread fit to be switched in. -/
def Eligible (kernel : Kernel) (id : ThreadId) (thread : Thread) : Prop :=
  thread.currentState = .ready ∧ Unqueued thread ∨ kernel.idleThread = some id

/-- A continuation of a call other than an event wait or an exit. -/
def Plain (continuation : Continuation) : Prop :=
  (∀ subscription, continuation ≠ .eventWait subscription) ∧ continuation ≠ .exited

/-- The stages in which a blocking call parks the current thread, and what it leaves
behind. -/
inductive Parks : Stage → Continuation → WaitReason → Prop
  | plain (continuation reason) (other : Plain continuation) :
      Parks .running continuation reason
  | event (subscription : SubscriptionId) :
      Parks (.waiting subscription) (.eventWait subscription) .event

/-- One move of an operation. -/
inductive KernelMove (scope : Scope) : Stage × Kernel → Stage × Kernel → Prop
  | core (stage) {frames before after} (entry : Entry scope before frames)
      (calm : frames = [] ∨ stage = .running)
      (run : CoreRun (frames, before) (frames, after)) :
      KernelMove scope (stage, before) (stage, after)
  | tick (kernel count) :
      KernelMove scope (.running, kernel) (.running, { kernel with tickCount := count })
  | messages (kernel queues) :
      KernelMove scope (.running, kernel) (.running, { kernel with ipcQueues := queues })
  | createProcess (kernel) (process : Process)
      (created : process.currentState = .created)
      (table : process.pageTableRoot ≠ 0) :
      KernelMove scope (.running, kernel)
        (.running, { kernel with processes := kernel.processes.insert process })
  | createThread (kernel parent name basePriority quantumTicks userThread)
      (allowed : scope.spawn)
      (registered : kernel.process parent ≠ none)
      (valid : basePriority < threadPriorityLevelCount) :
      KernelMove scope (.running, kernel)
        (.running,
          { kernel with
            threads := kernel.threads.insert
              (newThread parent name basePriority quantumTicks userThread) })
  | setLauncher (kernel child launcher) :
      KernelMove scope (.running, kernel) (.running, kernel.setLauncher child launcher)
  | markExiting (kernel id exitCode) (allowed : scope.mark) :
      KernelMove scope (.running, kernel) (.running, kernel.markExiting id exitCode)
  | markTree (kernel) (marked : List ProcessId) (exitCode : ℕ)
      (allowed : scope.mark) :
      KernelMove scope (.running, kernel)
        (.running,
          { kernel with
            processes := kernel.processes.mapEntries fun id process =>
              if id ∈ marked then markForExit exitCode process else process })
  | markTerminated (kernel id) (allowed : scope.mark) (doomed : scope.destroy id)
      (other : kernel.currentProcess ≠ some id) :
      KernelMove scope (.running, kernel) (.running, kernel.modifyProcess id fun process =>
          { process with currentState := .terminated })
  | subscribe (kernel owner request) (allowed : scope.subscribe owner request) :
      KernelMove scope (.running, kernel)
        (.running,
          { kernel with
            subscribers := kernel.subscribers.insert (newSubscriber owner request) })
  /-- The end of `unsubscribe`, when the waiter has been woken. -/
  | unsubscribe (kernel) (owner : ProcessId) (id : SubscriptionId) (subscriber)
      (allowed : scope.unsubscribe owner id)
      (found : kernel.subscriber id = some subscriber)
      (owns : subscriber.ownerProcessId = owner) :
      KernelMove scope (.running, kernel)
        (.running, { kernel with subscribers := kernel.subscribers.remove id })
  | readEvents (kernel) (subscription : SubscriptionId) (subscriber) (count : ℕ)
      (found : kernel.subscriber subscription = some subscriber)
      (available : count ≤ subscriber.queuedCount) :
      KernelMove scope (.running, kernel) (.running, kernel.modifySubscriber subscription fun _ =>
          (EventSubscriber.readRecords count subscriber).2)
  | quantum (kernel id) (remaining : Thread → ℕ) :
      KernelMove scope (.running, kernel) (.running, kernel.modifyThread id fun thread =>
          { thread with quantumTicksRemaining := remaining thread })
  /-- A reschedule is requested. -/
  | pend (kernel) :
      KernelMove scope (.running, kernel) (.running, { kernel with reschedulePending := true })
  /-- A requested reschedule is found unnecessary. -/
  | decline (kernel) (unrivalled : kernel.Unrivalled) :
      KernelMove scope (.running, kernel) (.running, { kernel with reschedulePending := false })
  /-- A priority is assigned without a reschedule. -/
  | priority (kernel id thread priority)
      (allowed : scope.prioritise id priority)
      (found : kernel.thread id = some thread)
      (unqueued : Unqueued thread ∨ thread.currentState = .running)
      (valid : priority < threadPriorityLevelCount)
      (calm : kernel.currentThread ≠ some id ∨ kernel.outranked priority = false) :
      KernelMove scope (.running, kernel) (.running, kernel.modifyThread id fun thread =>
          resetQuantum { thread with basePriority := priority, currentPriority := priority })
  /-- `set_thread_priority` queues the thread again. -/
  | relink (kernel id thread) (pending : Bool)
      (notCurrent : kernel.currentThread ≠ some id)
      (found : kernel.thread id = some thread)
      (isReady : thread.currentState = .ready)
      (notIdle : kernel.idleThread ≠ some id)
      (valid : thread.currentPriority < threadPriorityLevelCount)
      (notQueued : thread.inReadyQueue = false)
      (kept : kernel.reschedulePending = true → pending = true)
      (announced : kernel.currentThread ≠ kernel.idleThread →
        (∃ current, kernel.currentPriority = some current ∧
          thread.currentPriority < current) → pending = true) :
      KernelMove scope (.running, kernel)
        (.running,
          { kernel.linkReady id thread.currentPriority true with
            reschedulePending := pending })
  /-- The current thread is going to be left. -/
  | leave (kernel continuation) (plain : Plain continuation)
      (called : scope.Called kernel) (executing : kernel.Executing) :
      KernelMove scope (.running, kernel) (.leaving continuation, kernel)
  | clearPending (kernel continuation) :
      KernelMove scope (.leaving continuation, kernel)
        (.leaving continuation, { kernel with reschedulePending := false })
  /-- `set_current_priority` before a reschedule. -/
  | lower (kernel continuation id thread priority)
      (allowed : scope.prioritise id priority)
      (current : kernel.currentThread = some id)
      (found : kernel.thread id = some thread)
      (running : thread.currentState = .running)
      (valid : priority < threadPriorityLevelCount) :
      KernelMove scope (.leaving continuation, kernel)
        (.leaving continuation, kernel.modifyThread id fun thread =>
          resetQuantum { thread with basePriority := priority, currentPriority := priority })
  /-- `dispatch` makes the current thread ready again. -/
  | requeue (kernel continuation id thread) (resetRequeuedQuantum : Bool)
      (current : kernel.currentThread = some id)
      (notIdle : kernel.idleThread ≠ some id)
      (found : kernel.thread id = some thread)
      (running : thread.currentState = .running) :
      KernelMove scope (.leaving continuation, kernel)
        (.requeuing continuation, kernel.modifyThread id fun thread =>
          let thread := { thread with currentState := .ready }
          if resetRequeuedQuantum then resetQuantum thread else thread)
  /-- `dispatch` queues the current thread. -/
  | push (kernel continuation id thread) (atTail : Bool)
      (current : kernel.currentThread = some id)
      (found : kernel.thread id = some thread)
      (isReady : thread.currentState = .ready)
      (notIdle : kernel.idleThread ≠ some id)
      (valid : thread.currentPriority < threadPriorityLevelCount)
      (notQueued : thread.inReadyQueue = false) :
      KernelMove scope (.requeuing continuation, kernel)
        (.leaving continuation, kernel.linkReady id thread.currentPriority atTail)
  /-- `dispatch` finds the current thread queued already, or without a queue. -/
  | refuse (kernel continuation id thread)
      (current : kernel.currentThread = some id)
      (found : kernel.thread id = some thread)
      (queued : thread.inReadyQueue = true ∨ ¬ thread.currentPriority < threadPriorityLevelCount) :
      KernelMove scope (.requeuing continuation, kernel) (.leaving continuation, kernel)
  /-- A blocking call marks the current thread as waiting. -/
  | park (kernel stage continuation id thread reason) (wakeTick : Thread → ℕ)
      (parks : Parks stage continuation reason)
      (current : kernel.currentThread = some id)
      (notIdle : kernel.idleThread ≠ some id)
      (found : kernel.thread id = some thread)
      (running : thread.currentState = .running)
      (executing : thread.continuation = .executing)
      (called : scope.caller id)
      (allowed : scope.park) :
      KernelMove scope (stage, kernel) (.leaving continuation, kernel.modifyThread id fun thread =>
          { thread with
            waitStatus := reason
            wakeTick := wakeTick thread
            currentState := .waiting })
  /-- The parked thread enters the sleep queue. -/
  | sleep (kernel continuation id thread) (plain : Plain continuation)
      (current : kernel.currentThread = some id)
      (notIdle : kernel.idleThread ≠ some id)
      (found : kernel.thread id = some thread)
      (waiting : thread.currentState = .waiting) :
      KernelMove scope (.leaving continuation, kernel)
        (.leaving continuation, kernel.sleepQueueInsertSorted id)
  /-- `exit_current_thread` retires the current thread. -/
  | retire (kernel id thread)
      (allowed : scope.suspend .exited)
      (current : kernel.currentThread = some id)
      (notIdle : kernel.idleThread ≠ some id)
      (found : kernel.thread id = some thread)
      (notQueued : thread.inReadyQueue = false)
      (executing : thread.continuation = .executing)
      (called : scope.caller id)
      (parks : scope.park) :
      KernelMove scope (.running, kernel)
        (.leaving .exited,
          { kernel with
              retiredThreads := kernel.retiredThreads ++ [id] }.modifyThread id
            fun thread => { thread with currentState := .terminated })
  /-- `ready_queue_pop_best` finds a set bit over an empty queue. -/
  | clearBit (kernel continuation priority) (empty : kernel.readyQueues priority = []) :
      KernelMove scope (.leaving continuation, kernel)
        (.leaving continuation,
          { kernel with
            readyBitmap := kernel.readyBitmap &&& ~~~BitVec.twoPow 32 priority })
  /-- `ready_queue_pop_best` takes the head of the best queue. -/
  | pop (kernel continuation level id rest thread)
      (best : kernel.highestReadyPriority = some level)
      (head : kernel.readyQueues level = id :: rest)
      (found : kernel.thread id = some thread)
      (isReady : thread.currentState = .ready)
      (notIdle : kernel.idleThread ≠ some id)
      (relinquished : kernel.Relinquished) :
      KernelMove scope (.leaving continuation, kernel)
        (.chosen continuation id, kernel.readyQueueRemove id)
  /-- `pick_next_thread` falls back to the idle thread or keeps the current one. -/
  | fallBack (kernel continuation id)
      (noReady : kernel.highestReadyPriority = none)
      (kept : kernel.idleThread = some id ∨
        kernel.currentThread = some id ∧
          ∃ thread, kernel.thread id = some thread ∧ threadIsRunnable thread = true) :
      KernelMove scope (.leaving continuation, kernel) (.chosen continuation id, kernel)
  /-- `switch_to_thread` keeps the current thread. -/
  | selfSwitch (kernel continuation id)
      (current : kernel.currentThread = some id)
      (fit : ∀ thread, kernel.thread id = some thread → kernel.Eligible id thread ∨
        kernel.highestReadyPriority = none ∧ threadIsRunnable thread = true) :
      KernelMove scope (.chosen continuation id, kernel)
        (.running, kernel.modifyThread id fun thread =>
          resetQuantum { thread with currentState := .running })
  /-- `bind_current_thread` up to its publication. -/
  | bind (kernel continuation id thread)
      (allowed : scope.dispatch)
      (found : kernel.thread id = some thread)
      (notCurrent : kernel.currentThread ≠ some id)
      (fit : kernel.Eligible id thread) :
      KernelMove scope (.chosen continuation id, kernel)
        (.binding continuation id, kernel.startRunning id thread)
  /-- The end of `bind_current_thread` and the context switch. -/
  | switchIn (kernel continuation id)
      (allowed : scope.suspend continuation)
      (notCurrent : kernel.currentThread ≠ some id)
      (awake : ∀ thread, kernel.thread id = some thread → Awake thread) :
      KernelMove scope (.binding continuation id, kernel)
        (.running, kernel.switchIn id continuation)
  /-- The switched-in thread goes on with its call. -/
  | resumed (kernel id thread)
      (current : kernel.currentThread = some id)
      (found : kernel.thread id = some thread)
      (suspended : thread.continuation ≠ .executing)
      (returns : thread.continuation ≠ .exited) :
      KernelMove scope (.running, kernel)
        (.ofContinuation thread.continuation, kernel.resumeExecution id)
  /-- The writes behind the switch of a blocking call. -/
  | finishWait (kernel stage id) (wakeTick : Thread → ℕ)
      (resumed : stage = .running ∨ ∃ subscription, stage = .waiting subscription)
      (current : kernel.currentThread = some id)
      (kept : ∀ thread, wakeTick thread = thread.wakeTick ∨ wakeTick thread = 0) :
      KernelMove scope (stage, kernel) (stage, kernel.modifyThread id fun thread =>
          { thread with waitStatus := .none, wakeTick := wakeTick thread })
  | setWaiter (kernel) (owner : ProcessId) (subscription : SubscriptionId) (subscriber)
      (id : ThreadId)
      (allowed : scope.wait owner subscription)
      (current : kernel.currentThread = some id)
      (found : kernel.subscriber subscription = some subscriber)
      (owns : subscriber.ownerProcessId = owner)
      (empty : subscriber.queuedCount = 0)
      (free : subscriber.waitingThread = none ∨ subscriber.waitingThread = some id)
      (called : scope.caller id) :
      KernelMove scope (.running, kernel)
        (.waiting subscription, kernel.modifySubscriber subscription fun subscriber =>
          { subscriber with waitingThread := some id })
  | clearWaiter (kernel) (subscription : SubscriptionId) (id : ThreadId)
      (current : kernel.currentThread = some id) :
      KernelMove scope (.waiting subscription, kernel)
        (.running, kernel.eventWaitTail subscription id)

/-- A finite sequence of moves. -/
abbrev KernelMoves (scope : Scope) : Stage × Kernel → Stage × Kernel → Prop :=
  Relation.ReflTransGen (KernelMove scope)

/-- Moves from one state between operations to another. -/
abbrev Scope.Moves (scope : Scope) (kernel after : Kernel) : Prop :=
  KernelMoves scope (.running, kernel) (.running, after)

/-- The permissions alone, without restrictions on objects. -/
def Permits.scope (permits : Permits) : Scope where
  toPermits := permits
  caller _ := True
  park := True
  request _ := True
  publish := True
  prioritise _ _ := True
  subscribe _ _ := True
  unsubscribe _ _ := True
  wait _ _ := True
  destroy _ := True

end Kernel

end RosKernel
