import RosKernel.Kernel.Events
import RosKernel.Library.Registry

/-!
# Kernel state

Threads, processes, event subscribers and message queues together with the
global variables of the scheduler, the process manager and the event broker. A
pointer to a kernel object is the identifier the object was registered under: a
pointer is dangling exactly when its identifier no longer resolves.
-/

namespace RosKernel

open Registry

theorem bind_eq_some {α β : Type} {first : Option α} {next : α → Option β} {result : β} :
    first >>= next = some result ↔ ∃ value, first = some value ∧ next value = some result :=
  Option.bind_eq_some_iff

/-- An entry read back after a write to one entry. -/
theorem written_cases {α : Type} {target : Prop} [Decidable target] {before after : Option α}
    {update : α → α} {written : α} (same : after = if target then before.map update else before)
    (found : after = some written) :
    (target ∧ ∃ old, before = some old ∧ update old = written) ∨
      ¬ target ∧ before = some written := by
  rw [same] at found
  split at found
  · exact .inl ⟨by assumption, Option.map_eq_some_iff.mp found⟩
  · exact .inr ⟨by assumption, found⟩

/-- What holds of the entry that was read holds of every entry read there. -/
theorem of_found {α : Type} {entry : Option α} {value : α} {holds : α → Prop}
    (found : entry = some value) (held : holds value) (other : α) (same : entry = some other) :
    holds other := by
  cases found.symm.trans same
  exact held

inductive WaitReason
  | none
  | delay
  | event
  | mutex
  | semaphore
  | message
  | io
  deriving DecidableEq

/-- Arguments of `service_ipc_recv` that outlive a park: the flag word and
whether the packet can be copied to the caller's buffer. -/
structure IpcReceive where
  flags : ℕ
  bufferWritable : Bool
  deriving DecidableEq

/-- What a thread executes when its context is switched in: the kernel call chain
saved on its stack, or the frame from which it re-enters user mode. -/
inductive Continuation
  /-- The thread runs its own code; nothing is saved. -/
  | executing
  /-- Created and never switched in: entry trampoline or first `eret`. -/
  | fresh
  /-- Saved lower-EL exception frame; the kernel chain was abandoned. -/
  | exceptionFrame
  /-- Inside `switch_to_thread` below `dispatch`. -/
  | dispatched
  | blockCurrent
  | blockCurrentFor (reason : WaitReason)
  | sleepCurrent
  /-- Inside `Scheduler::block_current` below `KernelEventBroker::wait`. -/
  | eventWait (subscription : SubscriptionId)
  /-- Inside the blocking call of `service_ipc_recv`. -/
  | ipcReceive (request : IpcReceive)
  /-- Inside `exit_current_thread`; never switched in again. -/
  | exited
  deriving DecidableEq

/-- Which path last took a thread out of the waiting state. -/
inductive WakeCause
  /-- `wake_expired_sleepers`. -/
  | timer
  | enqueue
  deriving DecidableEq

/-- `Thread`. The last two fields are not in the source: the saved context as a
continuation, and a history variable for the last wake. -/
structure Thread where
  name : Text
  currentState : ThreadState
  basePriority : ℕ
  currentPriority : ℕ
  quantumTicks : ℕ
  quantumTicksRemaining : ℕ
  inReadyQueue : Bool
  parent : Option ProcessId
  waitStatus : WaitReason
  wakeTick : ℕ
  kernelObject : Bool
  continuation : Continuation
  wokenBy : Option WakeCause
  deriving DecidableEq

/-- `Process`. Its thread list is the registered threads whose parent it is, in
registration order, which is the order `attach_thread` links them in. -/
structure Process where
  name : Text
  parentProcessId : ProcessId
  exitCode : ℕ
  currentState : ProcessState
  kernelObject : Bool
  permanent : Bool
  pageTableRoot : ℕ
  deriving DecidableEq

structure ProcessExitRecord where
  processId : ProcessId
  parentProcessId : ProcessId
  exitCode : ℕ
  deriving DecidableEq

/-- The test of `remember_exit_status` and `consume_exit_status`. -/
def ProcessExitRecord.isFor (id parentId : ProcessId) (record : ProcessExitRecord) : Bool :=
  record.processId = id ∧ record.parentProcessId = parentId

structure UserIpcMessage where
  senderPid : ℕ
  receiverPid : ℕ
  protocol : ℕ
  kind : ℕ
  arguments : List ℕ
  deriving DecidableEq

/-- `IpcProcessQueue`: the buffered packets, oldest first, and the ring size. -/
structure IpcProcessQueue where
  pid : ProcessId
  messages : List UserIpcMessage
  capacity : ℕ
  deriving DecidableEq

def threadPriorityLevelCount : ℕ := 32
def threadPriorityNormal : ℕ := 16
def threadPriorityIdle : ℕ := 31
def threadDefaultQuantumTicks : ℕ := 1
def threadNameCapacity : ℕ := 32
def processNameCapacity : ℕ := 32

/-- The registries and global variables. -/
structure Kernel where
  threads : Registry Thread
  processes : Registry Process
  subscribers : Registry EventSubscriber
  currentThread : Option ThreadId
  idleThread : Option ThreadId
  /-- `g_ready_queues`, head first. -/
  readyQueues : ℕ → List ThreadId
  readyBitmap : BitVec 32
  readyCount : ℕ
  tickCount : ℕ
  /-- `g_sleep_head` onwards. -/
  sleepQueue : List ThreadId
  /-- `g_retired_thread_head` onwards. -/
  retiredThreads : List ThreadId
  reschedulePending : Bool
  nextSequence : ℕ
  exitRecords : List ProcessExitRecord
  /-- `g_ipc_queue_head` onwards. -/
  ipcQueues : List IpcProcessQueue
  /-- Outcomes of the coming heap allocations; an allocation past the end of the
  list succeeds. -/
  heapOutcomes : List Bool

namespace Kernel

/-- The registered thread a pointer refers to. -/
def thread (kernel : Kernel) (id : ThreadId) : Option Thread :=
  kernel.threads.lookup id

/-- `ProcessManager::find_process`. -/
def process (kernel : Kernel) (id : ProcessId) : Option Process :=
  kernel.processes.lookup id

/-- The linked subscriber with an identifier. -/
def subscriber (kernel : Kernel) (id : SubscriptionId) : Option EventSubscriber :=
  kernel.subscribers.lookup id

/-- Write through a thread pointer; a dangling pointer reaches no thread. -/
def modifyThread (kernel : Kernel) (id : ThreadId) (update : Thread → Thread) : Kernel :=
  { kernel with threads := kernel.threads.modify id update }

/-- Write through a process pointer. -/
def modifyProcess (kernel : Kernel) (id : ProcessId) (update : Process → Process) : Kernel :=
  { kernel with processes := kernel.processes.modify id update }

/-- Write through a subscriber pointer. -/
def modifySubscriber (kernel : Kernel) (id : SubscriptionId)
    (update : EventSubscriber → EventSubscriber) : Kernel :=
  { kernel with subscribers := kernel.subscribers.modify id update }

/-- `process->thread_list_head` onwards. -/
def processThreads (kernel : Kernel) (id : ProcessId) : List ThreadId :=
  (kernel.threads.entries.filter fun entry => entry.2.parent = some id).map Prod.fst

def currentProcess (kernel : Kernel) : Option ProcessId :=
  kernel.currentThread.bind fun id => (kernel.thread id).bind Thread.parent

/-- One heap allocation. -/
def heapAlloc (kernel : Kernel) : Bool × Kernel :=
  (kernel.heapOutcomes.headD true, { kernel with heapOutcomes := kernel.heapOutcomes.tail })

/-- Priority of the current thread, if there is one. -/
def currentPriority (kernel : Kernel) : Option ℕ :=
  kernel.currentThread.bind fun id => (kernel.thread id).map Thread.currentPriority

/-- One thread is rewritten. -/
def Rewrites (before after : Kernel) (target : ThreadId) (update : Thread → Thread) : Prop :=
  ∀ id, after.thread id = if id = target then (before.thread id).map update else before.thread id

variable {update : Thread → Thread}

theorem Rewrites.modify {before kernel : Kernel} {target : ThreadId}
    (same : kernel.threads = before.threads) :
    Rewrites before (kernel.modifyThread target update) target update := by
  intro _
  rw [Kernel.thread, Kernel.thread, ← same]
  exact lookup_modify _ _ _ _

section

variable (kernel : Kernel)
include kernel

@[simp] theorem thread_modifyThread (id other : ThreadId) (update : Thread → Thread) :
    (kernel.modifyThread id update).thread other =
      if other = id then (kernel.thread other).map update
      else kernel.thread other :=
  lookup_modify _ _ _ _

theorem currentProcess_modifyThread (id : ThreadId)
    (kept : ∀ thread, (update thread).parent = thread.parent) :
    (kernel.modifyThread id update).currentProcess = kernel.currentProcess := by
  change kernel.currentThread.bind _ = kernel.currentThread.bind _
  congr 1
  funext other
  rw [thread_modifyThread]
  split
  · cases kernel.thread other with
    | none => rfl
    | some thread => exact kept thread
  · rfl

@[simp] theorem process_modifyThread
    (id : ThreadId) (update : Thread → Thread) (other : ProcessId) :
    (kernel.modifyThread id update).process other = kernel.process other := rfl

@[simp] theorem process_modifyProcess (id other : ProcessId) (update : Process → Process) :
    (kernel.modifyProcess id update).process other =
      if other = id then (kernel.process other).map update
      else kernel.process other :=
  lookup_modify _ _ _ _

@[simp] theorem subscriber_modifySubscriber (id other : SubscriptionId)
    (update : EventSubscriber → EventSubscriber) :
    (kernel.modifySubscriber id update).subscriber other =
      if other = id then (kernel.subscriber other).map update
      else kernel.subscriber other :=
  lookup_modify _ _ _ _

theorem modifyThread_modifyThread (id : ThreadId) (first second : Thread → Thread) :
    (kernel.modifyThread id first).modifyThread id second =
      kernel.modifyThread id (second ∘ first) := by
  simp [modifyThread, modify_modify]

end

/-- The thread that was rewritten, read back. -/
theorem thread_of_modified {kernel : Kernel} {id : ThreadId} {written : Thread}
    (found : (kernel.modifyThread id update).thread id = some written) :
    ∃ old, kernel.thread id = some old ∧ update old = written := by
  rw [thread_modifyThread, if_pos rfl] at found
  exact Option.map_eq_some_iff.mp found

end Kernel

/-- The two states a process can only leave by being destroyed. -/
def ProcessState.isExiting : ProcessState → Bool
  | .exiting => true
  | .terminated => true
  | _ => false

end RosKernel
