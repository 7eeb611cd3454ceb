import RosKernel.Kernel.Operations
import RosKernel.Library.Runs

/-!
# Runs of the kernel

The current thread performs one operation after another. A thread that was just switched
in first finishes the call it was switched out of. Heap allocations succeed or fail
arbitrarily. Two things are assumed of a run: no interrupt is taken inside an operation,
although publications and creations of kernel threads leave interrupts enabled, and no
thread exits while it stands in a ready queue (`queueRetiredThread`).
-/

namespace RosKernel

open Registry

/-- The operations of the scheduler, the process and thread managers, the event
broker and the message service. -/
inductive Op
  | createProcess (name : Text) (userProcess : Bool) (pageTableRoot : ℕ)
  | createThread (parent : ProcessId) (name : Text) (start : ℕ)
      (basePriority quantumTicks : ℕ) (userThread : Bool)
  | setLauncher (child launcher : ProcessId)
  | enqueue (id : ThreadId)
  | setCurrentPriority (priority : ℕ)
  | setThreadPriority (id : ThreadId) (priority : ℕ)
  | blockCurrent (reason : WaitReason)
  | blockCurrentFor (reason : WaitReason) (delayTicks : ℕ)
  | sleepCurrent (delayTicks : ℕ)
  | yield
  | poll (elapsedTicks : ℕ)
  | timerTick
  | lowerElTimerIrq
  | currentElTimerIrq
  | reapRetired
  | exitThread
  | serviceExit (exitCode : ℕ)
  | serviceKill (target : ProcessId)
  /-- The subtree half of the fatal fault handler: the faulting process is the root
  and exempt; `serviceExit` is the other half. -/
  | terminateLaunched (exitCode : ℕ)
  | reapExiting
  | consumeExitStatus (id parent : ProcessId)
  | subscribe (owner : ProcessId) (request : SubscriptionRequest)
  | unsubscribe (owner : ProcessId) (subscription : SubscriptionId)
  | readEvents (owner : ProcessId) (subscription : SubscriptionId) (capacity : ℕ)
  | eventWait (owner : ProcessId) (subscription : SubscriptionId)
  | publishVfs (type : KernelEventType) (path : Text) (nodeType : ℕ) (status : Status)
  | publishRegistration (type : KernelEventType) (name : Text) (status : Status)
  | ipcSend (receiver : ProcessId) (message : UserIpcMessage)
  | ipcNotify (receiver : ProcessId) (message : UserIpcMessage)
  | ipcReceive (request : IpcReceive)
  /-- The switched-in thread finishes the call it was switched out of. -/
  | resume

namespace Kernel

/-- A call that always returns, as a transfer. -/
def returning (result : Option (Status × Kernel)) : Option (Transfer × Kernel) :=
  result.map fun outcome => (.returned outcome.1, outcome.2)

/-- A call without a status, as a transfer. -/
def completing (result : Option Kernel) : Option (Transfer × Kernel) :=
  result.map fun kernel => (.returned .ok, kernel)

/-- Run one operation. -/
def exec (env : Env) (kernel : Kernel) : Op → Option (Transfer × Kernel)
  | .createProcess name userProcess pageTableRoot =>
    returning (kernel.createProcess env name userProcess pageTableRoot)
  | .createThread parent name start basePriority quantumTicks userThread =>
    returning (kernel.createThread env parent name start basePriority quantumTicks userThread)
  | .setLauncher child launcher =>
    some (.returned .ok, kernel.setLauncher child launcher)
  | .enqueue id => returning (kernel.enqueue env id)
  | .setCurrentPriority priority => kernel.setCurrentPriority env priority
  | .setThreadPriority id priority => kernel.setThreadPriority env id priority
  | .blockCurrent reason => kernel.blockCurrent env reason .blockCurrent
  | .blockCurrentFor reason delayTicks =>
    kernel.blockCurrentFor env reason delayTicks (.blockCurrentFor reason) .blockCurrent
  | .sleepCurrent delayTicks => kernel.sleepCurrent env delayTicks
  | .yield => kernel.yield env
  | .poll elapsedTicks => kernel.poll env elapsedTicks
  | .timerTick => completing (kernel.timerTick env)
  | .lowerElTimerIrq => kernel.handleLowerElTimerIrq env
  | .currentElTimerIrq => kernel.handleCurrentElTimerIrq env
  | .reapRetired => completing (kernel.reapRetiredThreads env env.rounds)
  | .exitThread => kernel.exitCurrentThread env
  | .serviceExit exitCode => kernel.serviceExit env exitCode
  | .serviceKill target => returning (kernel.serviceKill env target)
  | .terminateLaunched exitCode =>
    match kernel.currentProcess with
    | none => none
    | some id => returning (kernel.terminateProcessTree env id exitCode id)
  | .reapExiting => completing (kernel.reapExiting env)
  | .consumeExitStatus id parent =>
    let (status, _, kernel) := kernel.consumeExitStatus id parent
    some (.returned status, kernel)
  | .subscribe owner request =>
    let (status, kernel) := kernel.subscribe owner request
    some (.returned status, kernel)
  | .unsubscribe owner subscription =>
    returning (kernel.unsubscribe env owner subscription)
  | .readEvents owner subscription capacity =>
    let (status, _, kernel) := kernel.readEvents owner subscription capacity
    some (.returned status, kernel)
  | .eventWait owner subscription => kernel.eventWait env owner subscription
  | .publishVfs type path nodeType status =>
    completing (env.publish (kernel.vfsRecord type path nodeType status) kernel)
  | .publishRegistration type name status =>
    completing (env.publish (kernel.registrationRecord type name status) kernel)
  | .ipcSend receiver message => returning (kernel.serviceIpcSend env receiver message)
  | .ipcNotify receiver message => returning (kernel.ipcEnqueue env receiver message)
  | .ipcReceive request => kernel.ipcReceiveLoop env request env.rounds
  | .resume => kernel.resume env

/-- Whether the current thread runs its own code, so that it can start a call. -/
def executing (kernel : Kernel) : Bool :=
  (kernel.currentThread.bind kernel.thread).any fun thread =>
    thread.continuation = .executing

/-- Whether an operation can start: a switched-in thread first resumes. -/
def startable (kernel : Kernel) : Op → Bool
  | .resume => true
  | _ => kernel.executing

/-- One operation of the current thread, with its outcome. -/
def Step (kernel : Kernel) (op : Op) (transfer : Transfer) (after : Kernel) : Prop :=
  kernel.startable op = true ∧
    ∃ depth outcomes,
      ({ kernel with heapOutcomes := outcomes } : Kernel).exec (env depth) op =
        some (transfer, after)

/-- The permanent process `Scheduler::bootstrap` creates. -/
def bootProcess (name : Text) (pageTableRoot : ℕ) : Process where
  name := copyTextOr processNameCapacity name "process".toList
  parentProcessId := 0
  exitCode := 0
  currentState := .running
  kernelObject := true
  permanent := true
  pageTableRoot := pageTableRoot

/-- The thread `Scheduler::bootstrap` turns its caller into. -/
def bootThread (name : Text) : Thread :=
  { newThread 1 (copyTextOr threadNameCapacity name "boot".toList)
      threadPriorityNormal threadDefaultQuantumTicks false with
    currentState := .running
    continuation := .executing }

/-- The idle thread `Scheduler::bootstrap` creates. -/
def bootIdleThread : Thread :=
  newThread 1 "idle".toList threadPriorityIdle threadDefaultQuantumTicks false

/-- The state `Scheduler::bootstrap` leaves: a permanent kernel process with the
boot thread, which is current, and the idle thread. -/
def booted (processName threadName : Text) (pageTableRoot : ℕ) : Kernel where
  threads := ((Registry.empty 1).insert (bootThread threadName)).insert bootIdleThread
  processes := (Registry.empty 1).insert (bootProcess processName pageTableRoot)
  subscribers := Registry.empty 1
  currentThread := some 1
  idleThread := some 2
  readyQueues := fun _ => []
  readyBitmap := 0
  readyCount := 0
  tickCount := 0
  sleepQueue := []
  retiredThreads := []
  reschedulePending := false
  nextSequence := 3
  exitRecords := []
  ipcQueues := []
  heapOutcomes := []

theorem thread_booted (processName threadName : Text) (pageTableRoot : ℕ) (id : ThreadId) :
    (booted processName threadName pageTableRoot).thread id =
      if id = 2 then some bootIdleThread
      else if id = 1 then some (bootThread threadName) else none := by
  simp only [thread, booted, lookup_insert, nextId_insert, nextId_empty, lookup_empty]
  rfl

theorem process_booted (processName threadName : Text) (pageTableRoot : ℕ) (id : ProcessId) :
    (booted processName threadName pageTableRoot).process id =
      if id = 1 then some (bootProcess processName pageTableRoot) else none := by
  simp only [process, booted, lookup_insert, nextId_empty, lookup_empty]
  rfl

/-- A state `Scheduler::bootstrap` leaves. -/
inductive Booted : Kernel → Prop
  | intro (processName threadName pageTableRoot) (table : pageTableRoot ≠ 0) :
      Booted (booted processName threadName pageTableRoot)

/-- The states a run reaches whose every step met a condition on the state before
it and the operation. -/
inductive Reachable (condition : Kernel → Op → Prop) : Kernel → Prop
  | boot (processName threadName pageTableRoot) (table : pageTableRoot ≠ 0) :
      Reachable condition (booted processName threadName pageTableRoot)
  | step {kernel op transfer after} (earlier : Reachable condition kernel)
      (meets : condition kernel op) (step : kernel.Step op transfer after) :
      Reachable condition after

variable {kernel : Kernel}

theorem Reachable.mono
    {strong weak : Kernel → Op → Prop} (weaker : ∀ kernel op, strong kernel op → weak kernel op)
    (reachable : Reachable strong kernel) : Reachable weak kernel := by
  induction reachable with
  | boot _ _ _ table => exact .boot _ _ _ table
  | step _ meets step ih => exact .step ih (weaker _ _ meets) step

/-- A later state of a run whose every step met the condition. -/
abbrev Continues (condition : Kernel → Op → Prop) : Kernel → Kernel → Prop :=
  Relation.ReflTransGen fun kernel after =>
    ∃ op transfer, condition kernel op ∧ kernel.Step op transfer after

theorem Reachable.continues {condition : Kernel → Op → Prop} {after : Kernel}
    (reachable : Reachable condition kernel)
    (later : Continues condition kernel after) : Reachable condition after := by
  induction later with
  | refl => exact reachable
  | tail _ last ih =>
    obtain ⟨_, _, meets, step⟩ := last
    exact .step ih meets step

/-- Perform operations one after another as long as they meet the condition. -/
def run (condition : Kernel → Op → Bool) (depth : ℕ) :
    List Op → Kernel → Option Kernel
  | [], kernel => some kernel
  | op :: rest, kernel =>
    if condition kernel op ∧ kernel.startable op then do
      let (_, kernel) ← kernel.exec (env depth) op
      run condition depth rest kernel
    else none

variable {condition : Kernel → Op → Bool}

theorem continues_of_run {depth : ℕ} {ops : List Op} {after : Kernel}
    (call : kernel.run condition depth ops = some after) :
    Continues (fun kernel op => condition kernel op = true) kernel after := by
  induction ops generalizing kernel with
  | nil =>
    cases call
    exact .refl
  | cons op _ ih =>
    unfold Kernel.run at call
    split at call
    · rename_i allowed
      simp only [bind_eq_some] at call
      obtain ⟨⟨transfer, _⟩, execution, call⟩ := call
      refine .head ⟨op, transfer, allowed.1, allowed.2, depth, kernel.heapOutcomes, ?_⟩ (ih call)
      exact execution
    · cases call

/-- The state after operations that the boot thread starts. -/
theorem Reachable.of_run {weak : Kernel → Op → Prop}
    (weaker : ∀ kernel op, condition kernel op = true → weak kernel op) {depth : ℕ}
    {ops : List Op} (call : (booted [] [] 4096).run condition depth ops = some kernel) :
    Reachable weak kernel :=
  ((Reachable.boot [] [] 4096 (by decide)).continues (continues_of_run call)).mono weaker

/-- The state after calls that pass a check, from the boot state on. -/
theorem reachable_of_calls {Call : Type} {perform : Kernel → Call → Option Kernel}
    {weak : Kernel → Call → Prop} {check : Kernel → Call → Bool} {calls : List Call}
    (weaker : ∀ kernel call, check kernel call = true → weak kernel call)
    (ran : Runs.performAll (Runs.checked check perform) (booted [] [] 4096) calls = some kernel) :
    Runs.Reachable Booted perform weak kernel := by
  have started : Booted (booted [] [] 4096) := .intro [] [] 4096 (by decide)
  exact ((Runs.Reachable.start started).performAll (fun _ _ _ => trivial) ran).of_checked weaker

end Kernel

end RosKernel
