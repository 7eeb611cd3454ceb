import RosKernel.Kernel.Queues

/-!
# The re-entrant core

Publishing an event may wake a subscriber, waking runs `Scheduler::enqueue`, which
destroys retired threads, which publishes again and may destroy whole processes
and their subscriptions. Each function is written over an `Env` that supplies the
two calls closing this cycle; `env` ties the knot with a bound on the depth. No
result means that the bound was exhausted or a dangling pointer was followed.
-/

namespace RosKernel

/-- The calls through which the core re-enters itself, and a bound for loops. -/
structure Env where
  publish : KernelEventRecord → Kernel → Option Kernel
  destroyProcess : ProcessId → Kernel → Option (Status × Kernel)
  /-- Rounds any loop may take. -/
  rounds : ℕ

namespace Kernel

/-- `publish_thread_event`: the record describing one thread. -/
def threadRecord (type : KernelEventType) (id : ThreadId) (thread : Thread)
    (previous current : ThreadState) : KernelEventRecord where
  sequence := 0
  uptimeMsec := 0
  family := EventFamily.thread
  type := type
  status := .ok
  sourceProcessId := thread.parent.getD 0
  sourceThreadId := id
  sourceObjectId := id
  name := copyText eventNameCapacity thread.name
  path := []
  payload := .thread (thread.parent.getD 0) previous current thread.currentPriority

/-- `publish_process_event`: the record describing one process. -/
def processRecord (type : KernelEventType) (id : ProcessId) (process : Process) :
    KernelEventRecord where
  sequence := 0
  uptimeMsec := 0
  family := EventFamily.process
  type := type
  status := .ok
  sourceProcessId := id
  sourceThreadId := 0
  sourceObjectId := id
  name := copyText eventNameCapacity process.name
  path := []
  payload := .process process.parentProcessId process.exitCode process.currentState
    process.kernelObject process.permanent

/-- `publish_vfs_event`. -/
def vfsRecord (kernel : Kernel) (type : KernelEventType) (path : Text) (nodeType : ℕ)
    (status : Status) : KernelEventRecord where
  sequence := 0
  uptimeMsec := 0
  family := EventFamily.filesystem
  type := type
  status := status
  sourceProcessId := kernel.currentProcess.getD 0
  sourceThreadId := kernel.currentThread.getD 0
  sourceObjectId := 0
  name := []
  path := copyText eventPathCapacity path
  payload := .filesystem nodeType

/-- `publish_registration_event`. -/
def registrationRecord (kernel : Kernel) (type : KernelEventType) (name : Text) (status : Status) :
    KernelEventRecord where
  sequence := 0
  uptimeMsec := 0
  family := EventFamily.registration
  type := type
  status := status
  sourceProcessId := kernel.currentProcess.getD 0
  sourceThreadId := kernel.currentThread.getD 0
  sourceObjectId := 0
  name := copyText eventNameCapacity name
  path := []
  payload := .registration (registrationKindForType type)

def ticksToMilliseconds (ticks : ℕ) : ℕ :=
  (ticks * 100 % 2 ^ 64) / 1000

/-- The writes of `transition_thread_to_ready` before the thread is queued. -/
def leaveWait (cause : WakeCause) (thread : Thread) : Thread :=
  { thread with
    waitStatus := .none
    wakeTick := 0
    currentState := .ready
    quantumTicksRemaining :=
      if thread.quantumTicksRemaining = 0 then
        (resetQuantum thread).quantumTicksRemaining
      else thread.quantumTicksRemaining
    wokenBy :=
      if thread.currentState = .waiting then some cause else thread.wokenBy }

/-- Put a process in the running state unless it is on its way out. -/
def reviveProcess (process : Process) : Process :=
  if process.currentState.isExiting then process
  else { process with currentState := .running }

/-- Whether a thread outranks the current one. -/
def outranksCurrent (id : ThreadId) (kernel : Kernel) : Bool :=
  match (kernel.thread id).map Thread.currentPriority, kernel.currentPriority with
  | some priority, some current => decide (priority < current)
  | _, _ => false

/-- Request a reschedule when the readied thread outranks the current one. -/
def requestReschedule (id : ThreadId) (kernel : Kernel) : Kernel :=
  if kernel.currentThread = kernel.idleThread ∨ kernel.outranksCurrent id then
    { kernel with reschedulePending := true }
  else kernel

/-- The state `transition_thread_to_ready` queues the thread in. -/
def prepareReady (id : ThreadId) (cause : WakeCause) (thread : Thread) (kernel : Kernel) : Kernel :=
  let kernel := kernel.sleepQueueRemove id
  let kernel :=
    match thread.parent with
    | some parent => kernel.modifyProcess parent reviveProcess
    | none => kernel
  kernel.modifyThread id (leaveWait cause)

def transitionThreadToReady (env : Env) (id : ThreadId) (atTail : Bool) (cause : WakeCause)
    (kernel : Kernel) : Option (Status × Kernel) := do
  let thread ← kernel.thread id
  if thread.currentState = .terminated then some (.busy, kernel)
  else if thread.inReadyQueue then some (.alreadyExists, kernel)
  else
    let (status, kernel) := (kernel.prepareReady id cause thread).readyQueuePush id atTail
    if status ≠ .ok then some (status, kernel)
    else do
      let kernel ←
        (if thread.currentState ≠ .ready then
           env.publish (threadRecord .threadReady id thread thread.currentState .ready) kernel
         else some kernel)
      let _ ← kernel.thread id
      some (.ok, kernel.requestReschedule id)

/-- `MemoryManager::switch_to` for the process of a thread: whether it has a page
table to install. -/
def switchTo (thread : Thread) (kernel : Kernel) : Option Bool :=
  match thread.parent with
  | none => some true
  | some parent => (kernel.process parent).map fun owner =>
    decide (owner.pageTableRoot ≠ 0)

/-- The writes of `bind_current_thread` before its publication: the process is put
in the running state whatever its state was. -/
def startRunning (id : ThreadId) (thread : Thread) (kernel : Kernel) : Kernel :=
  let kernel :=
    match thread.parent with
    | none => kernel
    | some parent => kernel.modifyProcess parent fun process =>
      { process with currentState := .running }
  kernel.modifyThread id fun thread => { thread with currentState := .running }

/-- `bind_current_thread`. The publication happens before `g_current_thread` is
moved. -/
def bindCurrentThread (env : Env) (id : ThreadId) (kernel : Kernel) : Option (Status × Kernel) := do
  let thread ← kernel.thread id
  let switched ← kernel.switchTo thread
  if !switched then some (.invalidArgument, kernel)
  else do
    let kernel := kernel.startRunning id thread
    let kernel ←
      (if thread.currentState ≠ .running then
         env.publish (threadRecord .threadRunning id thread thread.currentState .running) kernel
       else some kernel)
    some (.ok, { kernel with currentThread := some id }.modifyThread id resetQuantum)

def destroyThread (env : Env) (id : ThreadId) (kernel : Kernel) : Option (Status × Kernel) :=
  match kernel.thread id with
  | none => some (.notFound, kernel)
  | some thread => do
      let kernel := (kernel.forget id).modifyThread id fun thread =>
        { thread with currentState := .terminated }
      let kernel ← env.publish
        (threadRecord .threadExited id thread thread.currentState .terminated) kernel
      -- `detach_thread` and `unlink_thread` follow the pointer once more.
      let thread ← kernel.thread id
      let kernel := { kernel with threads := kernel.threads.remove id }
      match thread.parent with
      | none => some (.ok, kernel)
      | some parent => do
          let process ← kernel.process parent
          if kernel.processThreads parent = [] ∧
              process.currentState ≠ .terminated ∧ !process.permanent then do
            let (_, kernel) ← env.destroyProcess parent kernel
            some (.ok, kernel)
          else some (.ok, kernel)

def reapRetiredThreads (env : Env) : ℕ → Kernel → Option Kernel
  | 0, _ => none
  | rounds + 1, kernel =>
    match kernel.retiredThreads with
    | [] => some kernel
    | retired :: rest =>
      if kernel.currentThread = some retired then some kernel
      else do
        let _ ← kernel.thread retired
        let (_, kernel) ← { kernel with retiredThreads := rest }.destroyThread env retired
        reapRetiredThreads env rounds kernel

def enqueue (env : Env) (id : ThreadId) (kernel : Kernel) : Option (Status × Kernel) := do
  let kernel ← kernel.reapRetiredThreads env env.rounds
  match kernel.thread id with
  | none => some (.notFound, kernel)
  | some thread =>
    if thread.currentState = .terminated then some (.busy, kernel)
    else if kernel.currentThread = some id then some (.alreadyExists, kernel)
    else if kernel.currentThread = none then kernel.bindCurrentThread env id
    else kernel.transitionThreadToReady env id true .enqueue

/-- The writes of `wake_waiter` before it calls the scheduler. -/
def detachWaiter (subscription : SubscriptionId) (waiter : ThreadId) (kernel : Kernel) : Kernel :=
  (kernel.modifySubscriber subscription fun subscriber =>
    { subscriber with waitingThread := none }).modifyThread waiter fun thread =>
      { thread with waitStatus := .none }

def wakeWaiter (env : Env) (subscription : SubscriptionId) (kernel : Kernel) :
    Option Kernel := do
  let subscriber ← kernel.subscriber subscription
  match subscriber.waitingThread with
  | none => some kernel
  | some waiter => do
      let (_, kernel) ← (kernel.detachWaiter subscription waiter).enqueue env waiter
      some kernel

def enqueueRecord (env : Env) (subscription : SubscriptionId) (record : KernelEventRecord)
    (kernel : Kernel) : Option Kernel := do
  let subscriber ← kernel.subscriber subscription
  let (allocated, kernel) :=
    if subscriber.needsAllocation (subscriber.queuedCount + 1) then kernel.heapAlloc
    else (true, kernel)
  let (stored, subscriber) := subscriber.storeRecord record allocated
  let kernel := kernel.modifySubscriber subscription fun _ => subscriber
  if stored then kernel.wakeWaiter env subscription else some kernel

/-- The loop of `publish_record`, from a subscriber to the end of the list. -/
def publishFrom (env : Env) (record : KernelEventRecord) :
    ℕ → Option SubscriptionId → Kernel → Option Kernel
  | _, none, kernel => some kernel
  | 0, some _, _ => none
  | rounds + 1, some subscription, kernel => do
      let subscriber ← kernel.subscriber subscription
      let kernel ←
        (if subscriptionMatches subscriber.request record then
           kernel.enqueueRecord env subscription record
         else some kernel)
      let _ ← kernel.subscriber subscription
      publishFrom env record rounds (kernel.subscribers.next subscription) kernel

def publishRecord (env : Env) (record : KernelEventRecord) (kernel : Kernel) : Option Kernel :=
  let kernel := { kernel with nextSequence := kernel.nextSequence + 1 }
  let record :=
    { record with
      sequence := kernel.nextSequence
      uptimeMsec := ticksToMilliseconds kernel.tickCount }
  kernel.publishFrom env record env.rounds kernel.subscribers.ids.head?

def destroySubscriber (env : Env) (subscription : SubscriptionId) (kernel : Kernel) :
    Option Kernel := do
  let kernel ← kernel.wakeWaiter env subscription
  let _ ← kernel.subscriber subscription
  some { kernel with subscribers := kernel.subscribers.remove subscription }

/-- The loop of `unsubscribe_process`; the next subscriber is saved first. -/
def unsubscribeFrom (env : Env) (owner : ProcessId) :
    ℕ → Option SubscriptionId → Kernel → Option Kernel
  | _, none, kernel => some kernel
  | 0, some _, _ => none
  | rounds + 1, some subscription, kernel => do
      let subscriber ← kernel.subscriber subscription
      let next := kernel.subscribers.next subscription
      let kernel ←
        (if subscriber.ownerProcessId = owner then
           kernel.destroySubscriber env subscription
         else some kernel)
      unsubscribeFrom env owner rounds next kernel

def unsubscribeProcess (env : Env) (owner : ProcessId) (kernel : Kernel) : Option Kernel :=
  kernel.unsubscribeFrom env owner env.rounds kernel.subscribers.ids.head?

/-- The records after `remember_exit_status`; an append may find no room. -/
def remembered (records : List ProcessExitRecord) (id parentId exitCode : ℕ) (room : Bool) :
    List ProcessExitRecord :=
  if parentId = 0 then records
  else if records.any (·.isFor id parentId) then
    records.modify (records.findIdx (·.isFor id parentId)) ({ · with exitCode })
  else if room then records ++ [⟨id, parentId, exitCode⟩]
  else records

def rememberExitStatus (id : ProcessId) (process : Process) (kernel : Kernel) : Kernel :=
  let parentId := process.parentProcessId
  let found := kernel.exitRecords.any (·.isFor id parentId)
  let (room, served) := kernel.heapAlloc
  { (if parentId = 0 ∨ found then kernel else served) with
    exitRecords := remembered kernel.exitRecords id parentId process.exitCode room }

def orphanLaunchedProcesses (launcher : ProcessId) (kernel : Kernel) : Kernel :=
  if launcher = 0 then kernel
  else
    { kernel with
      processes := kernel.processes.mapEntries fun _ process =>
        if process.parentProcessId = launcher then
          { process with parentProcessId := 0 }
        else process }

/-- The loop of `destroy_process` over the process's own threads. -/
def destroyThreads (env : Env) (id : ProcessId) : ℕ → Kernel → Option (Status × Kernel)
  | 0, _ => none
  | rounds + 1, kernel =>
    match kernel.processThreads id with
    | [] => some (.ok, kernel)
    | thread :: _ => do
        let (status, kernel) ← kernel.destroyThread env thread
        if status ≠ .ok then some (status, kernel)
        else destroyThreads env id rounds kernel

/-- The writes of `destroy_process` between the last publication and the release
of the subscriptions. -/
def retireProcess (id : ProcessId) (process : Process) (kernel : Kernel) : Kernel :=
  let kernel := (kernel.rememberExitStatus id process).orphanLaunchedProcesses id
  { kernel with processes := kernel.processes.remove id }

def destroyProcess (env : Env) (id : ProcessId) (kernel : Kernel) : Option (Status × Kernel) :=
  match kernel.process id with
  | none => some (.notFound, kernel)
  | some _ => do
      let kernel := kernel.modifyProcess id fun process =>
        { process with currentState := .terminated }
      let (status, kernel) ← kernel.destroyThreads env id env.rounds
      if status ≠ .ok then some (status, kernel)
      else do
        let process ← kernel.process id
        let kernel ← env.publish (processRecord .processExited id process) kernel
        let process ← kernel.process id
        let kernel ← (kernel.retireProcess id process).unsubscribeProcess env id
        some (.ok, kernel)

end Kernel

/-- The core with at most the given depth of re-entry. -/
def env : ℕ → Env
  | 0 => ⟨fun _ _ => none, fun _ _ => none, 0⟩
  | depth + 1 =>
    ⟨Kernel.publishRecord (env depth), Kernel.destroyProcess (env depth), depth + 1⟩

end RosKernel
