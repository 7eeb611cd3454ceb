import RosKernel.Kernel.Dispatch

/-!
# Kernel operations

Process and thread management, the event broker's interface, message passing and
the resumption of switched-out calls, and the step relation in which the current
thread performs one operation after another.
-/

namespace RosKernel.Kernel

/-! ## Processes and threads -/

/-- The object `create_process_with_mode` fills in. -/
def newProcess (name : Text) (userProcess : Bool) (pageTableRoot : ℕ) : Process where
  name := copyTextOr processNameCapacity name
    (if userProcess then "user".toList else "process".toList)
  parentProcessId := 0
  exitCode := 0
  currentState := .created
  kernelObject := !userProcess
  permanent := false
  pageTableRoot := pageTableRoot

/-- `create_process_with_mode`; `pageTableRoot` is what the memory manager provides:
the table of a new user address space, zero when it cannot be built, or the
bootstrap table that a kernel process inherits. -/
def createProcess (env : Env) (name : Text) (userProcess : Bool) (pageTableRoot : ℕ)
    (kernel : Kernel) : Option (Status × Kernel) :=
  let (slotAllocated, kernel) := kernel.heapAlloc
  if !slotAllocated then some (.noSpace, kernel)
  else if pageTableRoot = 0 then some (.noMemory, kernel)
  else
    let (registered, kernel) := kernel.heapAlloc
    if !registered then some (.noMemory, kernel)
    else do
      let created := newProcess name userProcess pageTableRoot
      let id := kernel.processes.nextId
      let kernel ← env.publish (processRecord .processCreated id created)
        { kernel with processes := kernel.processes.insert created }
      some (.ok, kernel)

/-- The object `create_thread` and `create_user_thread` fill in. -/
def newThread (parent : ProcessId) (name : Text) (basePriority quantumTicks : ℕ)
    (userThread : Bool) : Thread where
  name := copyTextOr threadNameCapacity name (if userThread then "user".toList else "thread".toList)
  currentState := .ready
  basePriority := basePriority
  currentPriority := basePriority
  quantumTicks := quantumTicks
  quantumTicksRemaining := quantumTicks
  inReadyQueue := false
  parent := some parent
  waitStatus := .none
  wakeTick := 0
  kernelObject := !userThread
  continuation := .fresh
  wokenBy := none

/-- The allocations behind a new thread: its object, its kernel stack and its entry
in the object registry; after a failure the rest is not attempted. -/
def allocateThread (kernel : Kernel) : Bool × Kernel :=
  let (slotAllocated, kernel) := kernel.heapAlloc
  if !slotAllocated then (false, kernel)
  else
    let (stackAllocated, kernel) := kernel.heapAlloc
    if !stackAllocated then (false, kernel) else kernel.heapAlloc

/-- `ThreadManager::create_thread` and `create_user_thread`; `start` is the entry
point of a kernel thread or the stack top of a user thread. -/
def createThread (env : Env) (parent : ProcessId) (name : Text) (start : ℕ)
    (basePriority quantumTicks : ℕ) (userThread : Bool) (kernel : Kernel) :
    Option (Status × Kernel) :=
  if start = 0 then some (.invalidArgument, kernel)
  else if basePriority ≥ threadPriorityLevelCount ∨ quantumTicks = 0 then
    some (.invalidArgument, kernel)
  else if kernel.process parent = none then some (.notFound, kernel)
  else
    let (allocated, kernel) := kernel.allocateThread
    if !allocated then some (.noMemory, kernel)
    else do
      let created := newThread parent name basePriority quantumTicks userThread
      let id := kernel.threads.nextId
      let kernel ← env.publish
        (threadRecord .threadCreated id created .initialized .ready)
        { kernel with threads := kernel.threads.insert created }
      some (.ok, kernel)

/-- Record which process launched a child, as the spawn services do. -/
def setLauncher (child launcher : ProcessId) (kernel : Kernel) : Kernel :=
  kernel.modifyProcess child fun process => { process with parentProcessId := launcher }

/-- Put a process in the exiting state with its exit code. -/
def markExiting (id : ProcessId) (exitCode : ℕ) (kernel : Kernel) : Kernel :=
  kernel.modifyProcess id fun process =>
    { process with currentState := .exiting, exitCode := exitCode }

def terminateProcess (env : Env) (id : ProcessId) (exitCode : ℕ) (kernel : Kernel) :
    Option (Status × Kernel) :=
  match kernel.process id with
  | none => some (.notFound, kernel)
  | some _ => (kernel.markExiting id exitCode).destroyProcess env id

/-- `service_kill`: never the caller, a kernel process or a permanent one. -/
def serviceKill (env : Env) (target : ProcessId) (kernel : Kernel) : Option (Status × Kernel) :=
  if target = 0 then some (.invalidArgument, kernel)
  else
    match kernel.process target with
    | none => some (.notFound, kernel)
    | some process =>
      if kernel.currentProcess = some target ∨ process.kernelObject ∨
          process.permanent then some (.busy, kernel)
      else kernel.terminateProcess env target 0

/-- The launcher walk of `process_is_in_tree`, from one ancestor upwards. -/
def launcherReaches (origin root : ProcessId) : ℕ → ProcessId → Kernel → Option Bool
  | 0, _, _ => none
  | rounds + 1, cursor, kernel =>
    if cursor = 0 then some false
    else if cursor = root then some true
    else
      match kernel.process cursor with
      | none => some false
      | some parent =>
        if cursor = origin then some false
        else launcherReaches origin root rounds parent.parentProcessId kernel

def processIsInTree (rounds : ℕ) (id root : ProcessId) (kernel : Kernel) : Option Bool :=
  if root = 0 then some false
  else if id = root then some true
  else do
    let process ← kernel.process id
    kernel.launcherReaches id root rounds process.parentProcessId

/-- The processes of a launcher tree in list order. -/
def treeMembers (rounds : ℕ) (root : ProcessId) (kernel : Kernel) : Option (List ProcessId) :=
  kernel.processes.ids.filterM fun id => kernel.processIsInTree rounds id root

/-- One write of `mark_process_tree_for_exit`. -/
def markForExit (exitCode : ℕ) (process : Process) : Process :=
  { process with
    exitCode := exitCode
    currentState :=
      if process.currentState = .terminated then .terminated else .exiting }

/-- Whether a process is excluded from tree termination and reaping. -/
def isPermanent (kernel : Kernel) (id : ProcessId) : Bool :=
  (kernel.process id).any Process.permanent

/-- `mark_process_tree_for_exit`: the marked processes and the marked state. The
walk only reads launcher links, which marking leaves alone. -/
def markProcessTreeForExit (rounds : ℕ) (root : ProcessId) (exitCode : ℕ) (kernel : Kernel) :
    Option (List ProcessId × Kernel) := do
  let members ← kernel.treeMembers rounds root
  let marked := members.filter fun id => !kernel.isPermanent id
  some (marked,
    { kernel with
      processes := kernel.processes.mapEntries fun id process =>
        if id ∈ marked then markForExit exitCode process else process })

/-- The second loop of `terminate_process_tree`, with the next process saved. -/
def destroyTreeFrom (env : Env) (root exempt : ProcessId) :
    ℕ → Option ProcessId → Kernel → Option Kernel
  | _, none, kernel => some kernel
  | 0, some _, _ => none
  | rounds + 1, some id, kernel => do
      let process ← kernel.process id
      let next := kernel.processes.next id
      let inTree ← kernel.processIsInTree env.rounds id root
      let kernel ←
        (if inTree ∧ id ≠ exempt ∧ !process.permanent then do
           let (_, kernel) ← kernel.destroyProcess env id
           some kernel
         else some kernel)
      destroyTreeFrom env root exempt rounds next kernel

def terminateProcessTree (env : Env) (root : ProcessId) (exitCode : ℕ) (exempt : ProcessId)
    (kernel : Kernel) : Option (Status × Kernel) :=
  match kernel.process root with
  | none => some (.notFound, kernel)
  | some process =>
    if process.permanent then some (.busy, kernel)
    else do
      let (marked, kernel) ← kernel.markProcessTreeForExit env.rounds root exitCode
      if marked = [] then some (.notFound, kernel)
      else do
        let kernel ← kernel.destroyTreeFrom env root exempt env.rounds kernel.processes.ids.head?
        some (.ok, kernel)

/-- The loop of `reap_exiting`. -/
def reapExitingFrom (env : Env) (current : Option ProcessId) :
    ℕ → Option ProcessId → Kernel → Option Kernel
  | _, none, kernel => some kernel
  | 0, some _, _ => none
  | rounds + 1, some id, kernel => do
      let process ← kernel.process id
      let next := kernel.processes.next id
      let kernel ←
        (if current ≠ some id ∧ process.currentState = .exiting ∧ !process.permanent then do
           let (_, kernel) ← kernel.destroyProcess env id
           some kernel
         else some kernel)
      reapExitingFrom env current rounds next kernel

def reapExiting (env : Env) (kernel : Kernel) : Option Kernel :=
  kernel.reapExitingFrom env kernel.currentProcess env.rounds kernel.processes.ids.head?

def consumeExitStatus (id parent : ProcessId) (kernel : Kernel) : Status × Option ℕ × Kernel :=
  let wanted := ProcessExitRecord.isFor id parent
  match kernel.exitRecords.find? wanted with
  | none => (.notFound, none, kernel)
  | some record =>
    (.ok, some record.exitCode, { kernel with exitRecords := kernel.exitRecords.eraseP wanted })

/-- `service_exit`, and the last lines of the fatal fault handler: mark the current
process and retire the current thread. -/
def serviceExit (env : Env) (exitCode : ℕ) (kernel : Kernel) : Option (Transfer × Kernel) :=
  match kernel.currentProcess with
  | none => kernel.exitCurrentThread env
  | some id => (kernel.markExiting id exitCode).exitCurrentThread env

/-! ## The event broker -/

def findSubscription (owner : ProcessId) (subscription : SubscriptionId) (kernel : Kernel) :
    Option EventSubscriber :=
  (kernel.subscriber subscription).filter fun subscriber =>
    subscriber.ownerProcessId = owner

/-- The record `subscribe` links. -/
def newSubscriber (owner : ProcessId) (request : SubscriptionRequest) : EventSubscriber where
  ownerProcessId := owner
  request :=
    { request with
      namePrefix := copyText eventNameCapacity request.namePrefix
      pathPrefix := copyText eventPathCapacity request.pathPrefix }
  queue := []
  queueCapacity := 0
  readIndex := 0
  writeIndex := 0
  queuedCount := 0
  droppedCount := 0
  newestSequence := 0
  waitingThread := none

def subscribe (owner : ProcessId) (request : SubscriptionRequest) (kernel : Kernel) :
    Status × Kernel :=
  if request.version ≠ eventAbiVersion then (.invalidArgument, kernel)
  else if request.flags ≠ 0 then (.notSupported, kernel)
  else if request.familyMask = 0 ∨ request.familyMask ||| EventFamily.all ≠ EventFamily.all
    then (.invalidArgument, kernel)
  else
    let (allocated, kernel) := kernel.heapAlloc
    if !allocated then (.noMemory, kernel)
    else
      (.ok,
        { kernel with
          subscribers := kernel.subscribers.insert (newSubscriber owner request) })

def unsubscribe (env : Env) (owner : ProcessId) (subscription : SubscriptionId)
    (kernel : Kernel) : Option (Status × Kernel) :=
  if subscription = 0 then some (.invalidArgument, kernel)
  else if kernel.findSubscription owner subscription = none then
    some (.notFound, kernel)
  else do
    let kernel ← kernel.destroySubscriber env subscription
    some (.ok, kernel)

/-- `KernelEventBroker::read`. -/
def readEvents (owner : ProcessId) (subscription : SubscriptionId) (capacity : ℕ)
    (kernel : Kernel) : Status × List KernelEventRecord × Kernel :=
  match kernel.findSubscription owner subscription with
  | none => (.notFound, [], kernel)
  | some subscriber =>
    let count := min capacity subscriber.queuedCount
    let (records, subscriber) := EventSubscriber.readRecords count subscriber
    (.ok, records, kernel.modifySubscriber subscription fun _ => subscriber)

/-- Code behind `block_current` in `KernelEventBroker::wait`. A subscription that
was destroyed meanwhile has been cleared, so the comparison fails there. -/
def eventWaitTail (subscription : SubscriptionId) (waiter : ThreadId) (kernel : Kernel) : Kernel :=
  kernel.modifySubscriber subscription fun subscriber =>
    if subscriber.waitingThread = some waiter then
      { subscriber with waitingThread := none }
    else subscriber

/-- `KernelEventBroker::wait`. -/
def eventWait (env : Env) (owner : ProcessId) (subscription : SubscriptionId)
    (kernel : Kernel) : Option (Transfer × Kernel) :=
  match kernel.findSubscription owner subscription with
  | none => some (.returned .notFound, kernel)
  | some subscriber =>
    if subscriber.queuedCount ≠ 0 then some (.returned .ok, kernel)
    else
      match kernel.currentThread with
      | none => some (.returned .busy, kernel)
      | some id => do
          let thread ← kernel.thread id
          if thread.currentState ≠ .running then some (.returned .busy, kernel)
          else if subscriber.waitingThread ≠ none ∧ subscriber.waitingThread ≠ some id then
            some (.returned .busy, kernel)
          else do
            let kernel := kernel.modifySubscriber subscription fun subscriber =>
              { subscriber with waitingThread := some id }
            let (transfer, kernel) ← kernel.blockCurrent env .event (.eventWait subscription)
            match transfer with
            | .switched => some (.switched, kernel)
            | .returned status =>
              some (.returned status, kernel.eventWaitTail subscription id)

/-! ## Messages -/

def ipcProcessAlive (kernel : Kernel) (pid : ProcessId) : Bool :=
  (kernel.process pid).any fun process => process.currentState ≠ .terminated

def ipcSweepDeadQueues (kernel : Kernel) : Kernel :=
  { kernel with
    ipcQueues := kernel.ipcQueues.filter fun queue => kernel.ipcProcessAlive queue.pid }

def ipcFindQueue (kernel : Kernel) (pid : ProcessId) : Option IpcProcessQueue :=
  kernel.ipcQueues.find? fun queue => queue.pid = pid

def ipcQueueInitialCapacity : ℕ := 32

/-- The doubling loop of `ipc_reserve_message_capacity`. -/
def ipcGrowCapacity (required : ℕ) : ℕ → ℕ → ℕ
  | 0, grown => grown
  | rounds + 1, grown =>
    if grown < required then
      if grown > (2 ^ 32 - 1) / 2 then required
      else ipcGrowCapacity required rounds (grown * 2)
    else grown

/-- Rewrite the queue of one process. -/
def ipcModifyQueue
    (pid : ProcessId) (update : IpcProcessQueue → IpcProcessQueue) (kernel : Kernel) :
    Kernel :=
  { kernel with
    ipcQueues := kernel.ipcQueues.map fun queue =>
      if queue.pid = pid then update queue else queue }

def ipcReserveQueue (pid : ProcessId) (kernel : Kernel) : Bool × Kernel :=
  if (kernel.ipcFindQueue pid).isSome then (true, kernel)
  else
    let (allocated, kernel) := kernel.heapAlloc
    if allocated then
      (true, { kernel with ipcQueues := kernel.ipcQueues ++ [⟨pid, [], 0⟩] })
    else (false, kernel)

/-- `ipc_reserve_message_capacity` for one more packet. -/
def ipcReserveMessageCapacity
    (pid : ProcessId) (queue : IpcProcessQueue) (kernel : Kernel) : Bool × Kernel :=
  let required := queue.messages.length + 1
  if required ≤ queue.capacity then (true, kernel)
  else
    let (allocated, kernel) := kernel.heapAlloc
    if allocated then
      let initial :=
        if queue.capacity = 0 then ipcQueueInitialCapacity else queue.capacity
      (true, kernel.ipcModifyQueue pid fun queue =>
        { queue with capacity := ipcGrowCapacity required 32 initial })
    else (false, kernel)

/-- `ipc_wake_waiter`: the first thread of the process that waits for a message. -/
def ipcWakeWaiter (env : Env) (pid : ProcessId) (kernel : Kernel) : Option Kernel :=
  let waits := fun id => (kernel.thread id).any fun thread =>
    thread.currentState = .waiting && thread.waitStatus = .message
  match (kernel.processThreads pid).find? waits with
  | none => some kernel
  | some id => do
      let (_, kernel) ← kernel.enqueue env id
      some kernel

def ipcEnqueue (env : Env) (receiver : ProcessId) (message : UserIpcMessage) (kernel : Kernel) :
    Option (Status × Kernel) :=
  if !kernel.ipcProcessAlive receiver then some (.notFound, kernel)
  else
    let (reserved, kernel) := kernel.ipcReserveQueue receiver
    if !reserved then some (.noMemory, kernel)
    else do
      let queue ← kernel.ipcFindQueue receiver
      let (grown, kernel) := kernel.ipcReserveMessageCapacity receiver queue
      if !grown then some (.noMemory, kernel)
      else do
        let kernel := kernel.ipcModifyQueue receiver fun queue =>
          { queue with messages := queue.messages ++ [message] }
        let kernel ← kernel.ipcWakeWaiter env receiver
        some (.ok, kernel)

/-- `service_ipc_send` for a packet copied from the caller. -/
def serviceIpcSend (env : Env) (receiver : ProcessId) (message : UserIpcMessage) (kernel : Kernel) :
    Option (Status × Kernel) :=
  match kernel.currentProcess with
  | none => some (.invalidArgument, kernel)
  | some sender =>
    if receiver = 0 then some (.invalidArgument, kernel)
    else kernel.ipcSweepDeadQueues.ipcEnqueue env receiver
      { message with senderPid := sender, receiverPid := receiver }

def ipcDequeue (receiver : ProcessId) (kernel : Kernel) :
    Status × Option UserIpcMessage × Kernel :=
  if !kernel.ipcProcessAlive receiver then (.notFound, none, kernel)
  else
    match (kernel.ipcFindQueue receiver).map IpcProcessQueue.messages with
    | some (message :: rest) =>
      (.ok, some message, kernel.ipcModifyQueue receiver fun queue =>
        { queue with messages := rest })
    | _ => (.busy, none, kernel)

def millisecondsToTicksCeil (milliseconds : ℕ) : ℕ :=
  if milliseconds = 0 then 0
  else ((milliseconds * 1000 + 99) % 2 ^ 64) / 100

/-- `ROS_USER_IPC_RECEIVE_TIMEOUT_MSEC`. -/
def receiveTimeoutMsec (flags : ℕ) : ℕ := flags / 2 ^ 8

/-- The blocking call of `service_ipc_recv`. -/
def ipcBlock (env : Env) (request : IpcReceive) (kernel : Kernel) :
    Option (Transfer × Kernel) :=
  let timeout := receiveTimeoutMsec request.flags
  if timeout ≠ 0 then
    kernel.blockCurrentFor env .message (millisecondsToTicksCeil timeout)
      (.ipcReceive request) (.ipcReceive request)
  else kernel.blockCurrent env .message (.ipcReceive request)

/-- The loop of `service_ipc_recv`. -/
def ipcReceiveLoop (env : Env) (request : IpcReceive) : ℕ → Kernel → Option (Transfer × Kernel)
  | 0, _ => none
  | rounds + 1, kernel => do
      let pid ← kernel.currentProcess
      let (status, _, kernel) := kernel.ipcSweepDeadQueues.ipcDequeue pid
      if status = .ok then
        some (.returned (if request.bufferWritable then .ok else .invalidArgument), kernel)
      else if status ≠ .busy ∨ request.flags % 2 = 0 then
        some (.returned status, kernel)
      else do
        let (transfer, kernel) ← kernel.ipcBlock env request
        match transfer with
        | .switched => some (.switched, kernel)
        | .returned status =>
          if status ≠ .ok then some (.returned status, kernel)
          else ipcReceiveLoop env request rounds kernel

/-- Code behind the switch of the blocking call of `service_ipc_recv`. -/
def ipcBlockTail (request : IpcReceive) (kernel : Kernel) : Status × Kernel :=
  if millisecondsToTicksCeil (receiveTimeoutMsec request.flags) ≠ 0 then
    kernel.blockCurrentForTail .message .ok
  else (.ok, kernel.blockCurrentTail .ok)

/-! ## Resumption -/

/-- Mark the current thread as running its own code. -/
def resumeExecution (id : ThreadId) (kernel : Kernel) : Kernel :=
  kernel.modifyThread id fun thread => { thread with continuation := .executing }

/-- The code a thread runs right after it was switched in. Every kernel chain
first finishes `switch_to_thread`, which destroys retired threads. -/
def resume (env : Env) (kernel : Kernel) : Option (Transfer × Kernel) := do
  let id ← kernel.currentThread
  let thread ← kernel.thread id
  let kernel := kernel.resumeExecution id
  match thread.continuation with
  | .executing => none
  | .exited => none
  | .fresh => some (.returned .ok, kernel)
  | .exceptionFrame => some (.returned .ok, kernel)
  | .dispatched => do
      let kernel ← kernel.reapRetiredThreads env env.rounds
      some (.returned .ok, kernel)
  | .blockCurrent => do
      let kernel ← kernel.reapRetiredThreads env env.rounds
      some (.returned .ok, kernel.blockCurrentTail .ok)
  | .blockCurrentFor reason => do
      let kernel ← kernel.reapRetiredThreads env env.rounds
      let (status, kernel) := kernel.blockCurrentForTail reason .ok
      some (.returned status, kernel)
  | .sleepCurrent => do
      let kernel ← kernel.reapRetiredThreads env env.rounds
      some (.returned .ok, kernel.timedWaitCleanup .ok)
  | .eventWait subscription => do
      let kernel ← kernel.reapRetiredThreads env env.rounds
      some (.returned .ok, (kernel.blockCurrentTail .ok).eventWaitTail subscription id)
  | .ipcReceive request => do
      let kernel ← kernel.reapRetiredThreads env env.rounds
      let (status, kernel) := kernel.ipcBlockTail request
      if status ≠ .ok then some (.returned status, kernel)
      else kernel.ipcReceiveLoop env request env.rounds

end RosKernel.Kernel
