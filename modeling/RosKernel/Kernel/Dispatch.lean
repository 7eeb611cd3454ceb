import RosKernel.Kernel.Core

/-!
# Dispatching and blocking

Scheduler operations that may give up the processor. A call that switches away
leaves what it still has to do in the caller's continuation; the code behind each
switch is a separate `…Tail` definition that runs either at once, when the switch
kept the caller, or when the caller is switched in again.
-/

namespace RosKernel

/-- How a kernel call ends as seen from its caller. -/
inductive Transfer
  | returned (status : Status)
  /-- Another thread was switched in before the call returned. -/
  | switched
  deriving DecidableEq

namespace Kernel

/-- `aarch64_context_switch`: save what the previous thread still has to do. -/
def contextSwitch (previous : Option ThreadId) (continuation : Continuation) (kernel : Kernel) :
    Kernel :=
  match previous with
  | none => kernel
  | some id => kernel.modifyThread id fun thread =>
    { thread with continuation := continuation }

def switchToThread (env : Env) (next : Option ThreadId) (continuation : Continuation)
    (kernel : Kernel) : Option (Transfer × Kernel) :=
  match next with
  | none => some (.returned .notFound, kernel)
  | some id =>
    if kernel.currentThread = some id then
      some (.returned .ok, kernel.modifyThread id fun thread =>
        resetQuantum { thread with currentState := .running })
    else do
      let (status, bound) ← kernel.bindCurrentThread env id
      if status ≠ .ok then some (.returned status, bound)
      else some (.switched, bound.contextSwitch kernel.currentThread continuation)

/-- The requeue half of `dispatch`. -/
def requeueCurrent (env : Env) (atTail resetRequeuedQuantum : Bool) (kernel : Kernel) :
    Option Kernel :=
  match kernel.currentThread with
  | none => some kernel
  | some id =>
    if kernel.idleThread = some id then some kernel
    else do
      let thread ← kernel.thread id
      if thread.currentState ≠ .running then some kernel
      else
        let kernel := kernel.modifyThread id fun thread =>
          let thread := { thread with currentState := .ready }
          if resetRequeuedQuantum then resetQuantum thread else thread
        let (status, kernel) := kernel.readyQueuePush id atTail
        if status = .ok then
          env.publish (threadRecord .threadReady id thread .running .ready) kernel
        else some kernel

def dispatch (env : Env) (requeue atTail resetRequeuedQuantum keepCurrentIfRunnable : Bool)
    (continuation : Continuation) (kernel : Kernel) :
    Option (Transfer × Kernel) := do
  let kernel ←
    (if requeue then kernel.requeueCurrent env atTail resetRequeuedQuantum
     else some kernel)
  let (next, kernel) ← kernel.pickNextThread env.rounds keepCurrentIfRunnable
  kernel.switchToThread env next continuation

/-- Write to the current thread, if there is one. -/
def modifyCurrent (update : Thread → Thread) (kernel : Kernel) : Kernel :=
  match kernel.currentThread with
  | none => kernel
  | some id => kernel.modifyThread id update

/-- The checks a blocking call makes before it parks: there is a current thread,
it is not the idle thread, and it is running. -/
def blockableThread (kernel : Kernel) : Option (Option ThreadId) :=
  match kernel.currentThread with
  | none => some none
  | some id =>
    if kernel.idleThread = some id then some none
    else do
      let thread ← kernel.thread id
      if thread.currentState = .running then some (some id) else some none

/-- Code behind the switch of `block_current`. -/
def blockCurrentTail (status : Status) (kernel : Kernel) : Kernel :=
  kernel.modifyCurrent fun thread =>
    { thread with
      waitStatus := .none
      currentState := if status ≠ .ok then .running else thread.currentState }

def blockCurrent (env : Env) (reason : WaitReason) (continuation : Continuation)
    (kernel : Kernel) : Option (Transfer × Kernel) := do
  let kernel ← kernel.reapRetiredThreads env env.rounds
  match ← kernel.blockableThread with
  | none => some (.returned .busy, kernel)
  | some id => do
      let kernel := kernel.modifyThread id fun thread =>
        { thread with waitStatus := reason, currentState := .waiting }
      let (next, kernel) ← kernel.pickNextThread env.rounds false
      let (transfer, kernel) ← kernel.switchToThread env next continuation
      match transfer with
      | .switched => some (.switched, kernel)
      | .returned status => some (.returned status, kernel.blockCurrentTail status)

/-- The `timed_out` flag of `block_current_for`. -/
def timedOut (reason : WaitReason) (kernel : Kernel) : Bool :=
  (kernel.currentThread.bind kernel.thread).any fun thread =>
    thread.waitStatus = reason && thread.wakeTick ≠ 0

/-- The writes behind the switch of a timed wait. -/
def timedWaitCleanup (status : Status) (kernel : Kernel) : Kernel :=
  let kernel := kernel.modifyCurrent fun thread =>
    { thread with waitStatus := .none, wakeTick := 0 }
  if status = .ok then kernel
  else
    match kernel.currentThread with
    | none => kernel
    | some id => (kernel.sleepQueueRemove id).modifyThread id fun thread =>
      { thread with currentState := .running }

/-- Code behind the switch of `block_current_for`. -/
def blockCurrentForTail
    (reason : WaitReason) (status : Status) (kernel : Kernel) : Status × Kernel :=
  let result :=
    if status ≠ .ok then status
    else if kernel.timedOut reason then .busy
    else .ok
  (result, kernel.timedWaitCleanup status)

/-- Park the current thread until a tick: shared by the two timed waits. -/
def parkUntil (id : ThreadId) (reason : WaitReason) (delayTicks : ℕ) (kernel : Kernel) :
    Kernel :=
  (kernel.modifyThread id fun thread =>
    { thread with
      waitStatus := reason
      wakeTick := (kernel.tickCount + delayTicks) % 2 ^ 64
      currentState := .waiting }).sleepQueueInsertSorted id

/-- `Scheduler::block_current_for`; a zero delay is `block_current`, which then
saves the untimed continuation. -/
def blockCurrentFor (env : Env) (reason : WaitReason) (delayTicks : ℕ)
    (timed untimed : Continuation) (kernel : Kernel) :
    Option (Transfer × Kernel) :=
  if delayTicks = 0 then kernel.blockCurrent env reason untimed
  else do
    let kernel ← kernel.reapRetiredThreads env env.rounds
    match ← kernel.blockableThread with
    | none => some (.returned .busy, kernel)
    | some id => do
        let (next, kernel) ← (kernel.parkUntil id reason delayTicks).pickNextThread env.rounds false
        let (transfer, kernel) ← kernel.switchToThread env next timed
        match transfer with
        | .switched => some (.switched, kernel)
        | .returned status =>
          let (result, kernel) := kernel.blockCurrentForTail reason status
          some (.returned result, kernel)

def sleepCurrent (env : Env) (delayTicks : ℕ) (kernel : Kernel) : Option (Transfer × Kernel) :=
  if delayTicks = 0 then some (.returned .ok, kernel)
  else do
    let kernel ← kernel.reapRetiredThreads env env.rounds
    match ← kernel.blockableThread with
    | none => some (.returned .busy, kernel)
    | some id => do
        let (next, kernel) ← (kernel.parkUntil id .delay delayTicks).pickNextThread env.rounds false
        let (transfer, kernel) ← kernel.switchToThread env next .sleepCurrent
        match transfer with
        | .switched => some (.switched, kernel)
        | .returned status => some (.returned status, kernel.timedWaitCleanup status)

def yield (env : Env) (kernel : Kernel) : Option (Transfer × Kernel) := do
  let kernel ← kernel.reapRetiredThreads env env.rounds
  match kernel.currentThread with
  | none => some (.returned .ok, kernel)
  | some id =>
    if kernel.idleThread ≠ some id ∧ kernel.readyCount = 0 then
      some (.returned .ok, kernel.modifyThread id resetQuantum)
    else
      kernel.dispatch env (kernel.idleThread ≠ some id) true true true .dispatched

/-- Choose and switch without requeueing, as from the idle thread. -/
def switchToBest (env : Env) (continuation : Continuation) (kernel : Kernel) :
    Option (Transfer × Kernel) := do
  let (next, kernel) ← kernel.pickNextThread env.rounds false
  kernel.switchToThread env next continuation

/-- Whether a ready thread outranks a priority. -/
def outranked (priority : ℕ) (kernel : Kernel) : Bool :=
  kernel.highestReadyPriority.any fun best => decide (best < priority)

def processPendingReschedule (env : Env) (kernel : Kernel) : Option (Transfer × Kernel) :=
  if kernel.currentThread = none ∨ kernel.currentThread = kernel.idleThread then
    if kernel.readyCount ≠ 0 then kernel.switchToBest env .dispatched
    else some (.returned .ok, kernel)
  else do
    let id ← kernel.currentThread
    let thread ← kernel.thread id
    if kernel.outranked thread.currentPriority then
      kernel.dispatch env true false false false .dispatched
    else if thread.quantumTicksRemaining = 0 ∧ kernel.readyCount ≠ 0 then
      kernel.dispatch env true true true false .dispatched
    else if thread.quantumTicksRemaining = 0 then
      some (.returned .ok, kernel.modifyThread id resetQuantum)
    else some (.returned .ok, kernel)

/-- `process_pending_reschedule_from_lower_el_irq`. A preempted user thread keeps
its exception frame; the idle branch leaves an ordinary kernel chain. -/
def processPendingRescheduleFromLowerElIrq
    (env : Env) (kernel : Kernel) : Option (Transfer × Kernel) :=
  if !kernel.reschedulePending then some (.returned .ok, kernel)
  else
    let kernel := { kernel with reschedulePending := false }
    if kernel.currentThread = none ∨ kernel.currentThread = kernel.idleThread then
      if kernel.readyCount ≠ 0 then kernel.switchToBest env .dispatched
      else some (.returned .ok, kernel)
    else do
      let id ← kernel.currentThread
      let thread ← kernel.thread id
      if kernel.outranked thread.currentPriority then
        kernel.dispatch env true false false false .exceptionFrame
      else if thread.quantumTicksRemaining = 0 ∧ kernel.readyCount ≠ 0 then
        kernel.dispatch env true true true false .exceptionFrame
      else if thread.quantumTicksRemaining = 0 then
        some (.returned .ok, kernel.modifyThread id resetQuantum)
      else some (.returned .ok, kernel)

def wakeExpiredSleepers (env : Env) : ℕ → Kernel → Option Kernel
  | 0, _ => none
  | rounds + 1, kernel =>
    match kernel.sleepQueue with
    | [] => some kernel
    | id :: _ => do
        let thread ← kernel.thread id
        if thread.wakeTick ≤ kernel.tickCount then do
          let kernel := kernel.sleepQueueRemove id
          let kernel ←
            (if thread.currentState = .waiting then do
               let (_, kernel) ← kernel.transitionThreadToReady env id true .timer
               some kernel
             else some kernel)
          wakeExpiredSleepers env rounds kernel
        else some kernel

/-- Charge the running thread for a tick and note an expired quantum. -/
def chargeTick (kernel : Kernel) : Option Kernel :=
  match kernel.currentThread with
  | none => some kernel
  | some id =>
    if kernel.idleThread = some id then
      if kernel.readyCount ≠ 0 then some { kernel with reschedulePending := true }
      else some kernel
    else if kernel.readyCount = 0 then some (kernel.modifyThread id resetQuantum)
    else do
      let thread ← kernel.thread id
      let remaining := thread.quantumTicksRemaining - 1
      let kernel := kernel.modifyThread id fun thread =>
        { thread with quantumTicksRemaining := remaining }
      if remaining = 0 then some { kernel with reschedulePending := true }
      else some kernel

def timerTick (env : Env) (kernel : Kernel) : Option Kernel := do
  let kernel := { kernel with tickCount := (kernel.tickCount + 1) % 2 ^ 64 }
  let kernel ← kernel.reapRetiredThreads env env.rounds
  let kernel ← kernel.wakeExpiredSleepers env env.rounds
  kernel.chargeTick

/-- The tick loop of `Scheduler::poll`. -/
def timerTicks (env : Env) : ℕ → Kernel → Option Kernel
  | 0, kernel => some kernel
  | elapsed + 1, kernel => do
      let kernel ← kernel.timerTick env
      timerTicks env elapsed kernel

/-- `Scheduler::poll`; the drained device input arrives as separate notifications. -/
def poll (env : Env) (elapsedTicks : ℕ) (kernel : Kernel) :
    Option (Transfer × Kernel) := do
  let kernel ← kernel.timerTicks env elapsedTicks
  if !kernel.reschedulePending then some (.returned .ok, kernel)
  else
    let kernel := { kernel with reschedulePending := false }
    kernel.processPendingReschedule env

def handleLowerElTimerIrq (env : Env) (kernel : Kernel) : Option (Transfer × Kernel) := do
  let kernel ← kernel.timerTick env
  kernel.processPendingRescheduleFromLowerElIrq env

def handleCurrentElTimerIrq (env : Env) (kernel : Kernel) : Option (Transfer × Kernel) := do
  let kernel ← kernel.timerTick env
  kernel.processPendingReschedule env

def setCurrentPriority (env : Env) (priority : ℕ) (kernel : Kernel) : Option (Transfer × Kernel) :=
  if priority ≥ threadPriorityLevelCount then
    some (.returned .invalidArgument, kernel)
  else do
    let kernel ← kernel.reapRetiredThreads env env.rounds
    match ← kernel.blockableThread with
    | none => some (.returned .busy, kernel)
    | some id =>
      let kernel := kernel.modifyThread id fun thread =>
        resetQuantum { thread with basePriority := priority, currentPriority := priority }
      if kernel.outranked priority then
        kernel.dispatch env true false false false .dispatched
      else some (.returned .ok, kernel)

/-- The requeue half of `set_thread_priority`. -/
def reprioritise (id : ThreadId) (priority : ℕ) (kernel : Kernel) :
    Option (Status × Kernel) := do
  let kernel := kernel.readyQueueRemove id
  let kernel := kernel.modifyThread id fun thread =>
    resetQuantum { thread with basePriority := priority, currentPriority := priority }
  let thread ← kernel.thread id
  if thread.currentState = .ready then
    let (status, kernel) := kernel.readyQueuePush id true
    if status ≠ .ok then some (status, kernel)
    else if kernel.currentThread ≠ kernel.idleThread ∧
        kernel.currentPriority.any (fun current => decide (priority < current)) then
      some (.ok, { kernel with reschedulePending := true })
    else some (.ok, kernel)
  else some (.ok, kernel)

def setThreadPriority (env : Env) (id : ThreadId) (priority : ℕ) (kernel : Kernel) :
    Option (Transfer × Kernel) :=
  if priority ≥ threadPriorityLevelCount then
    some (.returned .invalidArgument, kernel)
  else do
    let kernel ← kernel.reapRetiredThreads env env.rounds
    match kernel.thread id with
    | none => some (.returned .notFound, kernel)
    | some thread =>
      if kernel.idleThread = some id ∨ thread.currentState = .terminated then
        some (.returned .busy, kernel)
      else if kernel.currentThread = some id then
        kernel.setCurrentPriority env priority
      else do
        let (status, kernel) ← kernel.reprioritise id priority
        some (.returned status, kernel)

/-- `exit_current_thread`; there is no result where the source halts. -/
def exitCurrentThread (env : Env) (kernel : Kernel) : Option (Transfer × Kernel) := do
  let id ← kernel.currentThread
  if kernel.idleThread = some id then none
  else do
    let kernel := kernel.modifyThread id fun thread =>
      { thread with currentState := .terminated }
    let kernel ← kernel.queueRetiredThread id
    let (next, kernel) ← kernel.pickNextThread env.rounds false
    let (transfer, kernel) ← kernel.switchToThread env next .exited
    match transfer with
    | .switched => some (.switched, kernel)
    | .returned _ => none

end Kernel

end RosKernel
