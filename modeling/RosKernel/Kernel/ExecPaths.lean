import RosKernel.Kernel.OperationPaths

/-!
# Operations as moves and paths

Every operation of a run is a sequence of moves within its scope, and so a path of
primitive steps that its permissions allow. Results about runs are proved for one
move or one primitive step and transported here.
-/

namespace RosKernel.Kernel

/-- Blocking and dispatching, apart from event waits. -/
structure Permits.Blocks (permits : Permits) : Prop where
  dispatch : permits.dispatch
  suspend : ∀ continuation, (∀ subscription, continuation ≠ .eventWait subscription) →
    permits.suspend continuation

/-- The permissions an operation makes use of. -/
def Permits.Allows (permits : Permits) : Op → Prop
  | .createThread .. => permits.spawn
  | .serviceKill _ => permits.mark
  | .terminateLaunched _ => permits.mark
  | .reapExiting => permits.mark
  | .serviceExit _ => permits.mark ∧ permits.Blocks
  | .eventWait _ subscription =>
    permits.Blocks ∧ permits.suspend (.eventWait subscription)
  | .setCurrentPriority _ => permits.Blocks
  | .setThreadPriority .. => permits.Blocks
  | .blockCurrent _ => permits.Blocks
  | .blockCurrentFor .. => permits.Blocks
  | .sleepCurrent _ => permits.Blocks
  | .yield => permits.Blocks
  | .poll _ => permits.Blocks
  | .lowerElTimerIrq => permits.Blocks
  | .currentElTimerIrq => permits.Blocks
  | .exitThread => permits.Blocks
  | .ipcReceive _ => permits.Blocks
  | .resume => permits.Blocks
  | _ => True

/-- What an operation needs of its scope in a state. -/
def Scope.Admits (scope : Scope) (kernel : Kernel) : Op → Prop
  | .createThread .. => scope.spawn
  | .enqueue id => scope.request id
  | .setCurrentPriority priority => scope.Switches kernel ∧
      ∀ id, kernel.currentThread = some id → scope.prioritise id priority
  | .setThreadPriority id priority => scope.Switches kernel ∧ scope.prioritise id priority
  | .serviceKill target => scope.mark ∧
      ∀ process, kernel.process target = some process →
        kernel.currentProcess ≠ some target → process.kernelObject = false →
        process.permanent = false → scope.destroy target
  | .terminateLaunched _ => scope.mark ∧
      ∀ root id process rounds, kernel.currentProcess = some root →
        kernel.process id = some process →
        kernel.processIsInTree rounds id root = some true → id ≠ root →
        process.permanent = false → scope.destroy id
  | .reapExiting => scope.mark ∧
      ∀ id process, kernel.process id = some process → kernel.currentProcess ≠ some id →
        process.currentState = .exiting → process.permanent = false → scope.destroy id
  | .serviceExit _ => scope.mark ∧ scope.Ends kernel .exited
  | .exitThread => scope.Ends kernel .exited
  | .subscribe owner request => scope.subscribe owner request
  | .unsubscribe owner subscription => scope.unsubscribe owner subscription
  | .eventWait owner subscription =>
    scope.Ends kernel (.eventWait subscription) ∧ scope.wait owner subscription
  | .publishVfs .. => scope.publish
  | .publishRegistration .. => scope.publish
  | .blockCurrent _ => scope.Switches kernel ∧ scope.park
  | .blockCurrentFor .. => scope.Switches kernel ∧ scope.park
  | .sleepCurrent _ => scope.Switches kernel ∧ scope.park
  | .yield => scope.Switches kernel
  | .poll _ => scope.Switches kernel
  | .lowerElTimerIrq => scope.Switches kernel
  | .currentElTimerIrq => scope.Switches kernel
  | .ipcReceive _ => scope.Switches kernel ∧ scope.park
  | .resume => scope.Switches kernel ∧ scope.park
  | _ => True

section

variable {permits : Permits} {scope : Scope} {env : Env} [runs : env.Runs] {kernel after : Kernel}

variable {transfer : Transfer}

theorem ipcBlock_moves (operational : kernel.Operational)
    (executing : kernel.Executing) (switches : scope.Switches kernel) (parks : scope.park)
    {request : IpcReceive} (call : kernel.ipcBlock env request = some (transfer, after)) :
    Blocked scope .running kernel transfer after := by
  have plain : Plain (.ipcReceive request) := ⟨nofun, nofun⟩
  have ends := switches.ends parks plain
  unfold ipcBlock at call
  dsimp only at call
  split at call
  · exact blockCurrentFor_moves operational executing ends plain ends plain call
  · exact blockCurrent_moves operational executing ends (.plain _ _ plain) call

theorem threads_ipcDequeue (kernel : Kernel) (receiver : ProcessId) :
    (kernel.ipcDequeue receiver).2.2.threads = kernel.threads ∧
      (kernel.ipcDequeue receiver).2.2.currentThread = kernel.currentThread := by
  unfold ipcDequeue
  split
  · exact ⟨rfl, rfl⟩
  split <;> exact ⟨rfl, rfl⟩

/-- A round of the loop that blocks does not come back with success, so the loop
never takes its second round within one call. -/
theorem ipcReceiveLoop_moves (operational : kernel.Operational)
    (executing : kernel.Executing) (switches : scope.Switches kernel) (parks : scope.park)
    {request : IpcReceive} {rounds : ℕ}
    (call : kernel.ipcReceiveLoop env request rounds = some (transfer, after)) :
    scope.Moves kernel after := by
  cases rounds with
  | zero => cases call
  | succ =>
    simp only [ipcReceiveLoop, bind_eq_some] at call
    obtain ⟨pid, -, call⟩ := call
    have moves : scope.Moves kernel ((kernel.ipcSweepDeadQueues.ipcDequeue pid).2.2) :=
      .head (.messages _ _) ipcDequeue_moves
    obtain ⟨sameThreads, sameCurrent⟩ := kernel.ipcSweepDeadQueues.threads_ipcDequeue pid
    rcases dequeue : kernel.ipcSweepDeadQueues.ipcDequeue pid with
      ⟨status, message, dequeued⟩
    rw [dequeue] at call moves sameThreads sameCurrent
    split at call
    · cases call
      exact moves
    split at call
    · cases call
      exact moves
    simp only [bind_eq_some] at call
    obtain ⟨⟨_, _⟩, block, call⟩ := call
    have dequeuedExecuting : dequeued.Executing := by
      unfold Executing thread
      rw [sameThreads, sameCurrent]
      exact executing
    rcases ipcBlock_moves (moves.operational operational)
      dequeuedExecuting (switches.of_current sameCurrent) parks block with
      ⟨rfl, blocking⟩ | ⟨rfl, blocking, -⟩
    · cases call
      exact moves.trans blocking
    · cases call
      exact moves.trans blocking

theorem serviceIpcSend_moves (operational : kernel.Operational)
    {receiver : ProcessId} {message : UserIpcMessage} {status : Status}
    (call : kernel.serviceIpcSend env receiver message = some (status, after)) :
    scope.Moves kernel after := by
  unfold serviceIpcSend at call
  split at call
  · cases call
    exact .refl
  split at call
  · cases call
    exact .refl
  · have swept : scope.Moves kernel kernel.ipcSweepDeadQueues := .single (.messages _ _)
    exact swept.trans (ipcEnqueue_moves (swept.operational operational) call)

theorem serviceExit_moves (operational : kernel.Operational)
    (executing : kernel.Executing) (marks : scope.mark) (ends : scope.Ends kernel .exited)
    {exitCode : ℕ} (call : kernel.serviceExit env exitCode = some (transfer, after)) :
    scope.Moves kernel after := by
  unfold serviceExit at call
  split at call
  · obtain ⟨-, -, -, -, moves⟩ := exitCurrentThread_moves operational executing ends call
    exact moves
  · rename_i id _
    have marked : scope.Moves kernel (kernel.markExiting id exitCode) :=
      .single (.markExiting _ _ _ marks)
    obtain ⟨-, -, -, -, moves⟩ := exitCurrentThread_moves
      (marked.operational operational) (by exact executing) (ends.of_current rfl) call
    exact marked.trans moves

/-! ## Resumption -/

theorem blockCurrentForTail_moves (reason : WaitReason) :
    scope.Moves kernel ((kernel.blockCurrentForTail reason .ok).2) :=
  timedWaitCleanup_moves

theorem ipcBlockTail_moves (request : IpcReceive) :
    scope.Moves kernel ((kernel.ipcBlockTail request).2) := by
  unfold ipcBlockTail
  split
  · exact blockCurrentForTail_moves _
  · exact blockCurrentTail_moves (.inl rfl)

theorem executing_resumeExecution {id : ThreadId} (current : kernel.currentThread = some id) :
    (kernel.resumeExecution id).Executing := by
  intro _ _ isCurrent found
  cases current.symm.trans isCurrent
  obtain ⟨_, -, rfl⟩ := thread_of_modified found
  rfl

theorem Executing.modifyCurrent (executing : kernel.Executing) {update : Thread → Thread}
    (kept : ∀ thread, (update thread).continuation = thread.continuation) :
    (kernel.modifyCurrent update).Executing := by
  intro id _ current found
  rw [currentThread_modifyCurrent] at current
  unfold Kernel.modifyCurrent at found
  rw [current] at found
  obtain ⟨old, oldFound, rfl⟩ := thread_of_modified found
  rw [kept]
  exact executing id old current oldFound

theorem executing_ipcBlockTail (executing : kernel.Executing) (request : IpcReceive) :
    (kernel.ipcBlockTail request).2.Executing := by
  unfold ipcBlockTail
  split
  · exact executing.modifyCurrent fun _ => rfl
  · exact executing.modifyCurrent fun _ => rfl

theorem currentThread_ipcBlockTail (kernel : Kernel) (request : IpcReceive) :
    (kernel.ipcBlockTail request).2.currentThread = kernel.currentThread := by
  unfold ipcBlockTail
  split
  · exact currentThread_modifyCurrent _
  · exact currentThread_modifyCurrent _

theorem resume_moves (operational : kernel.Operational)
    (switches : scope.Switches kernel) (parks : scope.park)
    (call : kernel.resume env = some (transfer, after)) :
    scope.Moves kernel after := by
  simp only [resume, bind_eq_some] at call
  obtain ⟨id, current, thread, found, call⟩ := call
  have resumed (suspended : thread.continuation ≠ .executing)
      (returns : thread.continuation ≠ .exited) :
      KernelMoves scope (.running, kernel)
        (.ofContinuation thread.continuation, kernel.resumeExecution id) :=
    .single (.resumed _ _ _ current found suspended returns)
  have resumedOperational : (kernel.resumeExecution id).Operational :=
    { operational with }
  have reaped (suspended : thread.continuation ≠ .executing)
      (returns : thread.continuation ≠ .exited) (reaped)
      (reaping : (kernel.resumeExecution id).reapRetiredThreads env env.rounds = some reaped) :
      KernelMoves scope (.running, kernel) (.ofContinuation thread.continuation, reaped) :=
    (resumed suspended returns).trans (reap_moves resumedOperational _ reaping)
  cases continuation : thread.continuation with
  | executing | exited => simp [continuation] at call
  | fresh | exceptionFrame =>
    simp only [continuation] at call resumed
    cases call
    exact resumed nofun nofun
  | dispatched =>
    simp only [continuation, bind_eq_some] at call reaped
    obtain ⟨middle, reaping, call⟩ := call
    cases call
    exact reaped nofun nofun _ reaping
  | blockCurrent =>
    simp only [continuation, bind_eq_some] at call reaped
    obtain ⟨middle, reaping, call⟩ := call
    cases call
    exact (reaped nofun nofun _ reaping).trans (blockCurrentTail_moves (.inl rfl))
  | blockCurrentFor =>
    simp only [continuation, bind_eq_some] at call reaped
    obtain ⟨middle, reaping, call⟩ := call
    cases call
    exact (reaped nofun nofun _ reaping).trans (blockCurrentForTail_moves _)
  | sleepCurrent =>
    simp only [continuation, bind_eq_some] at call reaped
    obtain ⟨middle, reaping, call⟩ := call
    cases call
    exact (reaped nofun nofun _ reaping).trans timedWaitCleanup_moves
  | eventWait subscription =>
    simp only [continuation, bind_eq_some] at call reaped
    obtain ⟨middle, reaping, call⟩ := call
    cases call
    have cleared := (reaped nofun nofun _ reaping).trans
      (blockCurrentTail_moves (.inr ⟨subscription, rfl⟩))
    refine cleared.tail (.clearWaiter _ _ _ ?_)
    exact (currentThread_modifyCurrent ..).trans
      ((reap_currentThread resumedOperational reaping).trans current)
  | ipcReceive request =>
    simp only [continuation, bind_eq_some] at call reaped
    obtain ⟨middle, reaping, call⟩ := call
    have tailMoves : scope.Moves kernel ((middle.ipcBlockTail request).2) :=
      (reaped nofun nofun _ reaping).trans (ipcBlockTail_moves request)
    rcases tail : middle.ipcBlockTail request with ⟨_, _⟩
    have executing : (middle.ipcBlockTail request).2.Executing :=
      executing_ipcBlockTail (reap_executing resumedOperational
        (executing_resumeExecution current) reaping) request
    rw [tail] at call tailMoves executing
    split at call
    · cases call
      exact tailMoves
    · have sameCurrent : middle.currentThread = (kernel.resumeExecution id).currentThread :=
        reap_currentThread resumedOperational reaping
      have finishedCurrent := (currentThread_ipcBlockTail middle request).trans sameCurrent
      rw [tail] at finishedCurrent
      exact tailMoves.trans (ipcReceiveLoop_moves
        (tailMoves.operational operational) executing
        (switches.of_current finishedCurrent) parks call)

/-! ## Steps of a run -/

theorem returning_eq_some {result : Option (Status × Kernel)}
    (call : returning result = some (transfer, after)) :
    ∃ status, result = some (status, after) := by
  obtain ⟨⟨status, _⟩, found, same⟩ := Option.map_eq_some_iff.mp call
  cases same
  exact ⟨status, found⟩

theorem completing_eq_some {result : Option Kernel}
    (call : completing result = some (transfer, after)) : result = some after := by
  obtain ⟨_, found, same⟩ := Option.map_eq_some_iff.mp call
  cases same
  exact found

variable {op : Op}

/-- An operation is a sequence of moves within any scope that admits it. -/
theorem exec_moves (operational : kernel.Operational)
    (executing : op ≠ .resume → kernel.Executing) (admitted : scope.Admits kernel op)
    (call : kernel.exec env op = some (transfer, after)) :
    scope.Moves kernel after := by
  cases op with
  | createProcess =>
    obtain ⟨status, call⟩ := returning_eq_some call
    exact createProcess_moves operational call
  | createThread =>
    obtain ⟨status, call⟩ := returning_eq_some call
    exact createThread_moves operational admitted call
  | setLauncher =>
    cases call
    exact .single (.setLauncher _ _ _)
  | enqueue id =>
    obtain ⟨status, call⟩ := returning_eq_some call
    exact .single (.core _ (.request id admitted) (.inr rfl)
      (enqueue_run operational.current [.requested id] (.inr rfl) call).1)
  | setCurrentPriority =>
    exact setCurrentPriority_moves operational (executing nofun) admitted.1 admitted.2 call
  | setThreadPriority =>
    exact setThreadPriority_moves operational (executing nofun) admitted.1 admitted.2 call
  | blockCurrent =>
    have plain : Plain .blockCurrent := ⟨nofun, nofun⟩
    exact (blockCurrent_moves operational (executing nofun)
      (admitted.1.ends admitted.2 plain) (.plain _ _ plain) call).moves
  | blockCurrentFor reason =>
    have timed : Plain (.blockCurrentFor reason) := ⟨nofun, nofun⟩
    have untimed : Plain .blockCurrent := ⟨nofun, nofun⟩
    exact (blockCurrentFor_moves operational (executing nofun) (admitted.1.ends admitted.2 timed)
      timed (admitted.1.ends admitted.2 untimed) untimed call).moves
  | sleepCurrent =>
    exact sleepCurrent_moves operational (executing nofun)
      (admitted.1.ends admitted.2 ⟨nofun, nofun⟩) call
  | yield => exact yield_moves operational (executing nofun) admitted call
  | poll => exact poll_moves operational (executing nofun) admitted call
  | timerTick => exact timerTick_moves operational (completing_eq_some call)
  | lowerElTimerIrq => exact handleLowerElTimerIrq_moves operational (executing nofun) admitted call
  | currentElTimerIrq =>
    exact handleCurrentElTimerIrq_moves operational (executing nofun) admitted call
  | reapRetired => exact reap_moves operational _ (completing_eq_some call)
  | exitThread =>
    obtain ⟨-, -, -, -, moves⟩ :=
      exitCurrentThread_moves operational (executing nofun) admitted call
    exact moves
  | serviceExit => exact serviceExit_moves operational (executing nofun) admitted.1 admitted.2 call
  | serviceKill =>
    obtain ⟨status, call⟩ := returning_eq_some call
    exact serviceKill_moves operational admitted.1 admitted.2 call
  | terminateLaunched =>
    simp only [exec] at call
    split at call
    · cases call
    · rename_i id current
      obtain ⟨status, call⟩ := returning_eq_some call
      exact terminateLaunched_moves operational admitted.1 current
        (fun other process found inTree => admitted.2 id other process _ current found inTree)
        call
  | reapExiting =>
    refine reapExitingFrom_moves admitted.1 env.rounds operational
      (fun _ current => current) ?_ (completing_eq_some call)
    intro _ kept id process found notCurrent exiting notPermanent
    obtain ⟨old, oldFound, stillExiting⟩ := kept.exiting id process found exiting
    obtain ⟨_, sameFound, permanent, -⟩ := kept.links id process found
    cases oldFound.symm.trans sameFound
    exact admitted.2 id old oldFound notCurrent stillExiting (permanent.symm.trans notPermanent)
  | consumeExitStatus =>
    cases call
    exact consumeExitStatus_moves
  | subscribe =>
    cases call
    exact subscribe_moves admitted rfl
  | unsubscribe =>
    obtain ⟨status, call⟩ := returning_eq_some call
    exact unsubscribe_moves operational admitted call
  | readEvents =>
    cases call
    exact readEvents_moves
  | eventWait => exact eventWait_moves operational (executing nofun) admitted.1 admitted.2 call
  | publishVfs | publishRegistration =>
    exact .single (.core _ (.external admitted) (.inr rfl)
      (runs.publish _ operational.current (.inr rfl) (calm_cons rfl _) (completing_eq_some call)))
  | ipcSend =>
    obtain ⟨status, call⟩ := returning_eq_some call
    exact serviceIpcSend_moves operational call
  | ipcNotify =>
    obtain ⟨_, call⟩ := returning_eq_some call
    exact ipcEnqueue_moves operational call
  | ipcReceive =>
    exact ipcReceiveLoop_moves operational (executing nofun) admitted.1 admitted.2 call
  | resume => exact resume_moves operational admitted.1 admitted.2 call

theorem Permits.Blocks.switches (blocks : permits.Blocks) : permits.scope.Switches kernel :=
  ⟨blocks.dispatch, fun continuation plain => blocks.suspend continuation plain.1,
    fun _ _ => trivial⟩

theorem Permits.Blocks.ends (blocks : permits.Blocks) {continuation : Continuation}
    (suspends : permits.suspend continuation) : permits.scope.Ends kernel continuation :=
  ⟨blocks.dispatch, suspends, fun _ _ => trivial, trivial⟩

/-- Permissions alone admit what they allow. -/
theorem Permits.Allows.admits (allowed : permits.Allows op) : permits.scope.Admits kernel op := by
  cases op with
  | createThread => exact allowed
  | setCurrentPriority => exact ⟨Permits.Blocks.switches allowed, fun _ _ => trivial⟩
  | setThreadPriority | blockCurrent | blockCurrentFor | sleepCurrent | ipcReceive | resume =>
    exact ⟨Permits.Blocks.switches allowed, trivial⟩
  | serviceKill => exact ⟨allowed, fun _ _ _ _ _ => trivial⟩
  | terminateLaunched => exact ⟨allowed, fun _ _ _ _ _ _ _ _ _ => trivial⟩
  | reapExiting => exact ⟨allowed, fun _ _ _ _ _ _ => trivial⟩
  | serviceExit => exact ⟨allowed.1, allowed.2.ends (allowed.2.suspend _ fun _ => nofun)⟩
  | exitThread => exact Permits.Blocks.ends allowed (allowed.suspend _ fun _ => nofun)
  | eventWait => exact ⟨allowed.1.ends allowed.2, trivial⟩
  | yield | poll | lowerElTimerIrq | currentElTimerIrq => exact Permits.Blocks.switches allowed
  | _ => trivial

/-- A call other than a resumption is made by a thread running its own code. -/
theorem executing_of_startable (starts : kernel.startable op = true) (calls : op ≠ .resume) :
    kernel.Executing := by
  intro _ _ current found
  have executes : kernel.executing = true := by
    cases op <;> first | exact starts | exact absurd rfl calls
  simpa [Kernel.executing, current, found] using executes

/-- What an operation needs does not depend on the heap. -/
theorem Scope.Admits.charged (admitted : scope.Admits kernel op) (outcomes : List Bool) :
    scope.Admits { kernel with heapOutcomes := outcomes } op := by
  cases op with
  | terminateLaunched =>
    have links : LinksKept kernel { kernel with heapOutcomes := outcomes } :=
      (ProcessesKept.of_processes rfl).links
    refine ⟨admitted.1, fun root id process rounds current found inTree => ?_⟩
    exact admitted.2 root id process rounds current found (processIsInTree_of_links links inTree)
  | setCurrentPriority | setThreadPriority | blockCurrent | blockCurrentFor | sleepCurrent
  | ipcReceive | resume => exact ⟨admitted.1.of_current rfl, admitted.2⟩
  | yield | poll | lowerElTimerIrq | currentElTimerIrq =>
    exact Scope.Switches.of_current admitted rfl
  | exitThread => exact Scope.Ends.of_current admitted rfl
  | serviceExit => exact ⟨admitted.1, admitted.2.of_current rfl⟩
  | eventWait => exact ⟨admitted.1.of_current rfl, admitted.2⟩
  | _ => exact admitted

/-- A step of a run is a sequence of moves within any scope that admits it. -/
theorem Step.moves (step : kernel.Step op transfer after) (operational : kernel.Operational)
    (admitted : scope.Admits kernel op) :
    scope.Moves kernel after := by
  obtain ⟨starts, _, outcomes, call⟩ := step
  have charged : scope.Moves kernel { kernel with heapOutcomes := outcomes } :=
    heapOutcomes_moves outcomes
  exact charged.trans (exec_moves (charged.operational operational)
      (by exact executing_of_startable starts)
    (admitted.charged outcomes) call)

end

/-- Every step is permitted. -/
def Permits.all : Permits := ⟨fun _ => True, True, True, True⟩

theorem Permits.all_blocks : Permits.all.Blocks := ⟨trivial, fun _ _ => trivial⟩

theorem operational_booted
    (processName threadName : Text) {pageTableRoot : ℕ} (table : pageTableRoot ≠ 0) :
    (booted processName threadName pageTableRoot).Operational where
  current := rfl
  idle := rfl
  tables id process found := by
    rw [process_booted] at found
    split at found
    · cases found
      exact table
    · cases found

variable {condition : Kernel → Op → Prop}

/-! ## The scope of an operation -/

/-- The continuations an operation may leave its caller with. -/
def leaves : Op → Continuation → Prop
  | .exitThread, continuation => continuation = .exited
  | .serviceExit _, continuation => continuation = .exited
  | .eventWait _ subscription, continuation => continuation = .eventWait subscription
  | _, continuation => Plain continuation

/-- The processes an operation destroys on its caller's behalf. -/
def Dooms (kernel : Kernel) : Op → ProcessId → Prop
  | .serviceKill target, id => id = target ∧ kernel.currentProcess ≠ some target ∧
      ∃ process, kernel.process target = some process ∧ process.kernelObject = false ∧
        process.permanent = false
  | .terminateLaunched _, id => ∃ root process rounds,
      kernel.currentProcess = some root ∧ kernel.process id = some process ∧
        kernel.processIsInTree rounds id root = some true ∧ id ≠ root ∧
        process.permanent = false
  | .reapExiting, id => kernel.currentProcess ≠ some id ∧
      ∃ process, kernel.process id = some process ∧ process.currentState = .exiting ∧
        process.permanent = false
  | _, _ => False

/-- The operations in which the caller waits or exits. -/
def parks : Op → Bool
  | .blockCurrent _ | .blockCurrentFor .. | .sleepCurrent _ | .eventWait .. | .ipcReceive _
  | .exitThread | .serviceExit _ | .resume => true
  | _ => false

/-- What an operation does in a state, and to which objects. -/
def scopeOf (kernel : Kernel) (op : Op) : Scope where
  suspend := leaves op
  mark := True
  spawn := ∃ parent name start basePriority quantumTicks userThread,
    op = .createThread parent name start basePriority quantumTicks userThread
  dispatch := True
  caller id := kernel.currentThread = some id
  park := parks op = true
  request id := op = .enqueue id
  publish := (∃ type path nodeType status, op = .publishVfs type path nodeType status) ∨
    ∃ type name status, op = .publishRegistration type name status
  prioritise id priority := op = .setThreadPriority id priority ∨
    op = .setCurrentPriority priority ∧ kernel.currentThread = some id
  subscribe owner request := op = .subscribe owner request
  unsubscribe owner subscription := op = .unsubscribe owner subscription
  wait owner subscription := op = .eventWait owner subscription
  destroy := kernel.Dooms op

theorem scopeOf_admits (kernel : Kernel) (op : Op) : (kernel.scopeOf op).Admits kernel op := by
  cases op with
  | createThread => exact ⟨_, _, _, _, _, _, rfl⟩
  | setCurrentPriority =>
    exact ⟨⟨trivial, fun _ plain => plain, fun _ current => current⟩,
      fun id current => .inr ⟨rfl, current⟩⟩
  | setThreadPriority => exact ⟨⟨trivial, fun _ plain => plain, fun _ current => current⟩, .inl rfl⟩
  | serviceKill =>
    exact ⟨trivial, fun process found notCurrent notKernel notPermanent =>
      ⟨rfl, notCurrent, process, found, notKernel, notPermanent⟩⟩
  | terminateLaunched =>
    exact ⟨trivial, fun root id process rounds current found inTree notRoot notPermanent =>
      ⟨root, process, rounds, current, found, inTree, notRoot, notPermanent⟩⟩
  | reapExiting =>
    exact ⟨trivial, fun _ process found notCurrent exiting notPermanent =>
      ⟨notCurrent, process, found, exiting, notPermanent⟩⟩
  | serviceExit => exact ⟨trivial, trivial, rfl, fun _ current => current, rfl⟩
  | exitThread => exact ⟨trivial, rfl, fun _ current => current, rfl⟩
  | eventWait => exact ⟨⟨trivial, rfl, fun _ current => current, rfl⟩, rfl⟩
  | publishVfs type path nodeType status => exact .inl ⟨type, path, nodeType, status, rfl⟩
  | publishRegistration type name status => exact .inr ⟨type, name, status, rfl⟩
  | enqueue | subscribe | unsubscribe => rfl
  | blockCurrent | blockCurrentFor | sleepCurrent | ipcReceive | resume =>
    exact ⟨⟨trivial, fun _ plain => plain, fun _ current => current⟩, rfl⟩
  | yield | poll | lowerElTimerIrq | currentElTimerIrq =>
    exact ⟨trivial, fun _ plain => plain, fun _ current => current⟩
  | _ => trivial

variable {inv : Scope → Stage × Kernel → Prop}

/-- An invariant of the moves is carried through a step. -/
theorem Step.carries (preserved : ∀ {scope before after}, KernelMove scope before after →
      before.2.Operational → inv scope before → inv scope after)
    {kernel after : Kernel} {op : Op} {transfer : Transfer} (step : kernel.Step op transfer after)
    (operational : kernel.Operational) (start : inv (kernel.scopeOf op) (.running, kernel)) :
    after.Operational ∧ inv (kernel.scopeOf op) (.running, after) := by
  have moves := step.moves operational (scopeOf_admits kernel op)
  refine ⟨moves.operational operational, ?_⟩
  unfold Scope.Moves at moves
  generalize (Stage.running, after) = final at moves
  induction moves with
  | refl => exact start
  | tail earlier move ih => exact preserved move (KernelMoves.operational earlier operational) ih

variable {property : Kernel → Prop}

/-- A property of the states between operations that an invariant of the moves
carries through each of them. -/
theorem Reachable.of_moves (booting : ∀ processName threadName pageTableRoot, pageTableRoot ≠ 0 →
      property (booted processName threadName pageTableRoot))
    (starts : ∀ {kernel op}, condition kernel op → kernel.Operational → property kernel →
      inv (kernel.scopeOf op) (.running, kernel))
    (preserved : ∀ {scope before after}, KernelMove scope before after →
      before.2.Operational → inv scope before → inv scope after)
    (ends : ∀ {scope kernel}, inv scope (.running, kernel) → property kernel)
    {kernel : Kernel} (reachable : Reachable condition kernel) :
    kernel.Operational ∧ property kernel := by
  induction reachable with
  | boot _ _ _ table => exact ⟨operational_booted _ _ table, booting _ _ _ table⟩
  | step _ meets step ih =>
    obtain ⟨operational, holds⟩ := ih
    exact (step.carries preserved operational (starts meets operational holds)).imp_right ends

/-- A property of the boot state that every move keeps holds in every reached state. -/
theorem Reachable.induction (booting : ∀ processName threadName pageTableRoot, pageTableRoot ≠ 0 →
      property (booted processName threadName pageTableRoot))
    (preserved : ∀ {scope : Scope} {before after : Stage × Kernel},
      KernelMove scope before after → property before.2 → property after.2)
    {kernel : Kernel} (reachable : Reachable condition kernel) :
    kernel.Operational ∧ property kernel :=
  reachable.of_moves booting (fun _ _ holds => holds) (fun move _ holds => preserved move holds)
    id

theorem Reachable.operational {kernel : Kernel} (reachable : Reachable condition kernel) :
    kernel.Operational :=
  (@Reachable.induction condition (fun _ => True) (fun _ _ _ _ => trivial) (fun _ _ => trivial) _
    reachable).1

end RosKernel.Kernel
