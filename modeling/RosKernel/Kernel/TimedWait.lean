import RosKernel.Kernel.ExecPaths

/-!
# Timed waits

`block_current_for` decides after the switch whether it timed out, from the wait
status and the wake tick of the thread. Both ways out of the wait go through
`transition_thread_to_ready`, which clears the two fields, so the decision no
longer sees which of them it was.
-/

namespace RosKernel.Kernel

open Option

/-- What is known about the wake tick of a thread that may be the idle thread and
may be the current one. -/
structure TickSettled (isIdle isCurrent : Prop) (thread : Thread) : Prop where
  settled : thread.currentState ≠ .waiting → thread.currentState ≠ .terminated → thread.wakeTick = 0
  idle : isIdle → thread.wakeTick = 0
  /-- A current thread that has yet to finish the call it was switched out of. -/
  switchedIn : isCurrent → thread.continuation ≠ .executing → Awake thread

/-- Wake ticks are left in threads that wait, or that were terminated waiting. -/
def WakeTicks (kernel : Kernel) : Prop :=
  ∀ id thread, kernel.thread id = some thread →
    TickSettled (kernel.idleThread = some id) (kernel.currentThread = some id) thread

variable {isIdle isCurrent : Prop}

/-- A write that leaves state, wake tick and continuation alone. -/
theorem TickSettled.of_same {old written : Thread} (holds : TickSettled isIdle isCurrent old)
    (currentState : written.currentState = old.currentState)
    (wakeTick : written.wakeTick = old.wakeTick)
    (continuation : written.continuation = old.continuation) :
    TickSettled isIdle isCurrent written := by
  constructor
  · rw [currentState, wakeTick]
    exact holds.settled
  · rw [wakeTick]
    exact holds.idle
  · unfold Awake
    rw [currentState, wakeTick, continuation]
    exact holds.switchedIn

theorem TickSettled.of_clear {thread : Thread} (clear : thread.wakeTick = 0)
    (awake : thread.currentState ≠ .waiting) : TickSettled isIdle isCurrent thread :=
  ⟨fun _ _ => clear, fun _ => clear, fun _ _ => ⟨awake, fun _ => clear⟩⟩

theorem ThreadWrite.tickSettled {old written : Thread} (write : ThreadWrite isCurrent old written)
    (holds : TickSettled isIdle isCurrent old) :
    TickSettled isIdle isCurrent written := by
  have sameContinuation : written.continuation = old.continuation := by cases write <;> rfl
  constructor
  · cases write <;> first | exact holds.settled | exact fun _ _ => rfl
  · cases write <;> first | exact holds.idle | exact fun _ => rfl
  · rw [sameContinuation]
    exact fun isCurrent suspended => write.awake (holds.switchedIn isCurrent suspended)

namespace WakeTicks

variable {kernel after : Kernel}

section

variable (holds : kernel.WakeTicks)
include holds

theorem of_core {frames others : List Frame}
    (run : CoreRun (frames, kernel) (others, after)) : after.WakeTicks := by
  intro id
  rw [run.frame.idleThread, run.frame.currentThread]
  exact run.thread_closed _ (fun _ _ write => write.tickSettled) (holds id)

theorem of_rewrites {target : ThreadId} {update : Thread → Thread}
    (rewritten : Rewrites kernel after target update)
    (idleThread : after.idleThread = kernel.idleThread)
    (currentThread : after.currentThread = kernel.currentThread)
    (kept : ∀ thread, kernel.thread target = some thread →
      TickSettled (kernel.idleThread = some target) (kernel.currentThread = some target) thread →
      TickSettled (kernel.idleThread = some target) (kernel.currentThread = some target)
        (update thread)) : after.WakeTicks := by
  intro id thread found
  rw [idleThread, currentThread]
  rcases written_cases (rewritten _) found with ⟨rfl, old, oldFound, rfl⟩ | ⟨-, found⟩
  · exact kept old oldFound (holds id old oldFound)
  · exact holds id thread found

theorem of_registry (threads : after.threads = kernel.threads)
    (idleThread : after.idleThread = kernel.idleThread)
    (currentThread : after.currentThread = kernel.currentThread) : after.WakeTicks := by
  unfold WakeTicks Kernel.thread
  rw [threads, idleThread, currentThread]
  exact holds

/-- The thread a switch picked has no wake tick. -/
theorem chosen {id : ThreadId} {thread : Thread} (found : kernel.thread id = some thread)
    (eligible : threadIsRunnable thread = true ∨ kernel.idleThread = some id) :
    thread.wakeTick = 0 := by
  rcases eligible with runnable | isIdle
  · obtain ⟨notWaiting, alive⟩ := awake_of_threadIsRunnable runnable
    exact (holds id thread found).settled notWaiting alive
  · exact (holds id thread found).idle isIdle

end

theorem of_move {scope : Scope} {before after : Stage × Kernel} (holds : before.2.WakeTicks)
    (move : KernelMove scope before after) : after.2.WakeTicks := by
  cases move with
  | core _ _ _ run => exact holds.of_core run
  | createThread =>
    intro id thread found
    rcases Registry.of_insert found with rfl | found
    · exact .of_clear rfl (by simp [newThread])
    · exact holds id thread found
  | quantum | priority | lower | push | relink =>
    exact holds.of_rewrites (.modify rfl) rfl rfl fun _ _ settled => settled.of_same rfl rfl rfl
  | pop =>
    rw [readyQueueRemove_eq]
    exact holds.of_rewrites (thread_readyQueueRemove _ _ ·) rfl rfl
      fun _ _ settled => settled.of_same rfl rfl rfl
  | requeue _ _ _ thread resetRequeuedQuantum _ _ found running =>
    refine holds.of_rewrites (.modify rfl) rfl rfl fun old oldFound settled => ?_
    cases found.symm.trans oldFound
    have clear : thread.wakeTick = 0 := settled.settled (by simp [running]) (by simp [running])
    cases resetRequeuedQuantum <;> exact .of_clear clear (by simp [resetQuantum])
  | park _ _ _ _ _ _ _ _ _ notIdle found _ executing =>
    refine holds.of_rewrites (.modify rfl) rfl rfl fun old oldFound settled => ?_
    cases found.symm.trans oldFound
    exact ⟨fun notWaiting => absurd rfl notWaiting, fun isIdle => absurd isIdle notIdle,
      fun _ suspended => absurd executing suspended⟩
  | retire _ _ _ _ _ notIdle found _ executing =>
    refine holds.of_rewrites (.modify rfl) rfl rfl fun old oldFound settled => ?_
    cases found.symm.trans oldFound
    exact ⟨fun _ alive => absurd rfl alive, fun isIdle => absurd isIdle notIdle,
      fun _ suspended => absurd executing suspended⟩
  | selfSwitch _ _ _ _ fit =>
    refine holds.of_rewrites (.modify rfl) rfl rfl fun thread found settled => ?_
    have clear : thread.wakeTick = 0 := by
      refine holds.chosen found ?_
      rcases fit thread found with (⟨ready, -⟩ | isIdle) | ⟨-, runnable⟩
      · exact .inl (by simp [threadIsRunnable, ready])
      · exact .inr isIdle
      · exact .inl runnable
    exact .of_clear clear (by simp [resetQuantum])
  | bind _ _ _ thread _ found _ fit =>
    have clear : thread.wakeTick = 0 := by
      refine holds.chosen found (fit.imp_left ?_)
      rintro ⟨ready, -⟩
      simp [threadIsRunnable, ready]
    rw [startRunning_eq]
    refine holds.of_rewrites (.modify rfl) rfl rfl fun _ oldFound _ => ?_
    cases found.symm.trans oldFound
    exact .of_clear clear (by simp)
  | switchIn _ _ _ _ notCurrent awake =>
    intro other _ found
    rw [idleThread_switchIn, currentThread_switchIn]
    obtain ⟨old, oldFound, cases⟩ := thread_switchIn notCurrent found
    have settled := holds other old oldFound
    rcases cases with ⟨rfl, rfl⟩ | ⟨isOther, -, rfl⟩ | ⟨isOther, -, rfl⟩
    · exact ⟨settled.settled, settled.idle, fun _ _ => awake old oldFound⟩
    all_goals exact ⟨settled.settled, settled.idle,
      fun isCurrent => absurd (Option.some.inj isCurrent).symm isOther⟩
  | resumed =>
    refine holds.of_rewrites (.modify rfl) rfl rfl fun thread _ settled => ?_
    exact ⟨settled.settled, settled.idle, fun _ suspended => absurd rfl suspended⟩
  | finishWait _ _ _ _ _ _ kept =>
    refine holds.of_rewrites (.modify rfl) rfl rfl fun thread _ settled => ?_
    rcases kept thread with same | zero
    · exact settled.of_same rfl same rfl
    · refine ⟨fun _ _ => zero, fun _ => zero, fun isCurrent suspended => ?_⟩
      exact ⟨(settled.switchedIn isCurrent suspended).1, fun _ => zero⟩
  | _ => exact holds.of_registry rfl rfl rfl

theorem booting (processName threadName : Text) (pageTableRoot : ℕ) :
    (booted processName threadName pageTableRoot).WakeTicks := by
  intro _ _ found
  rw [thread_booted] at found
  split at found
  · cases found
    exact .of_clear rfl (by simp [bootIdleThread, newThread])
  split at found
  · cases found
    exact .of_clear rfl (by simp [bootThread])
  · cases found

end WakeTicks

variable {kernel : Kernel}

theorem Reachable.wakeTicks {condition : Kernel → Op → Prop}
    (reachable : Reachable condition kernel) :
    kernel.Operational ∧ kernel.WakeTicks :=
  reachable.induction (fun _ _ _ _ => .booting _ _ _) fun move holds => holds.of_move move

/-! ## The verdict of a resumed wait -/

section

variable {env : Env} [env.Runs] {kernel reaped after : Kernel} {id : ThreadId} {thread : Thread}

/-- The wake tick of a thread that was switched in is clear. -/
theorem WakeTicks.switchedIn_clear (holds : kernel.WakeTicks)
    (current : kernel.currentThread = some id) (found : kernel.thread id = some thread)
    (suspended : thread.continuation ≠ .executing) : thread.wakeTick = 0 := by
  have settled := holds id thread found
  have awake := settled.switchedIn current suspended
  by_cases terminated : thread.currentState = .terminated
  · exact awake.2 terminated
  · exact settled.settled awake.1 terminated

variable (operational : kernel.Operational) (holds : kernel.WakeTicks)
    (current : kernel.currentThread = some id) (found : kernel.thread id = some thread)
include operational holds current found

/-- Destroying retired threads leaves the wake tick of the resumed thread clear. -/
theorem not_timedOut_of_resumed (suspended : thread.continuation ≠ .executing)
    (reaping : (kernel.resumeExecution id).reapRetiredThreads env env.rounds = some reaped)
    (reason : WaitReason) : reaped.timedOut reason = false := by
  have run : CoreRun ([], kernel.resumeExecution id) ([], reaped) :=
    reapRetiredThreads_run [] env.rounds (by exact operational.current) calm_nil reaping
  have clear : ∀ written, reaped.thread id = some written → written.wakeTick = 0 := by
    refine run.thread_closed (fun thread => thread.wakeTick = 0) ?_ ?_
    · intro old written write zero
      cases write <;> first | exact zero | rfl
    · intro _ oldFound
      unfold resumeExecution at oldFound
      rw [thread_modifyThread, if_pos rfl, found] at oldFound
      cases oldFound
      have clear : thread.wakeTick = 0 := holds.switchedIn_clear current found suspended
      exact clear
  have stillCurrent : reaped.currentThread = some id := run.frame.currentThread.trans current
  cases remaining : reaped.thread id with
  | none => simp [timedOut, stillCurrent, remaining]
  | some written => simp [timedOut, stillCurrent, remaining, clear written remaining]

/-- A thread resumed in `block_current_for` is told that it was woken in time. -/
theorem resume_blockCurrentFor
    {reason : WaitReason} (suspended : thread.continuation = .blockCurrentFor reason)
    {transfer : Transfer} (call : kernel.resume env = some (transfer, after)) :
    transfer = .returned .ok := by
  simp only [resume, current, found, suspended, bind_eq_bind, bind_some, bind_eq_some_iff] at call
  obtain ⟨_, reaping, result⟩ := call
  have inTime := not_timedOut_of_resumed operational holds current found
    (by simp [suspended]) reaping reason
  simp only [blockCurrentForTail, inTime] at result
  cases result
  rfl

end

/-! ## A receive that timed out -/

variable {pid : ProcessId} {before after : List Frame × Kernel}

/-- The core never ends the process of the current thread. -/
theorem CoreMove.currentProcess_alive
    (move : CoreMove before after) (current : before.2.currentProcess = some pid)
    (alive : before.2.ipcProcessAlive pid = true) : after.2.ipcProcessAlive pid = true := by
  have occupied : before.2.processThreads pid ≠ [] := by
    simp only [Kernel.currentProcess, bind_eq_some_iff] at current
    obtain ⟨id, -, thread, found, parent⟩ := current
    exact List.ne_nil_of_mem (mem_processThreads_iff.mpr ⟨thread, found, parent⟩)
  cases move with
  | revive =>
    simp only [ipcProcessAlive, process_modifyProcess, any_eq_true, decide_eq_true_eq] at alive ⊢
    obtain ⟨process, found, live⟩ := alive
    split
    · refine ⟨reviveProcess process, by rw [found]; rfl, ?_⟩
      unfold reviveProcess
      split
      · exact live
      · simp
    · exact ⟨process, found, live⟩
  | closeProcess _ _ id empty =>
    have other : pid ≠ id := fun same => occupied (same ▸ empty)
    simp only [ipcProcessAlive, process_modifyProcess, if_neg other]
    exact alive
  | removeProcess _ _ id empty =>
    have other : pid ≠ id := fun same => occupied (same ▸ empty)
    simp only [ipcProcessAlive, Kernel.process, Registry.lookup_remove, if_neg other,
      orphanLaunchedProcesses, any_eq_true, decide_eq_true_eq] at alive ⊢
    obtain ⟨process, found, live⟩ := alive
    split
    · exact ⟨process, found, live⟩
    · rw [Registry.lookup_mapEntries, found]
      refine ⟨_, rfl, ?_⟩
      dsimp only
      split <;> exact live
  | announce =>
    rw [requestReschedule_eq]
    exact alive
  | _ => exact alive

theorem CoreRun.currentProcess_alive
    (run : CoreRun before after) (current : after.2.currentProcess = some pid)
    (alive : before.2.ipcProcessAlive pid = true) : after.2.ipcProcessAlive pid = true := by
  induction run with
  | refl => exact alive
  | tail _ move ih =>
    have earlier := move.frame.currentProcess current
    exact move.currentProcess_alive earlier (ih earlier)

/-- No packet is queued for a process. -/
def noMessage (kernel : Kernel) (pid : ProcessId) : Prop :=
  ∀ queue, kernel.ipcFindQueue pid = some queue → queue.messages = []

theorem ipcDequeue_of_noMessage
    (alive : kernel.ipcProcessAlive pid = true) (none : kernel.noMessage pid) :
    kernel.ipcDequeue pid = (.busy, .none, kernel) := by
  unfold ipcDequeue
  rw [alive]
  cases queued : kernel.ipcFindQueue pid with
  | none => rfl
  | some queue => simp [none queue queued]

/-- Sweeping keeps the queue of a live process. -/
theorem ipcFindQueue_ipcSweepDeadQueues (alive : kernel.ipcProcessAlive pid = true) :
    kernel.ipcSweepDeadQueues.ipcFindQueue pid = kernel.ipcFindQueue pid := by
  unfold ipcFindQueue ipcSweepDeadQueues
  rw [List.find?_filter]
  congr 1
  funext queue
  by_cases same : queue.pid = pid
  · simp [same, alive]
  · simp [same]

variable {transfer : Transfer}

section

variable {env : Env} [env.Runs] {kernel after : Kernel} {id : ThreadId} {thread : Thread}
  {pid : ProcessId}

/-- Without a packet, a running thread blocks in the first round of the loop. -/
theorem ipcReceiveLoop_switches (operational : kernel.Operational)
    (executing : kernel.Executing) (current : kernel.currentThread = some id)
    (notIdle : kernel.idleThread ≠ some id)
    (running : ∀ thread, kernel.thread id = some thread → thread.currentState = .running)
    (alive : ∀ pid, kernel.currentProcess = some pid → kernel.ipcProcessAlive pid = true)
    (empty : ∀ pid, kernel.currentProcess = some pid → kernel.noMessage pid)
    {request : IpcReceive} (waits : request.flags % 2 = 1) {rounds : ℕ}
    (call : kernel.ipcReceiveLoop env request rounds = some (transfer, after)) :
    transfer = .switched := by
  cases rounds with
  | zero => cases call
  | succ =>
    simp only [ipcReceiveLoop, bind_eq_some] at call
    obtain ⟨pid, process, call⟩ := call
    have noneQueued : kernel.ipcSweepDeadQueues.noMessage pid := by
      unfold noMessage
      rw [ipcFindQueue_ipcSweepDeadQueues (alive pid process)]
      exact empty pid process
    rw [ipcDequeue_of_noMessage (by exact alive pid process) noneQueued] at call
    rw [if_neg (by simp), if_neg (by simp [waits])] at call
    simp only [bind_eq_some] at call
    obtain ⟨⟨_, _⟩, block, call⟩ := call
    have swept : kernel.ipcSweepDeadQueues.Operational :=
      { operational with }
    rcases ipcBlock_moves swept (by exact executing)
      Permits.all_blocks.switches trivial block with ⟨rfl, -⟩ | ⟨-, -, -, refused⟩
    · cases call
      rfl
    · exact absurd refused
        (not_notBlockable (by exact current) (by exact notIdle) (by exact running))

/-- The code behind the switch only clears wait fields of the current thread. -/
theorem ipcBlockTail_eq (inTime : kernel.timedOut .message = false) (request : IpcReceive) :
    ∃ update : Thread → Thread, (∀ thread, (update thread).currentState = thread.currentState ∧
        (update thread).parent = thread.parent) ∧
      kernel.ipcBlockTail request = (.ok, kernel.modifyCurrent update) := by
  unfold ipcBlockTail
  split
  · refine ⟨fun thread => { thread with waitStatus := .none, wakeTick := 0 },
      fun _ => ⟨rfl, rfl⟩, ?_⟩
    simp [blockCurrentForTail, timedWaitCleanup, inTime]
  · refine ⟨fun thread => { thread with waitStatus := .none }, fun _ => ⟨rfl, rfl⟩, ?_⟩
    simp [blockCurrentTail]

/-- A receive that is resumed without a packet parks again, whatever woke it. -/
theorem resume_ipcReceive (operational : kernel.Operational)
    (holds : kernel.WakeTicks) (current : kernel.currentThread = some id)
    (notIdle : kernel.idleThread ≠ some id) (found : kernel.thread id = some thread)
    (running : thread.currentState = .running) (parent : thread.parent = some pid)
    (alive : kernel.ipcProcessAlive pid = true) (empty : kernel.noMessage pid)
    {request : IpcReceive} (suspended : thread.continuation = .ipcReceive request)
    (waits : request.flags % 2 = 1) (call : kernel.resume env = some (transfer, after)) :
    transfer = .switched := by
  simp only [resume, current, found, suspended, bind_eq_bind, bind_some, bind_eq_some_iff] at call
  obtain ⟨reaped, reaping, call⟩ := call
  have inTime := not_timedOut_of_resumed operational holds current found
    (by simp [suspended]) reaping .message
  have run : CoreRun ([], kernel.resumeExecution id) ([], reaped) :=
    reapRetiredThreads_run [] env.rounds (by exact operational.current) calm_nil reaping
  have executing : (reaped.ipcBlockTail request).2.Executing :=
    executing_ipcBlockTail (run.frame.executing (executing_resumeExecution current)) _
  obtain ⟨update, kept, tail⟩ := ipcBlockTail_eq inTime request
  have stillCurrent : reaped.currentThread = some id := run.frame.currentThread.trans current
  have modified : reaped.modifyCurrent update = reaped.modifyThread id update := by
    simp [modifyCurrent, stillCurrent]
  rw [tail, modified] at executing call
  have samePid : ∀ other, (reaped.modifyThread id update).currentProcess = some other →
      reaped.currentProcess = some other ∧ other = pid := by
    intro other process
    rw [currentProcess_modifyThread _ _ fun thread => (kept thread).2] at process
    have old : kernel.currentProcess = some pid := by
      simp [Kernel.currentProcess, current, found, parent]
    have resumed : (kernel.resumeExecution id).currentProcess = some other :=
      run.frame.currentProcess process
    rw [resumeExecution, currentProcess_modifyThread _ _ (by intro _; rfl), old] at resumed
    exact ⟨process, (Option.some.inj resumed).symm⟩
  have stillOperational : reaped.Operational := run.frame.operational
    { operational with }
  have modifiedOperational : (reaped.modifyThread id update).Operational :=
    { stillOperational with }
  refine ipcReceiveLoop_switches modifiedOperational executing stillCurrent ?_ ?_ ?_ ?_ waits call
  · intro isIdle
    exact notIdle (run.frame.idleThread.symm.trans isIdle)
  · intro _ writtenFound
    obtain ⟨remaining, remainingFound, rfl⟩ := thread_of_modified writtenFound
    rw [(kept remaining).1]
    refine run.current_running current ?_ remaining remainingFound
    intro _ oldFound
    unfold resumeExecution at oldFound
    rw [thread_modifyThread, if_pos rfl, found] at oldFound
    cases oldFound
    exact running
  · intro other process
    obtain ⟨remains, rfl⟩ := samePid other process
    have stillAlive : reaped.ipcProcessAlive other = true := run.currentProcess_alive remains alive
    exact stillAlive
  · intro other process
    obtain ⟨-, rfl⟩ := samePid other process
    have sameQueues : reaped.ipcQueues = kernel.ipcQueues := run.ipcQueues
    intro queue queued
    have before : reaped.ipcFindQueue other = some queue := queued
    rw [ipcFindQueue, sameQueues] at before
    exact empty queue before

end

/-! ## Timeouts are not reported -/

/-- The result of a timed wait tells a timeout from a wake-up. -/
def ReportsCause (thread : Thread) (transfer : Transfer) : Prop :=
  (thread.wokenBy = some .timer → transfer = .returned .busy) ∧
    (thread.wokenBy = some .enqueue → transfer = .returned .ok)

/-- In every run, a timed wait reports its cause exactly when it was not ended by
the timer; a receive without a packet that was resumed parks once more. -/
theorem blockCurrentFor_reportsCause_iff
    {kernel : Kernel} (reachable : Reachable (fun _ _ => True) kernel)
    {id : ThreadId} {thread : Thread} (current : kernel.currentThread = some id)
    (found : kernel.thread id = some thread) {transfer : Transfer} {after : Kernel}
    (step : kernel.Step .resume transfer after) :
    (∀ reason, thread.continuation = .blockCurrentFor reason →
      (ReportsCause thread transfer ↔ thread.wokenBy ≠ some .timer)) ∧
    (∀ request pid, thread.continuation = .ipcReceive request →
      request.flags % 2 = 1 → receiveTimeoutMsec request.flags ≠ 0 →
      kernel.idleThread ≠ some id → thread.currentState = .running →
      thread.parent = some pid → kernel.ipcProcessAlive pid = true →
      kernel.noMessage pid → ¬ ∃ status, transfer = .returned status) := by
  obtain ⟨operational, holds⟩ := reachable.wakeTicks
  obtain ⟨-, _, outcomes, call⟩ := step
  have chargedOperational : ({ kernel with heapOutcomes := outcomes } : Kernel).Operational :=
    { operational with }
  have chargedTicks : ({ kernel with heapOutcomes := outcomes } : Kernel).WakeTicks := holds
  constructor
  · intro _ suspended
    have returned : transfer = .returned .ok :=
      resume_blockCurrentFor chargedOperational chargedTicks current
        found suspended call
    subst returned
    constructor
    · rintro ⟨timeout, -⟩ byTimer
      cases timeout byTimer
    · exact fun notTimer => ⟨fun byTimer => absurd byTimer notTimer, fun _ => rfl⟩
  · rintro _ _ suspended waits - notIdle running parent alive empty ⟨_, returned⟩
    have parked : transfer = .switched :=
      resume_ipcReceive chargedOperational chargedTicks current notIdle
        found running parent alive empty suspended waits call
    cases parked.symm.trans returned

/-- The boot thread waits for a message with a timeout of one tick, the idle thread
runs, the tick expires, and the idle thread switches back. -/
def timeoutRun : List Op :=
  [.blockCurrentFor .message 1, .resume, .timerTick, .poll 0]

/-- The wait of `timeoutRun` was ended by the timer, yet it returns success. -/
theorem blockCurrentFor_timeout_unreported :
    ∃ kernel thread after, Reachable (fun _ _ => True) kernel ∧ kernel.currentThread = some 1 ∧
        kernel.thread 1 = some thread ∧
        thread.continuation = .blockCurrentFor .message ∧
        thread.wokenBy = some .timer ∧
        kernel.Step .resume (.returned .ok) after ∧
        ¬ ReportsCause thread (.returned .ok) := by
  have ran : (booted [] [] 4096).run (fun _ _ => true) 3 timeoutRun = some _ := rfl
  refine ⟨_, _, _, .of_run (fun _ _ _ => trivial) ran, rfl, rfl, rfl, rfl, ⟨rfl, 3, [], rfl⟩, ?_⟩
  rintro ⟨timeout, -⟩
  cases timeout rfl

/-- The idle thread ends the wait before its tick. -/
def wakeUpRun : List Op :=
  [.blockCurrentFor .message 9, .resume, .enqueue 1, .poll 0]

/-- The boot thread waits a millisecond for a packet, which takes ten ticks. -/
def receiveRun : List Op :=
  [.ipcReceive ⟨257, true⟩, .resume, .poll 10]

/-- The wait of `wakeUpRun` reports its cause, and the receive of `receiveRun` goes on. -/
theorem blockCurrentFor_wakeUp_reported :
    (∃ kernel thread after, Reachable (fun _ _ => True) kernel ∧ kernel.thread 1 = some thread ∧
        thread.wokenBy = some .enqueue ∧ kernel.Step .resume (.returned .ok) after ∧
        ReportsCause thread (.returned .ok)) ∧
      ∃ kernel thread transfer after, Reachable (fun _ _ => True) kernel ∧
        kernel.thread 1 = some thread ∧ thread.wokenBy = some .timer ∧
        kernel.Step .resume transfer after ∧ ¬ ∃ status, transfer = .returned status := by
  have ran : (booted [] [] 4096).run (fun _ _ => true) 3 wakeUpRun = some _ := rfl
  have received : (booted [] [] 4096).run (fun _ _ => true) 3 receiveRun = some _ := rfl
  have woken : Reachable (fun _ _ => True) _ := .of_run (fun _ _ _ => trivial) ran
  have expired : Reachable (fun _ _ => True) _ := .of_run (fun _ _ _ => trivial) received
  refine ⟨⟨_, _, _, woken, rfl, rfl, ⟨rfl, 3, [], rfl⟩, ?_⟩,
    _, _, _, _, expired, rfl, rfl, ⟨rfl, 6, [], rfl⟩, ?_⟩
  · exact ((blockCurrentFor_reportsCause_iff woken rfl rfl ⟨rfl, 3, [], rfl⟩).1 .message rfl).mpr
      nofun
  · refine (blockCurrentFor_reportsCause_iff expired rfl rfl ⟨rfl, 6, [], rfl⟩).2 ⟨257, true⟩ 1 rfl
      rfl (by decide) (by decide) rfl rfl rfl ?_
    rintro _ ⟨⟩

end RosKernel.Kernel
