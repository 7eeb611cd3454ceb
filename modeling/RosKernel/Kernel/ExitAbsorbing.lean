import RosKernel.Kernel.Owners

/-!
# Exiting processes

A process that is exiting or terminated should stay so until it is destroyed.
`transition_thread_to_ready` leaves such a process alone; `bind_current_thread` puts
the process of the thread it dispatches in the running state whatever it was, so
that a thread left behind in an exiting process takes the process back.
-/

namespace RosKernel

open Registry

/-- The operations that may switch to another thread. -/
def Op.dispatches : Op → Bool
  | .setCurrentPriority _ => true
  | .setThreadPriority .. => true
  | .blockCurrent _ => true
  | .blockCurrentFor .. => true
  | .sleepCurrent _ => true
  | .yield => true
  | .poll _ => true
  | .lowerElTimerIrq => true
  | .currentElTimerIrq => true
  | .exitThread => true
  | .serviceExit _ => true
  | .eventWait .. => true
  | .ipcReceive _ => true
  | .resume => true
  | _ => false

namespace Kernel

/-- Whether a registered process is exiting or terminated. -/
def isExiting (kernel : Kernel) (pid : ProcessId) : Bool :=
  (kernel.process pid).any fun process => process.currentState.isExiting

/-- Whether a thread can still be dispatched. -/
def isDispatchable (kernel : Kernel) (id : ThreadId) (thread : Thread) : Bool :=
  decide (thread.currentState ≠ .terminated) || decide (kernel.idleThread = some id)

/-- The thread an operation ends. -/
def endedThread (kernel : Kernel) : Op → Option ThreadId
  | .exitThread => kernel.currentThread
  | .serviceExit _ => kernel.currentThread
  | _ => none

/-- The process an operation marks as exiting before it dispatches. -/
def endedProcess (kernel : Kernel) : Op → Option ProcessId
  | .serviceExit _ => kernel.currentProcess
  | _ => none

/-- An operation that dispatches finds no thread to dispatch in an exiting process,
nor in the process it ends itself. -/
def exitClean (kernel : Kernel) (op : Op) : Bool :=
  !op.dispatches || kernel.threads.entries.all fun entry =>
    !kernel.isDispatchable entry.1 entry.2 || kernel.endedThread op == some entry.1 ||
      entry.2.parent.all fun pid =>
        !kernel.isExiting pid && decide (kernel.endedProcess op ≠ some pid)

/-- No thread that can be dispatched belongs to an exiting process. -/
def NoneLeftBehind (kernel : Kernel) : Prop :=
  ∀ id thread pid process, kernel.thread id = some thread →
    (thread.currentState ≠ .terminated ∨ kernel.idleThread = some id) →
    thread.parent = some pid → kernel.process pid = some process →
    process.currentState.isExiting = false

/-- The process is exiting, terminated or already destroyed. -/
structure Absorbed (pid : ProcessId) (kernel : Kernel) : Prop where
  assigned : pid < kernel.processes.nextId
  exiting : ∀ process, kernel.process pid = some process → process.currentState.isExiting = true

section

variable {scope : Scope} {kernel after : Kernel} {pid : ProcessId}

/-! ## Exiting processes stay exiting -/

theorem Absorbed.of_processes (absorbed : kernel.Absorbed pid)
    (same : after.processes = kernel.processes) : after.Absorbed pid := by
  constructor
  · rw [same]
    exact absorbed.assigned
  · unfold Kernel.process
    rw [same]
    exact absorbed.exiting

variable {update : Process → Process}

theorem Absorbed.of_modifyProcess (absorbed : kernel.Absorbed pid) {target : ProcessId}
    (kept : ∀ process, kernel.process target = some process →
      process.currentState.isExiting = true →
      (update process).currentState.isExiting = true) :
    (kernel.modifyProcess target update).Absorbed pid := by
  refine ⟨absorbed.assigned, fun process found => ?_⟩
  rcases written_cases (process_modifyProcess ..) found with
    ⟨rfl, old, oldFound, rfl⟩ | ⟨-, found⟩
  · exact kept old oldFound (absorbed.exiting old oldFound)
  · exact absorbed.exiting process found

variable {before : List Frame × Kernel}

theorem CoreMove.absorbed {after : List Frame × Kernel} (move : CoreMove before after)
    (absorbed : before.2.Absorbed pid) : after.2.Absorbed pid := by
  cases move with
  | revive =>
    refine absorbed.of_modifyProcess fun process _ exiting => ?_
    rw [reviveProcess, if_pos exiting]
    exact exiting
  | closeProcess => exact absorbed.of_modifyProcess fun _ _ _ => rfl
  | removeProcess =>
    constructor
    · rw [nextId_remove, nextId_orphanLaunchedProcesses]
      exact absorbed.assigned
    · intro _ found
      obtain ⟨old, _, oldFound, rfl, -⟩ := process_orphanLaunchedProcesses (of_remove found)
      exact absorbed.exiting old oldFound
  | announce =>
    rw [requestReschedule_eq]
    exact absorbed.of_processes rfl
  | _ => exact absorbed.of_processes rfl

theorem CoreRun.absorbed {after : List Frame × Kernel} (run : CoreRun before after)
    (absorbed : before.2.Absorbed pid) : after.2.Absorbed pid := by
  induction run with
  | refl => exact absorbed
  | tail _ move ih => exact move.absorbed ih

/-- Only a dispatch could take a process back, and only the process of a thread
that was left behind. -/
theorem KernelMove.absorbed {before after : Stage × Kernel} (move : KernelMove scope before after)
    (clean : scope.dispatch → before.2.NoneLeftBehind)
    (absorbed : before.2.Absorbed pid) : after.2.Absorbed pid := by
  cases move with
  | core _ _ _ run => exact run.absorbed absorbed
  | createProcess =>
    refine ⟨Nat.lt_succ_of_lt absorbed.assigned, fun other found => ?_⟩
    exact absorbed.exiting other (of_insert_older absorbed.assigned found)
  | setLauncher => exact absorbed.of_modifyProcess fun _ _ exiting => exiting
  | markExiting | markTerminated => exact absorbed.of_modifyProcess fun _ _ _ => rfl
  | markTree =>
    refine ⟨absorbed.assigned, fun process found => ?_⟩
    rw [Kernel.process, lookup_mapEntries] at found
    obtain ⟨old, oldFound, rfl⟩ := Option.map_eq_some_iff.mp found
    split
    · unfold markForExit
      split <;> rfl
    · exact absorbed.exiting old oldFound
  | pop =>
    refine absorbed.of_processes ?_
    rw [readyQueueRemove_eq]
  | bind kernel _ id thread allowed found _ fit =>
    -- the process of the dispatched thread was not exiting to begin with
    have dispatchable : thread.currentState ≠ .terminated ∨ kernel.idleThread = some id :=
      fit.imp_left fun ready => by simp [ready.1]
    unfold startRunning
    cases parent : thread.parent with
    | none => exact absorbed.of_processes rfl
    | some target =>
      have marked : (kernel.modifyProcess target fun process =>
          { process with currentState := .running }).Absorbed pid := by
        refine absorbed.of_modifyProcess fun process processFound exiting => ?_
        have live := clean allowed id thread target process found dispatchable parent processFound
        cases live.symm.trans exiting
      exact marked.of_processes rfl
  | switchIn kernel continuation id =>
    exact absorbed.of_processes (processes_switchIn kernel id continuation)
  | _ => exact absorbed.of_processes rfl

/-! ## No thread is left behind -/

/-- Every thread that can be dispatched could be before, for the same process. -/
def NoneRevived (kernel after : Kernel) : Prop :=
  ∀ id thread, after.thread id = some thread →
    (thread.currentState ≠ .terminated ∨ after.idleThread = some id) →
    ∃ old, kernel.thread id = some old ∧
      (old.currentState ≠ .terminated ∨ kernel.idleThread = some id) ∧
      thread.parent = old.parent

theorem NoneLeftBehind.of_threads (clean : kernel.NoneLeftBehind)
    (threads : kernel.NoneRevived after)
    (processes : ∀ id thread pid process, after.thread id = some thread →
      thread.parent = some pid → after.process pid = some process →
      process.currentState.isExiting = true →
      ∃ old, kernel.process pid = some old ∧
        old.currentState.isExiting = true) : after.NoneLeftBehind := by
  intro id thread pid process found dispatchable parent processFound
  by_contra exits
  rw [Bool.not_eq_false] at exits
  obtain ⟨old, oldFound, oldDispatchable, sameParent⟩ := threads id thread found dispatchable
  obtain ⟨owner, ownerFound, ownerExits⟩ :=
    processes id thread pid process found parent processFound exits
  have live := clean id old pid owner oldFound oldDispatchable
    (sameParent.symm.trans parent) ownerFound
  cases live.symm.trans ownerExits

/-- A step that leaves the processes alone and takes no thread back. -/
theorem NoneLeftBehind.of_same_processes (clean : kernel.NoneLeftBehind)
    (processes : after.processes = kernel.processes) (threads : kernel.NoneRevived after) :
    after.NoneLeftBehind := by
  refine clean.of_threads threads fun _ _ _ process _ _ processFound exits => ?_
  rw [Kernel.process, processes] at processFound
  exact ⟨process, processFound, exits⟩

theorem CoreMove.noneLeftBehind {after : List Frame × Kernel} (move : CoreMove before after)
    (clean : before.2.NoneLeftBehind) : after.2.NoneLeftBehind := by
  have threads : before.2.NoneRevived after.2 := by
    intro id thread found dispatchable
    obtain ⟨old, oldFound, parent, -, -, -, -, terminated⟩ := move.frame.thread id thread found
    refine ⟨old, oldFound, ?_, parent⟩
    rw [move.frame.idleThread] at dispatchable
    exact dispatchable.imp_left (mt terminated)
  refine clean.of_threads threads fun id thread pid process found parent processFound exits =>
    ?_
  cases move with
  | revive =>
    rcases written_cases (process_modifyProcess ..) processFound with
      ⟨-, old, oldFound, rfl⟩ | ⟨-, processFound⟩
    · refine ⟨old, oldFound, ?_⟩
      unfold reviveProcess at exits
      split at exits
      · exact exits
      · cases exits
    · exact ⟨process, processFound, exits⟩
  | closeProcess _ kernel target empty =>
    have other : pid ≠ target := by
      rintro rfl
      have mem : id ∈ kernel.processThreads pid :=
        mem_processThreads_iff.mpr ⟨thread, found, parent⟩
      rw [empty] at mem
      cases mem
    rw [process_modifyProcess, if_neg other] at processFound
    exact ⟨process, processFound, exits⟩
  | removeProcess =>
    obtain ⟨old, _, oldFound, rfl, -⟩ := process_orphanLaunchedProcesses (of_remove processFound)
    exact ⟨old, oldFound, exits⟩
  | announce =>
    rw [requestReschedule_eq] at processFound
    exact ⟨process, processFound, exits⟩
  | _ => exact ⟨process, processFound, exits⟩

theorem CoreRun.noneLeftBehind {after : List Frame × Kernel} (run : CoreRun before after)
    (clean : before.2.NoneLeftBehind) : after.2.NoneLeftBehind := by
  induction run with
  | refl => exact clean
  | tail _ move ih => exact move.noneLeftBehind ih

theorem KernelMove.noneRevived {before after : Stage × Kernel}
    (move : KernelMove scope before after) (noSpawn : ¬ scope.spawn) :
    before.2.NoneRevived after.2 := by
  intro id thread found dispatchable
  obtain ⟨old, oldFound, parent, terminated⟩ :=
    move.descends (fun spawns => absurd spawns noSpawn) found
  refine ⟨old, oldFound, ?_, parent⟩
  rw [move.idleThread] at dispatchable
  by_cases isIdle : before.2.idleThread = some id
  · exact .inr isIdle
  · exact dispatchable.imp_left (mt (terminated isIdle))

/-- Without marking a process or creating a thread, no move leaves one behind. -/
theorem KernelMove.noneLeftBehind {before after : Stage × Kernel}
    (move : KernelMove scope before after) (noMark : ¬ scope.mark) (noSpawn : ¬ scope.spawn)
    (clean : before.2.NoneLeftBehind) : after.2.NoneLeftBehind := by
  have threads := move.noneRevived noSpawn
  cases move with
  | core _ _ _ run => exact run.noneLeftBehind clean
  | createProcess _ _ created =>
    refine clean.of_threads threads fun _ _ _ other _ _ processFound exits => ?_
    rcases of_insert processFound with rfl | processFound
    · rw [created] at exits
      cases exits
    · exact ⟨other, processFound, exits⟩
  | setLauncher =>
    refine clean.of_threads threads fun _ _ _ process _ _ processFound exits => ?_
    rcases written_cases (process_modifyProcess ..) processFound with
      ⟨-, old, oldFound, rfl⟩ | ⟨-, processFound⟩
    · exact ⟨old, oldFound, exits⟩
    · exact ⟨process, processFound, exits⟩
  | markExiting _ _ _ allowed => exact absurd allowed noMark
  | markTree _ _ _ allowed => exact absurd allowed noMark
  | markTerminated _ _ allowed => exact absurd allowed noMark
  | pop => exact clean.of_same_processes (by rw [readyQueueRemove_eq]) threads
  | bind =>
    refine clean.of_threads threads fun _ _ _ process _ _ processFound exits => ?_
    rcases process_startRunning processFound with running | processFound
    · rw [running] at exits
      cases exits
    · exact ⟨process, processFound, exits⟩
  | switchIn kernel continuation id =>
    exact clean.of_same_processes (processes_switchIn kernel id continuation) threads
  | _ => exact clean.of_same_processes rfl threads

/-- Along moves that may dispatch but neither mark nor spawn. -/
theorem KernelMoves.absorbed {before after : Stage × Kernel}
    (moves : KernelMoves scope before after) (noMark : ¬ scope.mark) (noSpawn : ¬ scope.spawn)
    (clean : before.2.NoneLeftBehind) (absorbed : before.2.Absorbed pid) :
    after.2.Absorbed pid := by
  have both : after.2.NoneLeftBehind ∧ after.2.Absorbed pid := by
    induction moves with
    | refl => exact ⟨clean, absorbed⟩
    | tail _ move ih =>
      obtain ⟨cleanBefore, absorbedBefore⟩ := ih
      exact ⟨move.noneLeftBehind noMark noSpawn cleanBefore,
        move.absorbed (fun _ => cleanBefore) absorbedBefore⟩
  exact both.2

/-- Along moves that do not dispatch. -/
theorem KernelMoves.absorbed_of_not_dispatch {before after : Stage × Kernel}
    (moves : KernelMoves scope before after) (noDispatch : ¬ scope.dispatch)
    (absorbed : before.2.Absorbed pid) : after.2.Absorbed pid := by
  induction moves with
  | refl => exact absorbed
  | tail _ move ih => exact move.absorbed (fun allowed => absurd allowed noDispatch) ih

end

/-! ## Runs -/

/-- Dispatching, but no new threads and no process marked. -/
def Permits.scheduling : Permits := ⟨fun _ => True, False, False, True⟩

/-- Everything but switching threads. -/
def Permits.managing : Permits := ⟨fun _ => False, True, True, False⟩

theorem Permits.scheduling_blocks : Permits.scheduling.Blocks :=
  ⟨trivial, fun _ _ => trivial⟩

variable {kernel after : Kernel} {op : Op} {pid : ProcessId}

theorem exitClean_thread (clean : kernel.exitClean op = true) (dispatches : op.dispatches = true)
    {id : ThreadId} {thread : Thread} (found : kernel.thread id = some thread)
    (dispatchable : thread.currentState ≠ .terminated ∨ kernel.idleThread = some id)
    (stays : kernel.endedThread op ≠ some id) (parent : thread.parent = some pid) :
    (∀ process, kernel.process pid = some process →
      process.currentState.isExiting = false) ∧ kernel.endedProcess op ≠ some pid := by
  have mem := kernel.threads.mem_of_lookup found
  simp only [exitClean, dispatches, Bool.not_true, Bool.false_or, List.all_eq_true,
    Bool.or_eq_true, Bool.not_eq_true', beq_iff_eq, isDispatchable] at clean
  rcases clean (id, thread) mem with (no | ended) | owner
  · simp only [Bool.or_eq_false_iff, decide_eq_false_iff_not] at no
    exact absurd dispatchable (not_or.mpr no)
  · exact absurd ended stays
  · rw [parent] at owner
    simp only [Option.all_some, Bool.and_eq_true, Bool.not_eq_true', isExiting,
      decide_eq_true_eq] at owner
    refine ⟨fun _ processFound => ?_, owner.2⟩
    rw [processFound] at owner
    exact owner.1

variable {env : Env} [env.Runs] {transfer : Transfer}

/-- The call that ends its own thread leaves none behind. -/
theorem absorbed_of_exitCurrentThread {marked : Kernel}
    (operational : marked.Operational) (executing : marked.Executing)
    (clean : ∀ id, marked.currentThread = some id → marked.idleThread ≠ some id → ({ marked with
          retiredThreads := marked.retiredThreads ++ [id] }.modifyThread id
        fun thread => { thread with currentState := .terminated }).NoneLeftBehind)
    (absorbed : marked.Absorbed pid)
    (call : marked.exitCurrentThread env = some (transfer, after)) :
    after.Absorbed pid := by
  have ends : Permits.scheduling.scope.Ends marked .exited := Permits.scheduling_blocks.ends
      (Permits.scheduling_blocks.suspend _ fun _ => Continuation.noConfusion)
  obtain ⟨id, current, notIdle, moves, -⟩ :=
    exitCurrentThread_moves operational executing ends call
  have retired : ({ marked with
      retiredThreads := marked.retiredThreads ++ [id] }.modifyThread id
        fun thread => { thread with currentState := .terminated }).Absorbed pid :=
    absorbed.of_processes rfl
  exact moves.absorbed (fun mark => mark) (fun spawn => spawn) (clean id current notIdle) retired

theorem noneLeftBehind_of_exitClean (clean : kernel.exitClean op = true)
    (dispatches : op.dispatches = true)
    (continues : kernel.endedThread op = none) : kernel.NoneLeftBehind := by
  intro _ _ _ process found dispatchable parent processFound
  exact (exitClean_thread clean dispatches found dispatchable (by simp [continues])
    parent).1 process processFound

/-- Retiring the thread the call ends leaves no other thread behind. -/
theorem noneLeftBehind_of_retired (clean : kernel.exitClean op = true)
    (dispatches : op.dispatches = true) {marked : Kernel} {id : ThreadId}
    (threads : marked.threads = kernel.threads) (idleThread : marked.idleThread = kernel.idleThread)
    (ends : kernel.endedThread op = some id) (notIdle : marked.idleThread ≠ some id)
    (processes : ∀ other process, kernel.endedProcess op ≠ some other →
      marked.process other = some process → kernel.process other = some process) :
    ({ marked with
        retiredThreads := marked.retiredThreads ++ [id] }.modifyThread id
      fun thread => { thread with currentState := .terminated }).NoneLeftBehind := by
  intro other thread pid process found dispatchable parent processFound
  rcases written_cases (thread_modifyThread ..) found with ⟨rfl, _, -, rfl⟩ | ⟨stays, found⟩
  · rcases dispatchable with live | isIdle
    · exact absurd rfl live
    · exact absurd isIdle notIdle
  · have oldFound : kernel.thread other = some thread := by
      rw [Kernel.thread, ← threads]
      exact found
    have oldDispatchable : thread.currentState ≠ .terminated ∨ kernel.idleThread = some other := by
      rw [← idleThread]
      exact dispatchable
    obtain ⟨live, notEnded⟩ := exitClean_thread clean dispatches oldFound
      oldDispatchable (by rw [ends]; exact fun same => stays (Option.some.inj same).symm)
      parent
    exact live process (processes pid process notEnded processFound)

theorem serviceExit_absorbed (operational : kernel.Operational) (executing : kernel.Executing)
    {exitCode : ℕ} (clean : kernel.exitClean (.serviceExit exitCode) = true)
    (absorbed : kernel.Absorbed pid)
    (call : kernel.serviceExit env exitCode = some (transfer, after)) :
    after.Absorbed pid := by
  unfold serviceExit at call
  split at call
  · refine absorbed_of_exitCurrentThread operational executing ?_ absorbed call
    intro id current notIdle
    exact noneLeftBehind_of_retired clean rfl rfl rfl current notIdle fun _ _ _ found => found
  · rename_i ended isCurrent
    have marked : (kernel.markExiting ended exitCode).Absorbed pid :=
      absorbed.of_modifyProcess fun _ _ _ => rfl
    have markedOperational : (kernel.markExiting ended exitCode).Operational :=
      .of_modifyProcess operational fun _ => rfl
    refine absorbed_of_exitCurrentThread markedOperational (by exact executing) ?_ marked call
    intro _ current notIdle
    refine noneLeftBehind_of_retired clean rfl rfl rfl current notIdle
      fun other _ notEnded found => ?_
    have ne : other ≠ ended := by
      rintro rfl
      exact notEnded isCurrent
    rwa [markExiting, process_modifyProcess, if_neg ne] at found

theorem exec_absorbed (operational : kernel.Operational)
    (executing : op ≠ .resume → kernel.Executing) (clean : kernel.exitClean op = true)
    (absorbed : kernel.Absorbed pid) (call : kernel.exec env op = some (transfer, after)) :
    after.Absorbed pid := by
  have scheduled (dispatches : op.dispatches = true)
      (continues : kernel.endedThread op = none)
      (allowed : Permits.scheduling.Allows op) : after.Absorbed pid :=
    KernelMoves.absorbed (exec_moves operational executing allowed.admits call)
      (id) (id)
      (noneLeftBehind_of_exitClean clean dispatches continues) absorbed
  have managed (allowed : Permits.managing.Allows op) : after.Absorbed pid :=
    KernelMoves.absorbed_of_not_dispatch
      (exec_moves operational executing allowed.admits call) (id)
      absorbed
  cases op with
  | exitThread =>
    refine absorbed_of_exitCurrentThread operational (executing nofun) ?_ absorbed call
    intro _ current notIdle
    exact noneLeftBehind_of_retired clean rfl rfl rfl current notIdle fun _ _ _ found => found
  | serviceExit => exact serviceExit_absorbed operational (executing nofun) clean absorbed call
  | setCurrentPriority | setThreadPriority | blockCurrent | blockCurrentFor | sleepCurrent
  | yield | poll | lowerElTimerIrq | currentElTimerIrq | ipcReceive | resume =>
    exact scheduled rfl rfl Permits.scheduling_blocks
  | eventWait => exact scheduled rfl rfl ⟨Permits.scheduling_blocks, trivial⟩
  | _ => exact managed trivial

theorem Step.absorbed (step : kernel.Step op transfer after) (operational : kernel.Operational)
    (clean : kernel.exitClean op = true) (absorbed : kernel.Absorbed pid) : after.Absorbed pid := by
  obtain ⟨starts, _, _, call⟩ := step
  refine exec_absorbed ?_ ?_ ?_ ?_ call
  · exact { operational with }
  · exact executing_of_startable starts
  · exact clean
  · exact absorbed.of_processes rfl

/-- In every run in which a dispatching operation finds no thread left behind in an
exiting process, a process once exiting or terminated never runs again. -/
theorem exiting_absorbing
    (reachable : Reachable (fun kernel op => kernel.exitClean op = true) kernel)
    {process : Process} (found : kernel.process pid = some process)
    (exiting : process.currentState.isExiting = true)
    (later : Continues (fun kernel op => kernel.exitClean op = true) kernel after)
    {survivor : Process} (remains : after.process pid = some survivor) :
    survivor.currentState.isExiting = true := by
  have absorbed : kernel.Absorbed pid :=
    ⟨kernel.processes.lookup_lt_nextId found, of_found found exiting⟩
  have final : after.Absorbed pid := by
    clear remains
    induction later with
    | refl => exact absorbed
    | tail earlier last ih =>
      obtain ⟨_, _, clean, step⟩ := last
      exact step.absorbed (reachable.continues earlier).operational clean ih
  exact final.exiting survivor remains

/-- A user process with two ready threads of the same priority; the first faults. -/
def faultingRun : List Op :=
  [.createProcess [] true 8, .createThread 2 [] 1 16 1 true,
    .createThread 2 [] 1 16 1 true, .enqueue 3, .enqueue 4, .yield, .resume,
    .terminateLaunched 7]

/-- The other thread of the faulting process is dispatched and takes it back. -/
theorem exiting_process_runs_again :
    ∃ (kernel after : Kernel) (process survivor : Process),
      Reachable (fun _ _ => True) kernel ∧ kernel.process 2 = some process ∧
        process.currentState = .exiting ∧ Continues (fun _ _ => True) kernel after ∧
        after.process 2 = some survivor ∧ survivor.currentState = .running := by
  have ran : (booted [] [] 4096).run (fun _ _ => true) 5 faultingRun = some _ := rfl
  exact ⟨_, _, _, _, .of_run (fun _ _ _ => trivial) ran, rfl, rfl,
    .single ⟨.serviceExit 7, .switched, trivial, rfl, 5, [], rfl⟩, rfl, rfl⟩

/-- A user process with one thread, which faults. -/
def faultingAloneRun : List Op :=
  [.createProcess [] true 8, .createThread 2 [] 1 16 1 true, .enqueue 3, .yield, .resume,
    .terminateLaunched 7]

/-- A process whose only thread exits stays exiting until it is reaped. -/
theorem exiting_absorbing_faultingAloneRun :
    ∃ (after : Kernel) (survivor : Process),
      Reachable (fun kernel op => kernel.exitClean op = true) after ∧
        after.process 2 = some survivor ∧ survivor.currentState.isExiting = true := by
  have ran : (booted [] [] 4096).run exitClean 5 faultingAloneRun = some _ := rfl
  have reachable : Reachable (fun kernel op => kernel.exitClean op = true) _ :=
    .of_run (fun _ _ => id) ran
  exact ⟨_, _, reachable.continues (@continues_of_run _ exitClean 5 [.serviceExit 7] _ rfl), rfl,
    exiting_absorbing reachable (show Kernel.process _ 2 = some _ from rfl) rfl
      (@continues_of_run _ exitClean 5 [.serviceExit 7] _ rfl) rfl⟩

end Kernel

end RosKernel
