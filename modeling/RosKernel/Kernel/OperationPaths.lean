import RosKernel.Kernel.KernelPaths

/-!
# Moves of the remaining operations

Ticks, preemption and priorities, process and thread management, the broker's
interface and message passing as sequences of moves from the stage `running` to
itself.
-/

namespace RosKernel.Kernel

open Option

/-- A scope in which the caller may be left inside an ordinary call. -/
structure Scope.Switches (scope : Scope) (kernel : Kernel) : Prop where
  dispatch : scope.dispatch
  suspend : ∀ continuation, Plain continuation → scope.suspend continuation
  called : scope.Called kernel

variable {kernel after : Kernel}

theorem Scope.Switches.of_current {scope : Scope}
    (switches : scope.Switches kernel) (same : after.currentThread = kernel.currentThread) :
    scope.Switches after :=
  ⟨switches.dispatch, switches.suspend, fun id current => switches.called id (same ▸ current)⟩

/-- A blocking call other than an event wait. -/
theorem Scope.Switches.ends {scope : Scope} {continuation : Continuation}
    (switches : scope.Switches kernel) (parks : scope.park) (plain : Plain continuation) :
    scope.Ends kernel continuation :=
  ⟨switches.dispatch, switches.suspend _ plain, switches.called, parks⟩

variable {env : Env} [runs : env.Runs] {scope : Scope} {kernel after : Kernel}

/-! ## Ticks and preemption -/

theorem resetQuantum_moves (id : ThreadId) :
    scope.Moves kernel (kernel.modifyThread id resetQuantum) :=
  .single (.quantum _ _ fun thread =>
    if thread.quantumTicks = 0 then threadDefaultQuantumTicks else thread.quantumTicks)

theorem plain_dispatched : Plain .dispatched := ⟨nofun, nofun⟩

theorem plain_exceptionFrame : Plain .exceptionFrame := ⟨nofun, nofun⟩

variable {transfer : Transfer}

/-- A check for preemption either leaves the current thread or finds nothing that
outranks it. -/
def Rescheduled (scope : Scope) (kernel after : Kernel) : Prop :=
  (∃ continuation, Plain continuation ∧
      KernelMoves scope (.leaving continuation, kernel) (.running, after)) ∨
    kernel.Unrivalled ∧ scope.Moves kernel after

theorem Rescheduled.moves (called : scope.Called kernel) (executing : kernel.Executing)
    (rescheduled : Rescheduled scope kernel after) :
    scope.Moves kernel after := by
  rcases rescheduled with ⟨_, plain, moves⟩ | ⟨-, moves⟩
  · exact .head (.leave _ _ plain called executing) moves
  · exact moves

/-- A check for preemption that first takes back the request. -/
theorem Rescheduled.moves_of_cleared (called : scope.Called kernel) (executing : kernel.Executing)
    (rescheduled : Rescheduled scope { kernel with reschedulePending := false } after) :
    scope.Moves kernel after := by
  rcases rescheduled with ⟨_, plain, moves⟩ | ⟨unrivalled, moves⟩
  · exact .head (.leave _ _ plain called executing) (.head (.clearPending _ _) moves)
  · exact .head (.decline _ (by exact unrivalled)) moves

/-- Without a permission to leave the current thread no other becomes current. -/
theorem KernelMoves.currentThread {before after : Stage × Kernel}
    (stays : ∀ continuation, ¬ scope.suspend continuation)
    (moves : KernelMoves scope before after) :
    after.2.currentThread = before.2.currentThread := by
  induction moves with
  | refl => rfl
  | tail _ move ih =>
    refine Eq.trans ?_ ih
    cases move with
    | core _ _ _ run => exact run.frame.currentThread
    | pop => rw [readyQueueRemove_eq]
    | bind _ _ id thread => exact currentThread_startRunning id thread
    | switchIn _ continuation _ allowed => exact absurd allowed (stays continuation)
    | _ => rfl

theorem Executing.of_write {before after : Kernel} (executing : before.Executing)
    (current : after.currentThread = before.currentThread)
    {target : ThreadId} {update : Thread → Thread} (rewritten : Rewrites before after target update)
    (kept : ∀ thread, (update thread).continuation = thread.continuation ∨
      (update thread).continuation = .executing) : after.Executing := by
  intro id thread isCurrent found
  rw [rewritten] at found
  rw [current] at isCurrent
  rcases written_cases rfl found with ⟨-, old, oldFound, rfl⟩ | ⟨-, found⟩
  · rcases kept old with same | resumed
    · rw [same]
      exact executing id old isCurrent oldFound
    · exact resumed
  · exact executing id thread isCurrent found

/-- Nor does the current thread enter a call it would have to finish first. -/
theorem KernelMoves.executing {before after : Stage × Kernel}
    (stays : ∀ continuation, ¬ scope.suspend continuation) (spawnless : ¬ scope.spawn)
    (moves : KernelMoves scope before after)
    (executing : before.2.Executing) : after.2.Executing := by
  induction moves with
  | refl => exact executing
  | tail _ move ih =>
    cases move with
    | core _ _ _ run => exact run.frame.executing ih
    | createThread _ _ _ _ _ _ allowed => exact absurd allowed spawnless
    | quantum | priority | lower | park | retire | selfSwitch | finishWait =>
      refine ih.of_write rfl (.modify rfl) fun _ => ?_
      exact .inl rfl
    | resumed =>
      refine ih.of_write rfl (.modify rfl) fun _ => ?_
      exact .inr rfl
    | requeue =>
      refine ih.of_write rfl (.modify rfl) fun _ => .inl ?_
      split <;> rfl
    | relink | push => exact ih.of_write rfl (.modify rfl) fun _ => .inl rfl
    | pop =>
      rw [readyQueueRemove_eq]
      exact ih.of_write rfl (thread_readyQueueRemove _ _ ·) fun _ => .inl rfl
    | bind =>
      rw [startRunning_eq]
      refine ih.of_write rfl (.modify rfl) fun _ => ?_
      exact .inl rfl
    | switchIn _ continuation _ allowed => exact absurd allowed (stays continuation)
    | _ => exact ih

/-- The scope of calls that leave the current thread alone. -/
def stillScope : Scope := Permits.scope ⟨fun _ => False, False, False, False⟩

/-- Such calls leave the caller as it was. -/
theorem Scope.Switches.still (switches : scope.Switches kernel) (executing : kernel.Executing)
    (moves : KernelMoves stillScope (.running, kernel) (.running, after)) :
    scope.Switches after ∧ after.Executing :=
  ⟨switches.of_current (moves.currentThread fun _ allowed => allowed),
    moves.executing (fun _ allowed => allowed) (id) executing⟩

theorem chargeTick_moves (call : kernel.chargeTick = some after) : scope.Moves kernel after := by
  unfold chargeTick at call
  split at call
  · cases call
    exact .refl
  split at call
  · split at call
    · cases call
      exact .single (.pend _)
    · cases call
      exact .refl
  split at call
  · cases call
    exact resetQuantum_moves _
  · simp only [bind_eq_some] at call
    obtain ⟨_, _, call⟩ := call
    split at call
    · cases call
      exact (Relation.ReflTransGen.single (.quantum _ _ _)).tail (.pend _)
    · cases call
      exact .single (.quantum _ _ _)

variable {priority : ℕ} {status : Status} {id : ThreadId}

theorem currentPriority_linkReady (id : ThreadId) (priority : ℕ) (atTail : Bool) :
    (kernel.linkReady id priority atTail).currentPriority = kernel.currentPriority := by
  change kernel.currentThread.bind _ = kernel.currentThread.bind _
  congr 1
  funext other
  rw [thread_linkReady]
  split
  · cases kernel.thread other <;> rfl
  · rfl

/-- The end of `set_thread_priority` for a ready thread. -/
theorem relink_moves {thread : Thread} {final : Status} {pushed : Kernel}
    (notCurrent : kernel.currentThread ≠ some id) (found : kernel.thread id = some thread)
    (isReady : thread.currentState = .ready)
    (push : kernel.readyQueuePush id true = (status, pushed))
    (call : (if status ≠ .ok then some (status, pushed)
      else if pushed.currentThread ≠ pushed.idleThread ∧ pushed.currentPriority.any
            (fun current => decide (thread.currentPriority < current)) then
        some (.ok, { pushed with reschedulePending := true })
      else some (.ok, pushed)) = some (final, after)) :
    scope.Moves kernel after := by
  rcases readyQueuePush_cases push with ⟨refused, rfl⟩ | ⟨_, linkedFound, eligible,
    valid, notQueued, rfl, rfl⟩
  · rw [if_pos refused] at call
    cases call
    exact .refl
  cases found.symm.trans linkedFound
  simp only [threadCanEnterReadyQueue, Bool.and_eq_true, decide_eq_true_eq] at eligible
  have relinked (pending : Bool) (kept : kernel.reschedulePending = true → pending = true)
      (announced : kernel.currentThread ≠ kernel.idleThread →
        (∃ current, kernel.currentPriority = some current ∧
          thread.currentPriority < current) → pending = true) :=
    Relation.ReflTransGen.single (@KernelMove.relink scope kernel id thread pending notCurrent
      found isReady eligible.2 valid notQueued kept announced)
  rw [if_neg (by simp), currentPriority_linkReady] at call
  split at call
  · cases call
    exact relinked true (fun _ => rfl) fun _ _ => rfl
  · rename_i unannounced
    cases call
    refine relinked kernel.reschedulePending (fun kept => kept) fun notIdle outranks => ?_
    obtain ⟨_, isCurrent, lower⟩ := outranks
    refine absurd ⟨notIdle, ?_⟩ unannounced
    simp [isCurrent, lower]

theorem reprioritise_moves (allowed : scope.prioritise id priority)
    (valid : priority < threadPriorityLevelCount) (notCurrent : kernel.currentThread ≠ some id)
    (call : kernel.reprioritise id priority = some (status, after)) :
    scope.Moves kernel after := by
  simp only [reprioritise, bind_eq_some] at call
  obtain ⟨_, updatedFound, call⟩ := call
  have removal := readyQueueRemove_run kernel id fun _ _ => .inl notCurrent
  have removedMoves : scope.Moves kernel (kernel.readyQueueRemove id) :=
    .single (.core _ .plain (.inr rfl) removal)
  have stillOther : (kernel.readyQueueRemove id).currentThread ≠ some id := by
    rw [removal.frame.currentThread]
    exact notCurrent
  have written := updatedFound
  obtain ⟨removed, removedFound, rfl⟩ := thread_of_modified written
  have unqueued : Unqueued removed := by
    obtain ⟨_, oldFound, -⟩ := removal.frame.thread id removed removedFound
    obtain ⟨-, _, linkedFound, -, unqueued⟩ := readyQueueRemove_frame oldFound
    cases linkedFound.symm.trans removedFound
    exact unqueued
  have moves := removedMoves.tail (.priority _ _ removed priority allowed removedFound
    (.inl unqueued) valid (.inl stillOther))
  split at call
  · rename_i isReady
    rcases push : ((kernel.readyQueueRemove id).modifyThread id fun thread =>
      resetQuantum
        { thread with
          basePriority := priority, currentPriority := priority }).readyQueuePush id
        true with ⟨pushStatus, pushed⟩
    rw [push] at call
    exact moves.trans (relink_moves stillOther updatedFound isReady push call)
  · cases call
    exact moves

section

variable (operational : kernel.Operational)
include operational

theorem switchToBest_moves (dispatches : scope.dispatch)
    {continuation : Continuation} (suspends : scope.suspend continuation)
    (idles : kernel.currentThread = kernel.idleThread)
    (call : kernel.switchToBest env continuation = some (transfer, after)) :
    KernelMoves scope (.leaving continuation, kernel) (.running, after) := by
  simp only [switchToBest, bind_eq_some] at call
  obtain ⟨⟨_, _⟩, pick, switch⟩ := call
  exact (pickAndSwitch_moves operational dispatches suspends (.inl idles) pick switch).1

/-- A check for preemption; an outranked thread is left with the continuation. -/
theorem Rescheduled.of_check (switches : scope.Switches kernel) {continuation : Continuation}
    (plain : Plain continuation)
    (call : (if kernel.currentThread = none ∨ kernel.currentThread = kernel.idleThread then
        if kernel.readyCount ≠ 0 then kernel.switchToBest env .dispatched
        else some (.returned .ok, kernel)
      else do
        let id ← kernel.currentThread
        let thread ← kernel.thread id
        if kernel.outranked thread.currentPriority then
          kernel.dispatch env true false false false continuation
        else if thread.quantumTicksRemaining = 0 ∧ kernel.readyCount ≠ 0 then
          kernel.dispatch env true true true false continuation
        else if thread.quantumTicksRemaining = 0 then
          some (.returned .ok, kernel.modifyThread id resetQuantum)
        else some (.returned .ok, kernel)) = some (transfer, after)) :
    Rescheduled scope kernel after := by
  have suspends := switches.suspend _ plain
  split at call
  · rename_i absentOrIdle
    have idles := absentOrIdle.resolve_left (isSome_iff_ne_none.mp operational.current)
    split at call
    · exact .inl ⟨_, plain_dispatched, switchToBest_moves operational switches.dispatch
        (switches.suspend _ plain_dispatched) idles call⟩
    · cases call
      exact .inr ⟨.inl idles, .refl⟩
  · simp only [bind_eq_some] at call
    obtain ⟨id, current, thread, found, call⟩ := call
    split at call
    · exact .inl ⟨_, plain, dispatch_moves operational switches.dispatch suspends (.inl rfl) call⟩
    rename_i notOutranked
    have unrivalled : kernel.Unrivalled :=
      .inr ⟨id, thread, current, found, by simpa using notOutranked⟩
    split at call
    · exact .inl ⟨_, plain, dispatch_moves operational switches.dispatch suspends (.inl rfl) call⟩
    split at call
    · cases call
      exact .inr ⟨unrivalled, resetQuantum_moves _⟩
    · cases call
      exact .inr ⟨unrivalled, .refl⟩

theorem wakeExpiredSleepers_moves (rounds : ℕ)
    (call : kernel.wakeExpiredSleepers env rounds = some after) :
    scope.Moves kernel after := by
  induction rounds generalizing kernel with
  | zero => cases call
  | succ _ ih =>
    unfold wakeExpiredSleepers at call
    split at call
    · cases call
      exact .refl
    · rename_i id rest head
      simp only [bind_eq_some] at call
      obtain ⟨thread, found, call⟩ := call
      split at call
      · simp only [bind_eq_some] at call
        obtain ⟨woken, waking, call⟩ := call
        have wokenMoves : scope.Moves kernel woken := by
          split at waking
          · rename_i isWaiting
            simp only [bind_eq_some] at waking
            obtain ⟨⟨_, _⟩, transition, result⟩ := waking
            cases result
            have transitionRun := (transitionThreadToReady_run
              (by exact operational.current) [.requested id] (.inr rfl) (by
                intro other otherFound
                have sameThread : kernel.thread id = some other := otherFound
                cases found.symm.trans sameThread
                exact .inr ⟨isWaiting, rfl⟩) transition).1
            exact .single (.core _
              (.expired id thread found isWaiting (head ▸ (.head _))) (.inr rfl)
              (.head (.unsleep _ _ _) transitionRun))
          · cases waking
            exact .single (.core _ .plain (.inr rfl) (.single (.unsleep _ _ _)))
        exact wokenMoves.trans (ih (wokenMoves.operational operational) call)
      · cases call
        exact .refl

theorem timerTick_moves (call : kernel.timerTick env = some after) : scope.Moves kernel after := by
  simp only [timerTick, bind_eq_some] at call
  obtain ⟨reaped, reaping, woken, waking, call⟩ := call
  have ticked : scope.Moves kernel { kernel with tickCount := (kernel.tickCount + 1) % 2 ^ 64 } :=
    .single (.tick _ _)
  have reapMoves : scope.Moves kernel reaped :=
    ticked.trans (reap_moves (ticked.operational operational) .running reaping)
  have wakeMoves : scope.Moves kernel woken := reapMoves.trans
    (wakeExpiredSleepers_moves (reapMoves.operational operational) env.rounds waking)
  exact wakeMoves.trans (chargeTick_moves call)

theorem timerTicks_moves (elapsed : ℕ) (call : kernel.timerTicks env elapsed = some after) :
    scope.Moves kernel after := by
  induction elapsed generalizing kernel with
  | zero =>
    cases call
    exact .refl
  | succ _ ih =>
    simp only [timerTicks, bind_eq_some] at call
    obtain ⟨ticked, tick, call⟩ := call
    have moves : scope.Moves kernel ticked := timerTick_moves operational tick
    exact moves.trans (ih (moves.operational operational) call)

variable (executing : kernel.Executing)
include executing

theorem exitCurrentThread_moves (ends : scope.Ends kernel .exited)
    (call : kernel.exitCurrentThread env = some (transfer, after)) :
    ∃ id, kernel.currentThread = some id ∧ kernel.idleThread ≠ some id ∧ KernelMoves scope
        (.leaving .exited, { kernel with
            retiredThreads := kernel.retiredThreads ++ [id] }.modifyThread id
          fun thread => { thread with currentState := .terminated }) (.running, after) ∧
      scope.Moves kernel after := by
  simp only [exitCurrentThread, bind_eq_some] at call
  obtain ⟨id, current, call⟩ := call
  split at call
  · cases call
  rename_i notIdle
  simp only [bind_eq_some] at call
  obtain ⟨_, queueing, ⟨_, _⟩, pick, ⟨_, _⟩, switch, call⟩ := call
  simp only [queueRetiredThread, bind_eq_some,
    thread_modifyThread, if_true, map_eq_some_iff] at queueing
  obtain ⟨_, ⟨thread, found, rfl⟩, queueing⟩ := queueing
  split at queueing
  · cases queueing
  rename_i notQueued
  cases queueing
  have retired : KernelMoves scope (.running, kernel) _ :=
    .single (.retire _ _ thread ends.suspend current notIdle found (by simpa using notQueued)
      (executing id thread current found) (ends.called id current) ends.park)
  obtain ⟨switching, outcome⟩ := pickAndSwitch_moves
    (retired.operational operational) ends.dispatch ends.suspend
    (relinquished_modifyThread current fun _ => nofun) pick switch
  rcases outcome with rfl | ⟨rfl, -⟩
  · cases call
    exact ⟨id, current, notIdle, switching, retired.trans switching⟩
  · cases call

variable (switches : scope.Switches kernel)
include switches

theorem yield_moves (call : kernel.yield env = some (transfer, after)) :
    scope.Moves kernel after := by
  simp only [yield, bind_eq_some] at call
  obtain ⟨reaped, reaping, call⟩ := call
  have reapMoves : scope.Moves kernel reaped := reap_moves operational .running reaping
  split at call
  · cases call
    exact reapMoves
  · rename_i id current
    split at call
    · cases call
      exact reapMoves.trans (resetQuantum_moves _)
    · have reapedSwitches := switches.of_current (reap_currentThread operational reaping)
      refine (reapMoves.tail (.leave _ _ plain_dispatched reapedSwitches.called
        (reap_executing operational executing reaping))).trans (dispatch_moves
        (reapMoves.operational operational) switches.dispatch
        (switches.suspend _ plain_dispatched) ?_ call)
      by_cases idle : reaped.idleThread = some id
      · exact .inr (current.trans idle.symm)
      · exact .inl (decide_eq_true idle)

theorem processPendingRescheduleFromLowerElIrq_moves
    (call : kernel.processPendingRescheduleFromLowerElIrq env = some (transfer, after)) :
    scope.Moves kernel after := by
  unfold processPendingRescheduleFromLowerElIrq at call
  split at call
  · cases call
    exact .refl
  obtain ⟨current, idle, tables⟩ := operational
  exact Rescheduled.moves_of_cleared switches.called executing
    (.of_check ⟨current, idle, tables⟩ (switches.of_current rfl) plain_exceptionFrame call)

theorem poll_moves {elapsedTicks : ℕ}
    (call : kernel.poll env elapsedTicks = some (transfer, after)) : scope.Moves kernel after := by
  simp only [poll, bind_eq_some] at call
  obtain ⟨ticked, ticks, call⟩ := call
  have moves : scope.Moves kernel ticked := timerTicks_moves operational elapsedTicks ticks
  split at call
  · cases call
    exact moves
  · obtain ⟨current, idle, tables⟩ := moves.operational operational
    obtain ⟨later, ready⟩ := switches.still executing
      (timerTicks_moves operational elapsedTicks ticks)
    exact moves.trans (Rescheduled.moves_of_cleared later.called ready
      (.of_check ⟨current, idle, tables⟩ (later.of_current rfl) plain_dispatched call))

theorem handleLowerElTimerIrq_moves
    (call : kernel.handleLowerElTimerIrq env = some (transfer, after)) :
    scope.Moves kernel after := by
  simp only [handleLowerElTimerIrq, bind_eq_some] at call
  obtain ⟨ticked, tick, call⟩ := call
  have moves : scope.Moves kernel ticked := timerTick_moves operational tick
  obtain ⟨later, ready⟩ := switches.still executing (timerTick_moves operational tick)
  exact moves.trans (processPendingRescheduleFromLowerElIrq_moves
    (moves.operational operational) ready later call)

theorem handleCurrentElTimerIrq_moves
    (call : kernel.handleCurrentElTimerIrq env = some (transfer, after)) :
    scope.Moves kernel after := by
  simp only [handleCurrentElTimerIrq, bind_eq_some] at call
  obtain ⟨ticked, tick, call⟩ := call
  have moves : scope.Moves kernel ticked := timerTick_moves operational tick
  obtain ⟨later, ready⟩ := switches.still executing (timerTick_moves operational tick)
  exact moves.trans (Rescheduled.moves later.called ready
    (.of_check (moves.operational operational) later plain_dispatched call))

theorem setCurrentPriority_moves
    (prioritises : ∀ id, kernel.currentThread = some id → scope.prioritise id priority)
    (call : kernel.setCurrentPriority env priority = some (transfer, after)) :
    scope.Moves kernel after := by
  unfold setCurrentPriority at call
  split at call
  · cases call
    exact .refl
  rename_i valid
  simp only [bind_eq_some] at call
  obtain ⟨reaped, reaping, blockable, check, call⟩ := call
  have reapMoves : scope.Moves kernel reaped := reap_moves operational .running reaping
  cases blockable with
  | none =>
    cases call
    exact reapMoves
  | some id =>
    obtain ⟨current, _, thread, found, running⟩ := blockableThread_cases check
    have sameCurrent := reap_currentThread operational reaping
    have allowed := prioritises id (sameCurrent.symm.trans current)
    dsimp only at call
    split at call
    · have lowered := (reapMoves.tail (.leave _ _ plain_dispatched
        (switches.of_current sameCurrent).called
        (reap_executing operational executing reaping))).tail
        (.lower _ _ id thread priority allowed current found running (not_le.mp valid))
      exact lowered.trans (dispatch_moves
        (KernelMoves.operational lowered operational) switches.dispatch
        (switches.suspend _ plain_dispatched) (.inl rfl) call)
    · rename_i notOutranked
      cases call
      exact reapMoves.tail (.priority _ _ thread _ allowed found (.inr running)
        (not_le.mp valid) (.inr (by exact Bool.eq_false_iff.mpr notOutranked)))

theorem setThreadPriority_moves (allowed : scope.prioritise id priority)
    (call : kernel.setThreadPriority env id priority = some (transfer, after)) :
    scope.Moves kernel after := by
  unfold setThreadPriority at call
  split at call
  · cases call
    exact .refl
  rename_i valid
  simp only [bind_eq_some] at call
  obtain ⟨reaped, reaping, call⟩ := call
  have reapMoves : scope.Moves kernel reaped := reap_moves operational .running reaping
  split at call
  · cases call
    exact reapMoves
  split at call
  · cases call
    exact reapMoves
  split at call
  · rename_i isCurrent
    exact reapMoves.trans (setCurrentPriority_moves
      (reapMoves.operational operational)
      (reap_executing operational executing reaping)
      (switches.of_current (reap_currentThread operational reaping))
      (of_found isCurrent allowed) call)
  · rename_i notCurrent
    simp only [bind_eq_some] at call
    obtain ⟨⟨_, _⟩, change, result⟩ := call
    cases result
    exact reapMoves.trans (reprioritise_moves allowed (not_le.mp valid) notCurrent change)

end

/-! ## Processes and threads -/

theorem sparesCurrent_of_ne {process : ProcessId}
    (other : kernel.currentProcess ≠ some process) : kernel.SparesCurrent process := by
  intro _ mem isCurrent
  obtain ⟨_, found, parent⟩ := mem_processThreads_iff.mp mem
  exact other (by simp [currentProcess, isCurrent, found, parent])

/-- The current thread keeps its process for as long as it is registered. -/
theorem CoreFrame.currentProcess {before after : Kernel} (frame : CoreFrame before after)
    {process : ProcessId} (current : after.currentProcess = some process) :
    before.currentProcess = some process := by
  simp only [Kernel.currentProcess, bind_eq_some_iff] at current ⊢
  obtain ⟨id, isCurrent, thread, found, parent⟩ := current
  obtain ⟨old, oldFound, sameParent, -⟩ := frame.thread id thread found
  exact ⟨id, frame.currentThread ▸ isCurrent, old, oldFound, sameParent ▸ parent⟩

variable {id : ProcessId}

section

variable (operational : kernel.Operational) (marks : scope.mark)
include operational marks

/-- Destroying a process other than the current one. -/
theorem destroyProcess_moves (doomed : scope.destroy id) (other : kernel.currentProcess ≠ some id)
    (call : kernel.destroyProcess env id = some (status, after)) :
    scope.Moves kernel after ∧
      (∀ process, after.currentProcess = some process → kernel.currentProcess = some process) ∧
      ProcessesKept kernel after := by
  rcases destroyProcess_run operational.current [] calm_nil (sparesCurrent_of_ne other)
    call with ⟨-, rfl⟩ | run
  · exact ⟨.refl, fun _ same => same, .refl _⟩
  · have marked : ProcessesKept kernel (kernel.modifyProcess id fun process =>
        { process with currentState := .terminated }) :=
      .of_modify kernel id fun _ => ⟨rfl, rfl, nofun⟩
    exact ⟨(Relation.ReflTransGen.single (.markTerminated _ _ marks doomed other)).tail
        (.core _ .plain (.inr rfl) run),
      fun _ current => run.frame.currentProcess current,
      marked.trans (run.processesKept)⟩

theorem serviceKill_moves {target : ProcessId}
    (doomed : ∀ process, kernel.process target = some process →
      kernel.currentProcess ≠ some target → process.kernelObject = false →
      process.permanent = false → scope.destroy target)
    (call : kernel.serviceKill env target = some (status, after)) :
    scope.Moves kernel after := by
  unfold serviceKill at call
  split at call
  · cases call
    exact .refl
  split at call
  · cases call
    exact .refl
  rename_i process found
  split at call
  · cases call
    exact .refl
  rename_i accepted
  simp only [not_or, Bool.not_eq_true] at accepted
  unfold terminateProcess at call
  rw [found] at call
  have marked : scope.Moves kernel (kernel.markExiting target 0) :=
    .single (.markExiting _ _ _ marks)
  exact marked.trans (destroyProcess_moves (marked.operational operational)
    marks (doomed process found accepted.1 accepted.2.1 accepted.2.2) accepted.1 call).1

/-- A loop's turn that destroys a process it picks. -/
theorem destroyIf_moves {picked : Prop} [Decidable picked] (doomed : picked → scope.destroy id)
    (other : picked → kernel.currentProcess ≠ some id)
    (turn : (if picked then (kernel.destroyProcess env id).bind fun result => some result.2
      else some kernel) = some after) :
    scope.Moves kernel after ∧
      (∀ process, after.currentProcess = some process → kernel.currentProcess = some process) ∧
      ProcessesKept kernel after := by
  split at turn
  · rename_i isPicked
    obtain ⟨⟨_, _⟩, destruction, result⟩ := bind_eq_some_iff.mp turn
    cases result
    exact destroyProcess_moves operational marks (doomed isPicked) (other isPicked) destruction
  · cases turn
    exact ⟨.refl, fun _ same => same, .refl _⟩

end

variable {root owner pid : ProcessId} {cursor : Option ProcessId}

theorem destroyTreeFrom_moves (marks : scope.mark) {exempt : ProcessId} (rounds : ℕ)
    (operational : kernel.Operational)
    (keeps : ∀ process, kernel.currentProcess = some process → process = exempt)
    (doomed : ∀ middle, ProcessesKept kernel middle → ∀ id process,
      middle.process id = some process →
      middle.processIsInTree env.rounds id root = some true → id ≠ exempt →
      process.permanent = false → scope.destroy id)
    (call : kernel.destroyTreeFrom env root exempt rounds cursor = some after) :
    scope.Moves kernel after := by
  fun_induction destroyTreeFrom env root exempt rounds cursor kernel with
  | case1 =>
    cases call
    exact .refl
  | case2 => cases call
  | case3 _ id kernel ih =>
    simp only [bind_eq_some] at call
    obtain ⟨process, found, _, membership, _, turn, call⟩ := call
    obtain ⟨moves, kept, frame⟩ := destroyIf_moves operational marks
      (fun picked => doomed kernel (.refl _) id process found
        (by rw [membership, picked.1]) picked.2.1 (by simpa using picked.2.2))
      (fun picked isCurrent => picked.2.1 (keeps id isCurrent)) turn
    exact moves.trans (ih _ (moves.operational operational)
      (fun other current => keeps other (kept other current))
      (fun later earlier => doomed later (frame.trans earlier)) call)

/-- Orphaning and removing processes takes nobody into a launcher tree. -/
theorem launcherReaches_of_links {middle : Kernel} (links : LinksKept kernel middle)
    {origin : ProcessId} (rounds : ℕ) {cursor : ProcessId}
    (reaches : middle.launcherReaches origin root rounds cursor = some true) :
    kernel.launcherReaches origin root rounds cursor = some true := by
  induction rounds generalizing cursor with
  | zero => cases reaches
  | succ rounds ih =>
    unfold launcherReaches at reaches ⊢
    split at reaches
    · cases reaches
    rename_i notZero
    rw [if_neg notZero]
    split at reaches
    · rename_i isRoot
      rw [if_pos isRoot]
    rename_i notRoot
    rw [if_neg notRoot]
    split at reaches
    · cases reaches
    rename_i process found
    obtain ⟨_, oldFound, -, parent⟩ := links cursor process found
    rw [oldFound]
    split at reaches
    · cases reaches
    rename_i notOrigin
    dsimp only
    rw [if_neg notOrigin]
    rcases parent with same | orphaned
    · rw [← same]
      exact ih reaches
    · rw [orphaned] at reaches
      cases rounds <;> simp [launcherReaches] at reaches

theorem processIsInTree_of_links {middle : Kernel} (links : LinksKept kernel middle)
    {rounds : ℕ} (inTree : middle.processIsInTree rounds id root = some true) :
    kernel.processIsInTree rounds id root = some true := by
  unfold processIsInTree at inTree ⊢
  split at inTree
  · cases inTree
  rename_i notZero
  rw [if_neg notZero]
  split at inTree
  · rename_i isRoot
    rw [if_pos isRoot]
  rename_i notRoot
  rw [if_neg notRoot]
  simp only [bind_eq_some] at inTree ⊢
  obtain ⟨process, found, reaches⟩ := inTree
  obtain ⟨old, oldFound, -, parent⟩ := links id process found
  refine ⟨old, oldFound, ?_⟩
  rcases parent with same | orphaned
  · rw [← same]
    exact launcherReaches_of_links links rounds reaches
  · rw [orphaned] at reaches
    cases rounds <;> simp [launcherReaches] at reaches

theorem markTree_links (kernel : Kernel) (marked : List ProcessId) (exitCode : ℕ) :
    LinksKept kernel
      { kernel with
        processes := kernel.processes.mapEntries fun id process =>
          if id ∈ marked then markForExit exitCode process else process } := by
  intro _ _ found
  rw [Kernel.process, Registry.lookup_mapEntries] at found
  obtain ⟨old, oldFound, rfl⟩ := map_eq_some_iff.mp found
  refine ⟨old, oldFound, ?_⟩
  split
  · exact ⟨rfl, .inl rfl⟩
  · exact ⟨rfl, .inl rfl⟩

theorem terminateLaunched_moves (operational : kernel.Operational)
    (marks : scope.mark) {exitCode : ℕ} (current : kernel.currentProcess = some id)
    (doomed : ∀ other process, kernel.process other = some process →
      kernel.processIsInTree env.rounds other id = some true → other ≠ id →
      process.permanent = false → scope.destroy other)
    (call : kernel.terminateProcessTree env id exitCode id = some (status, after)) :
    scope.Moves kernel after := by
  unfold terminateProcessTree at call
  split at call
  · cases call
    exact .refl
  split at call
  · cases call
    exact .refl
  simp only [bind_eq_some, markProcessTreeForExit] at call
  obtain ⟨⟨_, _⟩, ⟨members, _, marking⟩, call⟩ := call
  cases marking
  have markedMoves : scope.Moves kernel _ :=
    .single (.markTree kernel (members.filter fun id => !kernel.isPermanent id) exitCode marks)
  split at call
  · cases call
    exact markedMoves
  · simp only [bind_eq_some] at call
    obtain ⟨_, destruction, result⟩ := call
    cases result
    refine markedMoves.trans (destroyTreeFrom_moves marks env.rounds
      (markedMoves.operational operational) ?_ ?_ destruction)
    · intro process isCurrent
      have sameCurrent : kernel.currentProcess = some process := isCurrent
      cases current.symm.trans sameCurrent
      rfl
    · intro _ kept other process found inTree notExempt notPermanent
      have links := (markTree_links kernel _ exitCode).trans kept.links
      obtain ⟨old, oldFound, permanent, -⟩ := links other process found
      exact doomed other old oldFound (processIsInTree_of_links links inTree)
        notExempt (permanent.symm.trans notPermanent)

theorem reapExitingFrom_moves (marks : scope.mark) {current : Option ProcessId} (rounds : ℕ)
    (operational : kernel.Operational)
    (keeps : ∀ process, kernel.currentProcess = some process → current = some process)
    (doomed : ∀ middle, ProcessesKept kernel middle → ∀ id process,
      middle.process id = some process → current ≠ some id →
      process.currentState = .exiting → process.permanent = false → scope.destroy id)
    (call : kernel.reapExitingFrom env current rounds cursor = some after) :
    scope.Moves kernel after := by
  fun_induction reapExitingFrom env current rounds cursor kernel with
  | case1 =>
    cases call
    exact .refl
  | case2 => cases call
  | case3 _ id kernel ih =>
    simp only [bind_eq_some] at call
    obtain ⟨process, found, _, turn, call⟩ := call
    obtain ⟨moves, kept, frame⟩ := destroyIf_moves operational marks
      (fun picked => doomed kernel (.refl _) id process found picked.1 picked.2.1
        (by simpa using picked.2.2))
      (fun picked isCurrent => picked.1 (keeps id isCurrent)) turn
    exact moves.trans (ih _ (moves.operational operational)
      (fun other current => keeps other (kept other current))
      (fun later earlier => doomed later (frame.trans earlier)) call)

theorem consumeExitStatus_moves {id parent : ProcessId} :
    scope.Moves kernel ((kernel.consumeExitStatus id parent).2.2) := by
  unfold consumeExitStatus
  dsimp only
  split
  · exact .refl
  · exact .single (.core _ .plain (.inr rfl) (.single (.bookkeeping _ _ kernel.heapOutcomes _)))

theorem heapOutcomes_moves (outcomes : List Bool) :
    scope.Moves kernel { kernel with heapOutcomes := outcomes } :=
  .single (.core _ .plain (.inr rfl) (.single (.bookkeeping _ _ outcomes kernel.exitRecords)))

theorem createProcess_moves (operational : kernel.Operational)
    {name : Text} {userProcess : Bool} {pageTableRoot : ℕ}
    (call : kernel.createProcess env name userProcess pageTableRoot = some (status, after)) :
    scope.Moves kernel after := by
  unfold createProcess heapAlloc at call
  dsimp only at call
  split at call
  · cases call
    exact heapOutcomes_moves _
  split at call
  · cases call
    exact heapOutcomes_moves _
  rename_i table
  have registered : scope.Moves kernel
      { kernel with heapOutcomes := kernel.heapOutcomes.tail.tail } :=
    heapOutcomes_moves _
  split at call
  · cases call
    exact registered
  · simp only [bind_eq_some] at call
    obtain ⟨_, publication, result⟩ := call
    cases result
    have created := registered.tail
      (.createProcess _ (newProcess name userProcess pageTableRoot) rfl table)
    exact created.tail (.core _ .plain (.inr rfl) (runs.publish []
      (KernelMoves.operational created operational).current
      (.inl (processRecord_ofCore _ _ _)) calm_nil publication))

theorem allocateThread_eq (kernel : Kernel) :
    ∃ outcomes, kernel.allocateThread.2 = { kernel with heapOutcomes := outcomes } := by
  unfold allocateThread heapAlloc
  dsimp only
  split
  · exact ⟨_, rfl⟩
  · split <;> exact ⟨_, rfl⟩

theorem createThread_moves (operational : kernel.Operational)
    (spawns : scope.spawn) {parent : ProcessId} {name : Text} {start basePriority quantumTicks : ℕ}
    {userThread : Bool} (call : kernel.createThread env parent name start basePriority quantumTicks
      userThread = some (status, after)) :
    scope.Moves kernel after := by
  unfold createThread at call
  split at call
  · cases call
    exact .refl
  split at call
  · cases call
    exact .refl
  rename_i valid
  split at call
  · cases call
    exact .refl
  rename_i registered
  obtain ⟨outcomes, charged⟩ := allocateThread_eq kernel
  rcases allocation : kernel.allocateThread with ⟨_, _⟩
  rw [allocation] at charged call
  dsimp only at charged call
  subst charged
  have chargedMoves : scope.Moves kernel { kernel with heapOutcomes := outcomes } :=
    heapOutcomes_moves _
  split at call
  · cases call
    exact chargedMoves
  · simp only [bind_eq_some] at call
    obtain ⟨_, publication, result⟩ := call
    cases result
    rw [not_or] at valid
    have created := chargedMoves.tail (.createThread _ parent name basePriority
      quantumTicks userThread spawns registered (not_le.mp valid.1))
    exact created.tail (.core _ .plain (.inr rfl) (runs.publish []
      (KernelMoves.operational created operational).current
      (.inl (threadRecord_ofCore _ _ _ _ _)) calm_nil publication))

/-! ## The event broker -/

theorem subscribe_moves {request : SubscriptionRequest} (allowed : scope.subscribe owner request)
    (call : kernel.subscribe owner request = (status, after)) :
    scope.Moves kernel after := by
  unfold subscribe heapAlloc at call
  dsimp only at call
  split at call
  · cases call
    exact .refl
  split at call
  · cases call
    exact .refl
  split at call
  · cases call
    exact .refl
  split at call
  · cases call
    exact heapOutcomes_moves _
  · cases call
    exact (heapOutcomes_moves kernel.heapOutcomes.tail).tail (.subscribe _ _ _ allowed)

variable {subscription : SubscriptionId}

theorem readEvents_moves {capacity : ℕ} :
    scope.Moves kernel ((kernel.readEvents owner subscription capacity).2.2) := by
  unfold readEvents
  split
  · exact .refl
  · rename_i subscriber found
    obtain ⟨linked, -⟩ := filter_eq_some_iff.mp found
    exact .single (.readEvents _ _ subscriber _ linked (min_le_right _ _))

theorem unsubscribe_moves (operational : kernel.Operational)
    (allowed : scope.unsubscribe owner subscription)
    (call : kernel.unsubscribe env owner subscription = some (status, after)) :
    scope.Moves kernel after := by
  unfold unsubscribe at call
  split at call
  · cases call
    exact .refl
  split at call
  · cases call
    exact .refl
  rename_i present
  obtain ⟨_, subscribed⟩ := ne_none_iff_exists'.mp present
  obtain ⟨found, owns⟩ := filter_eq_some_iff.mp subscribed
  simp only [destroySubscriber, bind_eq_some] at call
  obtain ⟨_, ⟨_, waking, remaining, linked, removal⟩, result⟩ := call
  cases removal
  cases result
  have run := wakeWaiter_run operational.current [.unsubscribing] (.inl rfl)
    (calm_cons rfl _) waking
  obtain ⟨_, oldFound, sameOwner, -⟩ := run.subscribersKept subscription remaining linked
  cases found.symm.trans oldFound
  refine (Relation.ReflTransGen.single (.core _ .unsubscribing (.inr rfl) run)).tail
    (.unsubscribe _ owner _ remaining allowed linked ?_)
  rw [sameOwner]
  simpa using owns

omit runs in
/-- A wait either returns on its checks or registers the caller and blocks. -/
theorem eventWait_cases (call : kernel.eventWait env owner subscription = some (transfer, after)) :
    after = kernel ∨ ∃ id subscriber thread inner blocked, kernel.currentThread = some id ∧
        kernel.subscriber subscription = some subscriber ∧
        subscriber.ownerProcessId = owner ∧
        subscriber.queuedCount = 0 ∧
        (subscriber.waitingThread = none ∨ subscriber.waitingThread = some id) ∧
        kernel.thread id = some thread ∧ thread.currentState = .running ∧
        (kernel.modifySubscriber subscription fun subscriber =>
          { subscriber with waitingThread := some id }).blockCurrent env .event
            (.eventWait subscription) = some (inner, blocked) ∧
        after = (if inner = .switched then blocked
          else blocked.eventWaitTail subscription id) := by
  unfold eventWait at call
  split at call
  · cases call
    exact .inl rfl
  rename_i subscriber found
  obtain ⟨linked, owns⟩ := filter_eq_some_iff.mp found
  split at call
  · cases call
    exact .inl rfl
  rename_i empty
  split at call
  · cases call
    exact .inl rfl
  rename_i id current
  simp only [bind_eq_some] at call
  obtain ⟨thread, threadFound, call⟩ := call
  split at call
  · cases call
    exact .inl rfl
  rename_i running
  split at call
  · cases call
    exact .inl rfl
  rename_i free
  simp only [bind_eq_some] at call
  obtain ⟨⟨inner, blocked⟩, block, call⟩ := call
  refine .inr ⟨id, subscriber, thread, inner, blocked, current, linked, by simpa using owns,
    not_not.mp empty, ?_, threadFound, not_not.mp running, block, ?_⟩
  · by_cases noWaiter : subscriber.waitingThread = none
    · exact .inl noWaiter
    · exact .inr (not_not.mp fun other => free ⟨noWaiter, other⟩)
  · cases inner with
    | switched =>
      cases call
      rfl
    | returned =>
      cases call
      simp

theorem eventWait_moves (operational : kernel.Operational)
    (executing : kernel.Executing) (ends : scope.Ends kernel (.eventWait subscription))
    (allowed : scope.wait owner subscription)
    (call : kernel.eventWait env owner subscription = some (transfer, after)) :
    scope.Moves kernel after := by
  rcases eventWait_cases call with rfl | ⟨id, subscriber, _, _, _, current,
    linked, owns, empty, free, -, -, block, rfl⟩
  · exact .refl
  have waiting : KernelMoves scope (.running, kernel) _ :=
    .single (.setWaiter _ owner _ subscriber id allowed current linked owns empty free
      (ends.called id current))
  rcases blockCurrent_moves (waiting.operational operational)
    (by exact executing) (ends.of_current rfl) (.event subscription) block with
    ⟨rfl, moves⟩ | ⟨rfl, moves, sameCurrent, -⟩
  · exact waiting.trans moves
  · exact (waiting.trans moves).tail (.clearWaiter _ _ _ (sameCurrent.trans current))

/-! ## Messages -/

theorem ipcReserveQueue_moves : scope.Moves kernel ((kernel.ipcReserveQueue pid).2) := by
  unfold ipcReserveQueue heapAlloc
  dsimp only
  split
  · exact .refl
  split
  · exact (heapOutcomes_moves kernel.heapOutcomes.tail).tail (.messages _ _)
  · exact heapOutcomes_moves _

theorem ipcReserveMessageCapacity_moves {queue : IpcProcessQueue} :
    scope.Moves kernel ((kernel.ipcReserveMessageCapacity pid queue).2) := by
  unfold ipcReserveMessageCapacity heapAlloc
  dsimp only
  split
  · exact .refl
  split
  · exact (heapOutcomes_moves kernel.heapOutcomes.tail).tail (.messages _ _)
  · exact heapOutcomes_moves _

theorem ipcWakeWaiter_moves (operational : kernel.Operational)
    (call : kernel.ipcWakeWaiter env pid = some after) :
    scope.Moves kernel after := by
  unfold ipcWakeWaiter at call
  dsimp only at call
  split at call
  · cases call
    exact .refl
  · rename_i id first
    simp only [bind_eq_some] at call
    obtain ⟨⟨_, _⟩, wake, result⟩ := call
    cases result
    have waits := List.find?_some first
    simp only [any_eq_true, Bool.and_eq_true, decide_eq_true_eq] at waits
    obtain ⟨thread, found, waiting, reason⟩ := waits
    exact .single (.core _ (.message id thread found waiting reason) (.inr rfl)
      (enqueue_run operational.current [.requested id] (.inr rfl) wake).1)

theorem ipcEnqueue_moves (operational : kernel.Operational)
    {receiver : ProcessId} {message : UserIpcMessage}
    (call : kernel.ipcEnqueue env receiver message = some (status, after)) :
    scope.Moves kernel after := by
  unfold ipcEnqueue at call
  split at call
  · cases call
    exact .refl
  have reserveMoves : scope.Moves kernel ((kernel.ipcReserveQueue receiver).2) :=
    ipcReserveQueue_moves
  rcases reserve : kernel.ipcReserveQueue receiver with ⟨_, reservedKernel⟩
  rw [reserve] at call reserveMoves
  dsimp only at call reserveMoves
  split at call
  · cases call
    exact reserveMoves
  simp only [bind_eq_some] at call
  obtain ⟨queue, -, call⟩ := call
  have growMoves : scope.Moves kernel
      ((reservedKernel.ipcReserveMessageCapacity receiver queue).2) :=
    reserveMoves.trans ipcReserveMessageCapacity_moves
  rcases grow : reservedKernel.ipcReserveMessageCapacity receiver queue with
    ⟨grown, grownKernel⟩
  rw [grow] at call growMoves
  split at call
  · cases call
    exact growMoves
  simp only [bind_eq_some] at call
  obtain ⟨_, wake, result⟩ := call
  cases result
  have stored : scope.Moves kernel (grownKernel.ipcModifyQueue receiver fun queue =>
        { queue with messages := queue.messages ++ [message] }) :=
    growMoves.tail (.messages _ _)
  exact stored.trans (ipcWakeWaiter_moves (stored.operational operational) wake)

theorem ipcDequeue_moves {receiver : ProcessId} :
    scope.Moves kernel ((kernel.ipcDequeue receiver).2.2) := by
  unfold ipcDequeue
  split
  · exact .refl
  split
  · exact .single (.messages _ _)
  · exact .refl

end RosKernel.Kernel
