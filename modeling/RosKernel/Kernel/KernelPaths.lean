import RosKernel.Kernel.KernelMoves

/-!
# Choosing, switching and blocking

The scheduler's calls that give up the processor are sequences of moves through the
stages of a switch.
-/

namespace RosKernel.Kernel

open Option

/-- A kernel past `Scheduler::bootstrap`: a thread is current, there is an idle
thread, and every process has a page table. -/
structure Operational (kernel : Kernel) : Prop where
  current : kernel.currentThread.isSome
  idle : kernel.idleThread.isSome
  tables : ∀ id process, kernel.process id = some process → process.pageTableRoot ≠ 0

variable {before : Kernel}

theorem CoreFrame.operational {after : Kernel} (frame : CoreFrame before after)
    (operational : before.Operational) : after.Operational where
  current := by
    rw [frame.currentThread]
    exact operational.current
  idle := by
    rw [frame.idleThread]
    exact operational.idle
  tables := by
    intro id process found
    obtain ⟨old, oldFound, root, -⟩ := frame.process id process found
    rw [root]
    exact operational.tables id old oldFound

theorem Operational.of_modifyProcess {kernel : Kernel} {id : ProcessId} {update : Process → Process}
    (operational : kernel.Operational)
    (kept : ∀ process, (update process).pageTableRoot = process.pageTableRoot) :
    (kernel.modifyProcess id update).Operational where
  current := operational.current
  idle := operational.idle
  tables := by
    intro other process found
    rcases written_cases (process_modifyProcess ..) found with
      ⟨-, old, oldFound, rfl⟩ | ⟨-, found⟩
    · rw [kept]
      exact operational.tables other old oldFound
    · exact operational.tables other process found

section

variable (kernel : Kernel) (id : ThreadId) (continuation : Continuation)

/-- A switch writes to threads and to `g_current_thread` only. -/
theorem switchIn_eq :
    kernel.switchIn id continuation = { kernel with
      threads := (kernel.switchIn id continuation).threads
      currentThread := some id } := by
  unfold switchIn contextSwitch
  split <;> rfl

@[simp]
theorem currentThread_switchIn : (kernel.switchIn id continuation).currentThread = some id := by
  rw [switchIn_eq]

@[simp]
theorem idleThread_switchIn : (kernel.switchIn id continuation).idleThread = kernel.idleThread := by
  rw [switchIn_eq]

theorem processes_switchIn : (kernel.switchIn id continuation).processes = kernel.processes := by
  rw [switchIn_eq]

theorem subscribers_switchIn :
    (kernel.switchIn id continuation).subscribers = kernel.subscribers := by
  rw [switchIn_eq]

end

variable {id : ThreadId}

/-- A switch touches the thread it switches in and the one it switches out. -/
theorem thread_switchIn_map {kernel : Kernel} (notCurrent : kernel.currentThread ≠ some id)
    (continuation : Continuation) (other : ThreadId) :
    (kernel.switchIn id continuation).thread other = (kernel.thread other).map fun thread =>
        if other = id then resetQuantum thread
        else if kernel.currentThread = some other then
          { thread with continuation := continuation }
        else thread := by
  have identity : (kernel.thread other).map (fun thread => thread) = kernel.thread other :=
    map_id' ..
  unfold switchIn contextSwitch
  cases current : kernel.currentThread with
  | none =>
    rw [thread_modifyThread]
    split
    · rfl
    · exact identity.symm
  | some previous =>
    rw [current] at notCurrent
    rw [thread_modifyThread]
    split
    · rename_i isPrevious
      subst isPrevious
      have isOther : other ≠ id := fun same => notCurrent (congrArg some same)
      rw [thread_modifyThread, if_neg isOther]
      simp only [isOther, if_false, if_true]
      rfl
    · rename_i notPrevious
      have ne : some previous ≠ some other := fun same => notPrevious (Option.some.inj same).symm
      rw [thread_modifyThread]
      split
      · rfl
      · exact identity.symm

theorem thread_switchIn {kernel : Kernel} {other : ThreadId} {continuation : Continuation}
    {written : Thread} (notCurrent : kernel.currentThread ≠ some id)
    (found : (kernel.switchIn id continuation).thread other = some written) :
    ∃ old, kernel.thread other = some old ∧ (other = id ∧ written = resetQuantum old ∨
        other ≠ id ∧ kernel.currentThread = some other ∧
          written = { old with continuation := continuation } ∨
        other ≠ id ∧ kernel.currentThread ≠ some other ∧ written = old) := by
  rw [thread_switchIn_map notCurrent] at found
  obtain ⟨old, oldFound, rfl⟩ := map_eq_some_iff.mp found
  refine ⟨old, oldFound, ?_⟩
  split
  · exact .inl ⟨‹_›, rfl⟩
  split
  · exact .inr (.inl ⟨‹_›, ‹_›, rfl⟩)
  · exact .inr (.inr ⟨‹_›, ‹_›, rfl⟩)

variable (kernel : Kernel)

theorem KernelMove.operational {scope : Scope} {before after : Stage × Kernel}
    (move : KernelMove scope before after)
    (operational : before.2.Operational) : after.2.Operational := by
  cases move with
  | core _ _ _ run => exact run.frame.operational operational
  | createProcess _ _ _ table =>
    refine ⟨operational.current, operational.idle, ?_⟩
    intro id other found
    rcases Registry.of_insert found with rfl | found
    · exact table
    · exact operational.tables id other found
  | setLauncher | markExiting | markTerminated => exact .of_modifyProcess operational fun _ => rfl
  | markTree =>
    refine ⟨operational.current, operational.idle, ?_⟩
    intro id other found
    rw [Kernel.process, Registry.lookup_mapEntries] at found
    obtain ⟨old, oldFound, rfl⟩ := map_eq_some_iff.mp found
    have table := operational.tables id old oldFound
    split
    · exact table
    · exact table
  | pop =>
    rw [readyQueueRemove_eq]
    exact { operational with }
  | bind kernel _ _ thread =>
    unfold startRunning
    cases thread.parent with
    | none => exact { operational with }
    | some parent =>
      have running : (kernel.modifyProcess parent fun process =>
          { process with currentState := .running }).Operational :=
        .of_modifyProcess operational fun _ => rfl
      exact { running with }
  | switchIn =>
    rw [switchIn_eq]
    exact ⟨rfl, operational.idle, operational.tables⟩
  | _ => exact { operational with }

theorem KernelMoves.operational {scope : Scope} {before after : Stage × Kernel}
    (moves : KernelMoves scope before after)
    (operational : before.2.Operational) : after.2.Operational := by
  induction moves with
  | refl => exact operational
  | tail _ move ih => exact move.operational ih

/-! ## Choosing the next thread -/

/-- A thread without its queue flag. -/
def unflagged (thread : Thread) : Thread := { thread with inReadyQueue := false }

/-- The states differ in ready queues and queue flags only. -/
structure QueueFrame (before after : Kernel) : Prop where
  currentThread : after.currentThread = before.currentThread
  idleThread : after.idleThread = before.idleThread
  processes : after.processes = before.processes
  subscribers : after.subscribers = before.subscribers
  retiredThreads : after.retiredThreads = before.retiredThreads
  sleepQueue : after.sleepQueue = before.sleepQueue
  thread : ∀ id, (after.thread id).map unflagged = (before.thread id).map unflagged

namespace QueueFrame

theorem refl : QueueFrame kernel kernel :=
  ⟨rfl, rfl, rfl, rfl, rfl, rfl, fun _ => rfl⟩

theorem trans {first second third : Kernel} (earlier : QueueFrame first second)
    (later : QueueFrame second third) : QueueFrame first third where
  currentThread := later.currentThread.trans earlier.currentThread
  idleThread := later.idleThread.trans earlier.idleThread
  processes := later.processes.trans earlier.processes
  subscribers := later.subscribers.trans earlier.subscribers
  retiredThreads := later.retiredThreads.trans earlier.retiredThreads
  sleepQueue := later.sleepQueue.trans earlier.sleepQueue
  thread id := (later.thread id).trans (earlier.thread id)

theorem found {before after : Kernel} (frame : QueueFrame before after)
    {id : ThreadId} {thread : Thread} (found : after.thread id = some thread) :
    ∃ old, before.thread id = some old ∧ unflagged thread = unflagged old := by
  have same := frame.thread id
  rw [found] at same
  obtain ⟨old, oldFound, equal⟩ := map_eq_some_iff.mp same.symm
  exact ⟨old, oldFound, equal.symm⟩

end QueueFrame

theorem unlinkReady_queueFrame {kernel : Kernel} (id : ThreadId) (priority : ℕ) :
    QueueFrame kernel (kernel.unlinkReady id priority) := by
  refine ⟨rfl, rfl, rfl, rfl, rfl, rfl, ?_⟩
  intro other
  rw [thread_unlinkReady]
  split
  · cases kernel.thread other <;> rfl
  · rfl

theorem readyQueueRemove_frame {kernel : Kernel} {thread : Thread}
    (found : kernel.thread id = some thread) :
    QueueFrame kernel (kernel.readyQueueRemove id) ∧
      ∃ removed, (kernel.readyQueueRemove id).thread id = some removed ∧
        unflagged removed = unflagged thread ∧ Unqueued removed := by
  rcases readyQueueRemove_cases kernel id with ⟨same, unqueued⟩ | ⟨_,
    queuedFound, queued, valid, removal⟩
  · rw [same]
    exact ⟨.refl _, thread, found, rfl, unqueued thread found⟩
  · cases found.symm.trans queuedFound
    rw [removal]
    refine ⟨unlinkReady_queueFrame _ _, unflagged thread, ?_, rfl, ?_⟩
    · rw [thread_unlinkReady, if_pos rfl, found]
      rfl
    · intro isQueued
      cases isQueued

theorem readyQueueRemove_run (id : ThreadId) (spares : ∀ thread, kernel.thread id = some thread →
      kernel.currentThread ≠ some id ∨ thread.currentState ≠ .ready ∨ kernel.idleThread = some id) :
    CoreRun ([], kernel) ([], kernel.readyQueueRemove id) := by
  rcases readyQueueRemove_cases kernel id with ⟨same, -⟩ | ⟨thread, found, queued, valid, removal⟩
  · rw [same]
  · rw [removal]
    exact .single (.unlink _ _ _ _ found queued valid (spares thread found))

theorem QueueFrame.relinquished {after : Kernel} (frame : QueueFrame before after)
    (relinquished : before.Relinquished) : after.Relinquished := by
  rcases relinquished with idle | stopped
  · left
    rw [frame.currentThread, frame.idleThread, idle]
  · right
    intro id thread current found
    obtain ⟨old, oldFound, same⟩ := frame.found found
    have sameState := congrArg Thread.currentState same
    change thread.currentState = old.currentState at sameState
    rw [sameState]
    exact stopped id old (frame.currentThread ▸ current) oldFound

variable {next : Option ThreadId}

/-- `ready_queue_pop_best` unlinks threads until it finds a ready one, or leaves an
empty bitmap. -/
theorem readyQueuePopBest_moves (scope : Scope) (continuation : Continuation) (rounds : ℕ)
    {kernel after : Kernel} (relinquished : kernel.Relinquished)
    (call : kernel.readyQueuePopBest rounds = some (next, after)) :
    QueueFrame kernel after ∧ (next = none ∧ after.highestReadyPriority = none ∧
          KernelMoves scope (.leaving continuation, kernel) (.leaving continuation, after) ∨
        ∃ id thread, next = some id ∧ after.thread id = some thread ∧
          thread.currentState = .ready ∧ Unqueued thread ∧
          kernel.idleThread ≠ some id ∧
          KernelMoves scope (.leaving continuation, kernel) (.chosen continuation id, after)) := by
  induction rounds generalizing kernel with
  | zero => cases call
  | succ _ ih =>
    unfold readyQueuePopBest at call
    split at call
    · rename_i noReady
      cases call
      exact ⟨.refl _, .inl ⟨rfl, noReady, .refl⟩⟩
    · rename_i priority best
      split at call
      · rename_i empty
        obtain ⟨frame, outcome⟩ := ih (by exact relinquished) call
        refine ⟨{ frame with }, ?_⟩
        rcases outcome with ⟨rfl, noReady, moves⟩ | ⟨id, thread, rfl, found, ready,
          unqueued, notIdle, moves⟩
        · exact .inl ⟨rfl, noReady, .head (.clearBit _ _ _ empty) moves⟩
        · exact .inr ⟨id, thread, rfl, found, ready, unqueued, notIdle,
            .head (.clearBit _ _ _ empty) moves⟩
      · rename_i id rest head
        split at call
        · cases call
        · rename_i thread found
          obtain ⟨frame, removed, removedFound, same, unqueued⟩ := readyQueueRemove_frame found
          split at call
          · rename_i selected
            cases call
            simp only [threadCanEnterReadyQueue, Bool.and_eq_true, decide_eq_true_eq] at selected
            refine ⟨frame, .inr ⟨id, removed, rfl, removedFound, ?_, unqueued,
              selected.1.2, .single (.pop _ _ _ _ _ _ best head found selected.2
                selected.1.2 relinquished)⟩⟩
            exact (congrArg Thread.currentState same).trans selected.2
          · rename_i passedOver
            obtain ⟨laterFrame, outcome⟩ := ih (frame.relinquished relinquished) call
            refine ⟨frame.trans laterFrame, ?_⟩
            have spares : ∀ other, kernel.thread id = some other →
                kernel.currentThread ≠ some id ∨ other.currentState ≠ .ready ∨
                  kernel.idleThread = some id := by
              refine of_found found
                (.inr (not_or_of_imp fun isReady => not_not.mp fun notIdle => ?_))
              simp [threadCanEnterReadyQueue, threadIsRunnable, isReady, notIdle] at passedOver
            have dropped : KernelMove scope (.leaving continuation, kernel)
                (.leaving continuation, kernel.readyQueueRemove id) :=
              .core _ .plain (.inl rfl) (readyQueueRemove_run _ id spares)
            rw [frame.idleThread] at outcome
            rcases outcome with ⟨rfl, noReady, moves⟩ | ⟨other, otherThread, rfl, rest⟩
            · exact .inl ⟨rfl, noReady, .head dropped moves⟩
            · obtain ⟨otherFound, ready, otherUnqueued, notIdle, moves⟩ := rest
              exact .inr ⟨other, otherThread, rfl, otherFound, ready, otherUnqueued,
                notIdle, .head dropped moves⟩

/-- The thread `pick_next_thread` settles on. -/
def Chosen (keepCurrentIfRunnable : Bool) (kernel : Kernel) (id : ThreadId) : Prop :=
  (∃ thread, kernel.thread id = some thread ∧ thread.currentState = .ready ∧
      Unqueued thread ∧ kernel.idleThread ≠ some id) ∨
    kernel.highestReadyPriority = none ∧
      (kernel.idleThread = some id ∨
        keepCurrentIfRunnable = true ∧ kernel.currentThread = some id ∧
          ∃ thread, kernel.thread id = some thread ∧ threadIsRunnable thread = true)

theorem pickNextThread_moves (scope : Scope) (continuation : Continuation)
    {kernel after : Kernel} {rounds : ℕ} {keep : Bool}
    (operational : kernel.Operational) (relinquished : kernel.Relinquished)
    (call : kernel.pickNextThread rounds keep = some (next, after)) :
    QueueFrame kernel after ∧ ∃ id, next = some id ∧ Chosen keep after id ∧
        KernelMoves scope (.leaving continuation, kernel) (.chosen continuation id, after) := by
  simp only [pickNextThread, bind_eq_some] at call
  obtain ⟨⟨_, middle⟩, pop, call⟩ := call
  obtain ⟨frame, outcome⟩ := readyQueuePopBest_moves scope continuation rounds relinquished pop
  rcases outcome with ⟨rfl, noReady, moves⟩ | ⟨id, thread, rfl, found, ready, unqueued,
    notIdle, moves⟩
  · have idleSome : middle.idleThread.isSome := by
      rw [frame.idleThread]
      exact operational.idle
    have currentSome : middle.currentThread.isSome := by
      rw [frame.currentThread]
      exact operational.current
    obtain ⟨current, isCurrent⟩ := isSome_iff_exists.mp currentSome
    obtain ⟨idle, isIdle⟩ := isSome_iff_exists.mp idleSome
    dsimp only at call
    split at call
    · rename_i keeps
      cases call
      simp only [Bool.and_eq_true, isCurrent, bind_some, any_eq_true] at keeps
      obtain ⟨⟨keepFlag, thread, found, isRunnable⟩, -⟩ := keeps
      exact ⟨frame, current, isCurrent,
        .inr ⟨noReady, .inr ⟨keepFlag, isCurrent, thread, found, isRunnable⟩⟩,
        moves.tail (.fallBack _ _ _ noReady (.inr ⟨isCurrent, thread, found, isRunnable⟩))⟩
    · cases call
      exact ⟨frame, idle, isIdle, .inr ⟨noReady, .inl isIdle⟩,
        moves.tail (.fallBack _ _ _ noReady (.inl isIdle))⟩
  · cases call
    refine ⟨frame, id, rfl, .inl ⟨thread, found, ready, unqueued, ?_⟩, moves⟩
    rw [frame.idleThread]
    exact notIdle

/-! ## Switching and dispatching -/

variable {env : Env} [runs : env.Runs] {scope : Scope} {kernel after : Kernel}

variable {id : ThreadId}

omit runs in
/-- With page tables everywhere a bind succeeds: it marks the thread running,
publishes, and then moves `g_current_thread`. -/
theorem bindCurrentThread_cases (operational : kernel.Operational) {status : Status}
    (call : kernel.bindCurrentThread env id = some (status, after)) :
    status = .ok ∧ ∃ thread published, kernel.thread id = some thread ∧
      (if thread.currentState ≠ .running then
        env.publish (threadRecord .threadRunning id thread thread.currentState .running)
          (kernel.startRunning id thread)
       else some (kernel.startRunning id thread)) = some published ∧
      after = { published with currentThread := some id }.modifyThread id resetQuantum := by
  simp only [bindCurrentThread, bind_eq_some] at call
  obtain ⟨thread, found, switched, table, call⟩ := call
  have hasTable : switched = true := by
    unfold switchTo at table
    split at table
    · cases table
      rfl
    · obtain ⟨owner, ownerFound, rfl⟩ := map_eq_some_iff.mp table
      exact decide_eq_true (operational.tables _ owner ownerFound)
  subst hasTable
  simp only [Bool.not_true, Bool.false_eq_true, if_false, bind_eq_some] at call
  obtain ⟨published, publication, result⟩ := call
  cases result
  exact ⟨rfl, thread, published, found, publication, rfl⟩

/-- Apart from processes, `bind_current_thread` writes to the bound thread only. -/
theorem startRunning_eq (id : ThreadId) (thread : Thread) :
    kernel.startRunning id thread =
      ({ kernel with processes := (kernel.startRunning id thread).processes } :
        Kernel).modifyThread id fun thread => { thread with currentState := .running } := by
  unfold startRunning
  cases thread.parent <;> rfl

theorem currentThread_startRunning (id : ThreadId) (thread : Thread) :
    (kernel.startRunning id thread).currentThread = kernel.currentThread := by
  unfold startRunning
  cases thread.parent <;> rfl

variable {thread : Thread}

theorem thread_startRunning {written : Thread}
    (found : (kernel.startRunning id thread).thread id = some written) :
    written.currentState = .running := by
  cases thread.parent <;>
  · obtain ⟨_, -, rfl⟩ := thread_of_modified found
    rfl

/-- No write of the core puts an awake thread to sleep. -/
theorem ThreadWrite.awake {isCurrent : Prop} {old written : Thread}
    (write : ThreadWrite isCurrent old written) (awake : Awake old) : Awake written := by
  cases write with
  | detach | link | unlink => exact awake
  | leaveWait => exact ⟨by simp [Kernel.leaveWait], by simp [Kernel.leaveWait]⟩
  | terminate => exact ⟨by simp, fun _ => rfl⟩

/-- The state in which `bind_current_thread` has published that it dispatches a
thread, and `g_current_thread` still names the previous one. -/
structure Bound (scope : Scope) (env : Env) (continuation : Continuation) (kernel : Kernel)
    (id : ThreadId) (published : Kernel) : Prop where
  publication : ∃ thread, kernel.thread id = some thread ∧
    (if thread.currentState ≠ .running then
      env.publish (threadRecord .threadRunning id thread thread.currentState .running)
        (kernel.startRunning id thread)
     else some (kernel.startRunning id thread)) = some published
  moves : KernelMoves scope (.chosen continuation id, kernel) (.binding continuation id, published)
  currentThread : published.currentThread = kernel.currentThread
  notCurrent : published.currentThread ≠ some id
  awake : ∀ thread, published.thread id = some thread → Awake thread

variable {continuation : Continuation} {keep atTail : Bool} {transfer : Transfer}

section

variable (operational : kernel.Operational)
include operational

/-- A switch to another thread binds it, publishes and saves the context of the
current one. -/
theorem switchToThread_bound (dispatches : scope.dispatch) (chosen : Chosen keep kernel id)
    (notCurrent : kernel.currentThread ≠ some id)
    (call : kernel.switchToThread env (some id) continuation = some (transfer, after)) :
    transfer = .switched ∧ ∃ published, Bound scope env continuation kernel id published ∧
      after = published.switchIn id continuation := by
  unfold switchToThread at call
  dsimp only at call
  rw [if_neg notCurrent] at call
  simp only [bind_eq_some] at call
  obtain ⟨⟨_, _⟩, binding, call⟩ := call
  obtain ⟨rfl, thread, published, found, publication, rfl⟩ :=
    bindCurrentThread_cases operational binding
  cases call
  have run : CoreRun ([], kernel.startRunning id thread) ([], published) := by
    refine publishIf_run [] ?_ (threadRecord_ofCore _ _ _ _ _) calm_nil publication
    rw [currentThread_startRunning]
    exact operational.current
  have sameCurrent : published.currentThread = kernel.currentThread :=
    run.frame.currentThread.trans (currentThread_startRunning _ _)
  have fit : kernel.Eligible id thread := by
    rcases chosen with ⟨_, readyFound, isReady, unqueued, -⟩ | ⟨-, isIdle | ⟨-, isCurrent, -⟩⟩
    · cases found.symm.trans readyFound
      exact .inl ⟨isReady, unqueued⟩
    · exact .inr isIdle
    · exact absurd isCurrent notCurrent
  refine ⟨rfl, published, ⟨⟨thread, found, publication⟩,
    (Relation.ReflTransGen.single (.bind _ _ _ _ dispatches found notCurrent fit)).tail
      (.core _ .plain (.inl rfl) run), sameCurrent, sameCurrent ▸ notCurrent, ?_⟩, ?_⟩
  · refine run.thread_closed Awake (fun _ _ write => write.awake) ?_
    intro _ writtenFound
    have running := thread_startRunning writtenFound
    exact ⟨by simp [running], by simp [running]⟩
  · rw [switchIn, sameCurrent]

theorem switchToThread_moves (dispatches : scope.dispatch) (suspends : scope.suspend continuation)
    (chosen : Chosen keep kernel id)
    (call : kernel.switchToThread env (some id) continuation = some (transfer, after)) :
    KernelMoves scope (.chosen continuation id, kernel) (.running, after) ∧
      (transfer = .switched ∨ transfer = .returned .ok ∧ kernel.currentThread = some id) := by
  by_cases isCurrent : kernel.currentThread = some id
  · unfold switchToThread at call
    dsimp only at call
    rw [if_pos isCurrent] at call
    cases call
    refine ⟨.single (.selfSwitch _ _ _ isCurrent ?_), .inr ⟨rfl, isCurrent⟩⟩
    intro _ found
    rcases chosen with ⟨_, readyFound, isReady, unqueued, -⟩ | ⟨noReady, isIdle | ⟨-, -,
      kept, keptFound, runnable⟩⟩
    · cases found.symm.trans readyFound
      exact .inl (.inl ⟨isReady, unqueued⟩)
    · exact .inl (.inr isIdle)
    · cases found.symm.trans keptFound
      exact .inr ⟨noReady, runnable⟩
  · obtain ⟨rfl, _, bound, rfl⟩ := switchToThread_bound operational dispatches chosen isCurrent call
    exact ⟨bound.moves.tail (.switchIn _ _ _ suspends bound.notCurrent bound.awake), .inl rfl⟩

end

variable {rounds delayTicks : ℕ}

/-- A call into the core as one move of an operation. -/
theorem reap_moves (operational : kernel.Operational) (stage : Stage)
    (call : kernel.reapRetiredThreads env rounds = some after) :
    KernelMoves scope (stage, kernel) (stage, after) :=
  .single (.core _ .plain (.inl rfl)
    (reapRetiredThreads_run [] rounds operational.current calm_nil call))

theorem reap_currentThread (operational : kernel.Operational)
    (call : kernel.reapRetiredThreads env rounds = some after) :
    after.currentThread = kernel.currentThread :=
  (CoreRun.frame (reapRetiredThreads_run [] rounds operational.current calm_nil
    call)).currentThread

theorem readyQueuePush_moves {status : Status} (continuation : Continuation)
    (current : kernel.currentThread = some id) (notIdle : kernel.idleThread ≠ some id)
    (found : kernel.thread id = some thread) (isReady : thread.currentState = .ready)
    (call : kernel.readyQueuePush id atTail = (status, after)) :
    KernelMoves scope (.requeuing continuation, kernel) (.leaving continuation, after) := by
  rcases readyQueuePush_cases call with ⟨refused, rfl⟩ | ⟨_, pushedFound, eligible, valid,
    notQueued, -, rfl⟩
  · refine .single (.refuse _ _ id thread current found ?_)
    by_contra accepted
    simp only [not_or, not_not, Bool.not_eq_true] at accepted
    simp [readyQueuePush, found, threadCanEnterReadyQueue, threadIsRunnable, isReady,
      accepted, notIdle] at call
    exact refused call.1.symm
  · cases found.symm.trans pushedFound
    simp only [threadCanEnterReadyQueue, Bool.and_eq_true, decide_eq_true_eq] at eligible
    exact .single (.push _ _ _ _ _ current found isReady eligible.2 valid notQueued)

/-- The core does not put a thread in the running state. -/
theorem CoreRun.not_running {before after : List Frame × Kernel} (run : CoreRun before after)
    (stopped : ∀ thread, before.2.thread id = some thread → thread.currentState ≠ .running) :
    ∀ thread, after.2.thread id = some thread → thread.currentState ≠ .running := by
  refine run.thread_closed (fun thread => thread.currentState ≠ .running) ?_ stopped
  intro _ _ write notRunning
  cases write with
  | detach | link | unlink => exact notRunning
  | leaveWait | terminate => exact nofun

theorem requeueCurrent_moves (operational : kernel.Operational)
    (continuation : Continuation) {reset : Bool}
    (call : kernel.requeueCurrent env atTail reset = some after) :
    KernelMoves scope (.leaving continuation, kernel) (.leaving continuation, after) ∧
      after.Relinquished := by
  unfold requeueCurrent at call
  split at call
  · rename_i absent
    have active := operational.current
    rw [absent] at active
    cases active
  rename_i id current
  split at call
  · rename_i idle
    cases call
    exact ⟨.refl, .inl (current.trans idle.symm)⟩
  rename_i notIdle
  simp only [bind_eq_some] at call
  obtain ⟨thread, found, call⟩ := call
  split at call
  · rename_i stopped
    cases call
    refine ⟨.refl, .inr fun other written isCurrent writtenFound => ?_⟩
    cases current.symm.trans isCurrent
    cases found.symm.trans writtenFound
    exact stopped
  rename_i running
  rw [not_not] at running
  set readied := kernel.modifyThread id fun thread =>
    let thread := { thread with currentState := .ready }
    if reset then resetQuantum thread else thread with isReadied
  have requeued : KernelMove scope (.leaving continuation, kernel)
      (.requeuing continuation, readied) :=
    .requeue kernel continuation id thread reset current notIdle found running
  obtain ⟨ready, readyFound, isReady⟩ : ∃ ready, readied.thread id = some ready ∧
      ready.currentState = .ready := by
    rw [isReadied, thread_modifyThread, if_pos rfl, found]
    refine ⟨_, rfl, ?_⟩
    cases reset <;> rfl
  rcases push : readied.readyQueuePush id atTail with ⟨_, pushed⟩
  rw [push] at call
  have moves : KernelMoves scope (.leaving continuation, kernel)
      (.leaving continuation, pushed) :=
    .head requeued (readyQueuePush_moves continuation (by exact current) (by exact notIdle)
      readyFound isReady push)
  obtain ⟨pushedCurrent, pushedReady⟩ : pushed.currentThread = some id ∧
      ∀ written, pushed.thread id = some written → written.currentState ≠ .running := by
    rcases readyQueuePush_cases push with ⟨-, rfl⟩ | ⟨_, _, -, -, -, -, rfl⟩
    · refine ⟨current, fun written writtenFound => ?_⟩
      cases readyFound.symm.trans writtenFound
      simp [isReady]
    · refine ⟨current, fun written writtenFound => ?_⟩
      rw [thread_linkReady, if_pos rfl, readyFound] at writtenFound
      cases writtenFound
      simp [isReady]
  have relinquished (last : Kernel) (run : CoreRun ([], pushed) ([], last)) :
      last.Relinquished := by
    refine .inr fun _ written isCurrent writtenFound => ?_
    rw [run.frame.currentThread] at isCurrent
    cases pushedCurrent.symm.trans isCurrent
    exact run.not_running pushedReady written writtenFound
  split at call
  · have publication := runs.publish [] (moves.operational operational).current
      (.inl (threadRecord_ofCore _ _ _ _ _)) calm_nil call
    exact ⟨moves.tail (.core _ .plain (.inl rfl) publication), relinquished _ publication⟩
  · cases call
    exact ⟨moves, relinquished _ .refl⟩

/-! ## Blocking calls -/

theorem blockableThread_cases (call : kernel.blockableThread = some (some id)) :
    kernel.currentThread = some id ∧ kernel.idleThread ≠ some id ∧
      ∃ thread, kernel.thread id = some thread ∧ thread.currentState = .running := by
  unfold blockableThread at call
  split at call
  · cases call
  · rename_i current isCurrent
    split at call
    · cases call
    · rename_i notIdle
      simp only [bind_eq_some] at call
      obtain ⟨thread, found, call⟩ := call
      split at call
      · rename_i running
        cases call
        exact ⟨isCurrent, notIdle, thread, found, running⟩
      · cases call

@[simp]
theorem currentThread_modifyCurrent (update : Thread → Thread) :
    (kernel.modifyCurrent update).currentThread = kernel.currentThread := by
  unfold modifyCurrent
  split <;> rfl

variable {stage : Stage}

theorem modifyCurrent_wait_moves
    (resumed : stage = .running ∨ ∃ subscription, stage = .waiting subscription)
    (wakeTick : Thread → ℕ)
    (kept : ∀ thread, wakeTick thread = thread.wakeTick ∨ wakeTick thread = 0) :
    KernelMoves scope (stage, kernel) (stage, kernel.modifyCurrent fun thread =>
      { thread with waitStatus := .none, wakeTick := wakeTick thread }) := by
  unfold modifyCurrent
  split
  · exact .refl
  · rename_i id current
    exact .single (.finishWait _ _ _ _ resumed current kept)

theorem blockCurrentTail_moves
    (resumed : stage = .running ∨ ∃ subscription, stage = .waiting subscription) :
    KernelMoves scope (stage, kernel) (stage, kernel.blockCurrentTail .ok) := by
  have same : kernel.blockCurrentTail .ok = kernel.modifyCurrent fun thread =>
      { thread with waitStatus := .none, wakeTick := thread.wakeTick } := by
    simp [blockCurrentTail]
  exact modifyCurrent_wait_moves resumed _ fun _ => .inl rfl

theorem timedWaitCleanup_moves : scope.Moves kernel (kernel.timedWaitCleanup .ok) := by
  exact modifyCurrent_wait_moves (.inl rfl) _ fun _ => .inr rfl

/-- The current thread could be picked again. -/
def Keepable (keepCurrentIfRunnable : Bool) (kernel : Kernel) : Prop :=
  keepCurrentIfRunnable = true ∨ kernel.currentThread = kernel.idleThread ∨
    ∃ id thread, kernel.currentThread = some id ∧ kernel.thread id = some thread ∧
      thread.currentState = .ready

variable {picked : Kernel}

theorem keepable_of_chosen (frame : QueueFrame kernel picked) (chosen : Chosen keep picked id)
    (isCurrent : picked.currentThread = some id) : kernel.Keepable keep := by
  rcases chosen with ⟨_, found, ready, -⟩ | ⟨-, isIdle | ⟨keeps, -⟩⟩
  · obtain ⟨old, oldFound, same⟩ := frame.found found
    refine .inr (.inr ⟨id, old, frame.currentThread ▸ isCurrent, oldFound, ?_⟩)
    exact (congrArg Thread.currentState same).symm.trans ready
  · refine .inr (.inl ?_)
    rw [← frame.currentThread, ← frame.idleThread, isCurrent, isIdle]
  · exact .inl keeps

section

variable (operational : kernel.Operational) (dispatches : scope.dispatch)
    (suspends : scope.suspend continuation)
include operational dispatches suspends

theorem pickAndSwitch_moves (relinquished : kernel.Relinquished)
    (pick : kernel.pickNextThread rounds keep = some (next, picked))
    (switch : picked.switchToThread env next continuation = some (transfer, after)) :
    KernelMoves scope (.leaving continuation, kernel) (.running, after) ∧
      (transfer = .switched ∨ transfer = .returned .ok ∧ kernel.Keepable keep) := by
  obtain ⟨frame, _, rfl, chosen, picking⟩ :=
    pickNextThread_moves scope continuation operational relinquished pick
  obtain ⟨switching, outcome⟩ := switchToThread_moves
    (picking.operational operational) dispatches suspends chosen switch
  exact ⟨picking.trans switching, outcome.imp_right fun ⟨isOk, isCurrent⟩ =>
    ⟨isOk, keepable_of_chosen frame chosen isCurrent⟩⟩

theorem dispatch_moves {requeue reset : Bool}
    (requeues : requeue = true ∨ kernel.currentThread = kernel.idleThread)
    (call : kernel.dispatch env requeue atTail reset keep continuation = some (transfer, after)) :
    KernelMoves scope (.leaving continuation, kernel) (.running, after) := by
  simp only [dispatch, bind_eq_some] at call
  obtain ⟨requeued, requeuing, ⟨_, _⟩, pick, switch⟩ := call
  obtain ⟨requeueMoves, relinquished⟩ : KernelMoves scope (.leaving continuation, kernel)
      (.leaving continuation, requeued) ∧ requeued.Relinquished := by
    split at requeuing
    · exact requeueCurrent_moves operational continuation requeuing
    · rename_i kept
      cases requeuing
      exact ⟨.refl, .inl (requeues.resolve_left kept)⟩
  exact requeueMoves.trans (pickAndSwitch_moves
    (requeueMoves.operational operational) dispatches suspends relinquished pick
    switch).1

end

variable {update : Thread → Thread}

theorem relinquished_modifyThread (current : kernel.currentThread = some id)
    (stops : ∀ thread, (update thread).currentState ≠ .running) :
    (kernel.modifyThread id update).Relinquished := by
  refine .inr fun _ _ isCurrent found => ?_
  cases current.symm.trans isCurrent
  obtain ⟨old, -, rfl⟩ := thread_of_modified found
  exact stops old

/-- A parked thread is not picked again. -/
theorem not_keepable_of_parked (current : kernel.currentThread = some id)
    (notIdle : kernel.idleThread ≠ some id)
    (parks : ∀ thread, (update thread).currentState = .waiting) :
    ¬ (kernel.modifyThread id update).Keepable false := by
  rintro (keeps | isIdle | ⟨other, thread, isCurrent, found, ready⟩)
  · cases keeps
  · exact notIdle (isIdle.symm.trans current)
  · cases current.symm.trans isCurrent
    obtain ⟨_, -, rfl⟩ := thread_of_modified found
    rw [parks] at ready
    cases ready

theorem CoreFrame.executing {before after : Kernel} (frame : CoreFrame before after)
    (executing : before.Executing) : after.Executing := by
  intro id thread current found
  obtain ⟨old, oldFound, -, -, same, -⟩ := frame.thread id thread found
  rw [same]
  exact executing id old (frame.currentThread ▸ current) oldFound

theorem reap_executing (operational : kernel.Operational)
    (executing : kernel.Executing) (call : kernel.reapRetiredThreads env rounds = some after) :
    after.Executing :=
  (CoreRun.frame (reapRetiredThreads_run [] rounds operational.current calm_nil
    call)).executing executing

/-- After the retired threads were destroyed the current thread may not block. -/
def NotBlockable (kernel after : Kernel) : Prop :=
  CoreRun ([], kernel) ([], after) ∧ after.blockableThread = some none

/-- The core leaves the running state of the current thread alone. -/
theorem CoreRun.current_running {before after : List Frame × Kernel}
    (run : CoreRun before after) (current : before.2.currentThread = some id)
    (running : ∀ thread, before.2.thread id = some thread → thread.currentState = .running) :
    ∀ thread, after.2.thread id = some thread → thread.currentState = .running := by
  refine run.thread_closed (fun thread => thread.currentState = .running) ?_ running
  intro _ _ write isRunning
  cases write with
  | detach | link | unlink => exact isRunning
  | leaveWait _ _ guarded =>
    rcases guarded with notCurrent | waiting
    · exact absurd current notCurrent
    · cases isRunning.symm.trans waiting
  | terminate notCurrent => exact absurd current notCurrent

/-- A running thread other than the idle thread may block. -/
theorem not_notBlockable (current : kernel.currentThread = some id)
    (notIdle : kernel.idleThread ≠ some id) (running : ∀ thread, kernel.thread id = some thread →
      thread.currentState = .running) : ¬ kernel.NotBlockable after := by
  rintro ⟨run, check⟩
  have stillCurrent : after.currentThread = some id := run.frame.currentThread.trans current
  have stillNotIdle : after.idleThread ≠ some id := by
    rw [run.frame.idleThread]
    exact notIdle
  simp only [blockableThread, stillCurrent, if_neg stillNotIdle, bind_eq_some] at check
  obtain ⟨written, writtenFound, check⟩ := check
  rw [if_pos (run.current_running current running written writtenFound)] at check
  cases check

/-- What a blocking call leaves: it was switched out, or the caller may not block. -/
def Blocked (scope : Scope) (stage : Stage) (kernel : Kernel) (transfer : Transfer)
    (after : Kernel) : Prop :=
  transfer = .switched ∧ KernelMoves scope (stage, kernel) (.running, after) ∨
    transfer = .returned .busy ∧ KernelMoves scope (stage, kernel) (stage, after) ∧
      after.currentThread = kernel.currentThread ∧ kernel.NotBlockable after

theorem Blocked.moves (blocked : Blocked scope .running kernel transfer after) :
    scope.Moves kernel after := by
  rcases blocked with ⟨-, moves⟩ | ⟨-, moves, -⟩ <;> exact moves

/-- The outcome of a blocking call that finds the caller unable to block. -/
theorem Blocked.refused (operational : kernel.Operational) (stage : Stage)
    (reaping : kernel.reapRetiredThreads env env.rounds = some after)
    (check : after.blockableThread = some none) :
    Blocked scope stage kernel (.returned .busy) after :=
  .inr ⟨rfl, reap_moves operational stage reaping, reap_currentThread operational reaping,
    reapRetiredThreads_run [] env.rounds operational.current calm_nil reaping, check⟩

variable {reason : WaitReason}

/-- A scope in which the caller may wait or exit. -/
structure Scope.Ends (scope : Scope) (kernel : Kernel) (continuation : Continuation) :
    Prop where
  dispatch : scope.dispatch
  suspend : scope.suspend continuation
  called : scope.Called kernel
  park : scope.park

theorem Scope.Ends.of_current (ends : scope.Ends kernel continuation)
    (same : after.currentThread = kernel.currentThread) : scope.Ends after continuation :=
  ⟨ends.dispatch, ends.suspend, fun id current => ends.called id (same.symm.trans current),
    ends.park⟩

theorem blockCurrent_moves (operational : kernel.Operational)
    (executing : kernel.Executing) (ends : scope.Ends kernel continuation)
    (parks : Parks stage continuation reason)
    (call : kernel.blockCurrent env reason continuation = some (transfer, after)) :
    Blocked scope stage kernel transfer after := by
  simp only [blockCurrent, bind_eq_some] at call
  obtain ⟨reaped, reaping, blockable, check, call⟩ := call
  cases blockable with
  | none =>
    cases call
    exact .refused operational stage reaping check
  | some id =>
    simp only [bind_eq_some] at call
    obtain ⟨⟨_, _⟩, pick, ⟨_, _⟩, switch, call⟩ := call
    obtain ⟨current, notIdle, thread, found, running⟩ := blockableThread_cases check
    have parking : KernelMoves scope (stage, kernel)
        (.leaving continuation, reaped.modifyThread id fun thread =>
          { thread with waitStatus := reason, currentState := .waiting }) :=
      (reap_moves operational stage reaping).tail
        (.park _ _ _ _ _ _ Thread.wakeTick parks current notIdle found running
          (reap_executing operational executing reaping id thread current found)
          (ends.called id ((reap_currentThread operational reaping).symm.trans current))
          ends.park)
    obtain ⟨switching, outcome⟩ := pickAndSwitch_moves
      (parking.operational operational) ends.dispatch ends.suspend
      (relinquished_modifyThread current fun _ => nofun) pick switch
    rcases outcome with rfl | ⟨-, keepable⟩
    · cases call
      exact .inl ⟨rfl, parking.trans switching⟩
    · exact absurd keepable (not_keepable_of_parked current notIdle fun _ => rfl)

theorem parkUntil_moves (reason : WaitReason) (delayTicks : ℕ) (plain : Plain continuation)
    (called : scope.caller id) (allowed : scope.park) (current : kernel.currentThread = some id)
    (notIdle : kernel.idleThread ≠ some id) (found : kernel.thread id = some thread)
    (running : thread.currentState = .running) (executing : thread.continuation = .executing) :
    KernelMoves scope (.running, kernel)
      (.leaving continuation, kernel.parkUntil id reason delayTicks) := by
  refine .tail (.single (.park _ _ _ _ _ reason
    (fun _ => (kernel.tickCount + delayTicks) % 2 ^ 64) (.plain _ _ plain) current notIdle
    found running executing called allowed)) (.sleep _ _ _ { thread with
      waitStatus := reason
      wakeTick := (kernel.tickCount + delayTicks) % 2 ^ 64
      currentState := .waiting } plain current notIdle ?_ rfl)
  rw [thread_modifyThread, if_pos rfl, found]
  rfl

variable (operational : kernel.Operational) (executing : kernel.Executing)
include operational executing

/-- The common course of the timed waits: park until a tick and switch. -/
theorem timedPark_moves (ends : scope.Ends kernel continuation) (plain : Plain continuation)
    {reaped switched : Kernel} (reaping : kernel.reapRetiredThreads env env.rounds = some reaped)
    (check : reaped.blockableThread = some (some id))
    (pick : (reaped.parkUntil id reason delayTicks).pickNextThread env.rounds false =
      some (next, picked))
    (switch : picked.switchToThread env next continuation = some (transfer, switched)) :
    transfer = .switched ∧ scope.Moves kernel switched := by
  obtain ⟨current, notIdle, thread, found, running⟩ := blockableThread_cases check
  have parking : KernelMoves scope (.running, kernel)
      (.leaving continuation, reaped.parkUntil id reason delayTicks) :=
    (reap_moves operational .running reaping).trans
      (parkUntil_moves reason delayTicks plain
        (ends.called id ((reap_currentThread operational reaping).symm.trans current))
        ends.park current notIdle found running
        (reap_executing operational executing reaping id thread current found))
  have relinquished : (reaped.parkUntil id reason delayTicks).Relinquished :=
    relinquished_modifyThread current fun _ => nofun
  obtain ⟨switching, outcome⟩ := pickAndSwitch_moves
    (parking.operational operational) ends.dispatch ends.suspend relinquished pick switch
  rcases outcome with rfl | ⟨-, keepable⟩
  · exact ⟨rfl, parking.trans switching⟩
  · exact absurd keepable (not_keepable_of_parked current notIdle fun _ => rfl)

theorem blockCurrentFor_moves {timed untimed : Continuation}
    (endsTimed : scope.Ends kernel timed) (plainTimed : Plain timed)
    (endsUntimed : scope.Ends kernel untimed) (plainUntimed : Plain untimed)
    (call : kernel.blockCurrentFor env reason delayTicks timed untimed = some (transfer, after)) :
    Blocked scope .running kernel transfer after := by
  unfold blockCurrentFor at call
  split at call
  · exact blockCurrent_moves operational executing endsUntimed (.plain _ _ plainUntimed) call
  simp only [bind_eq_some] at call
  obtain ⟨_, reaping, blockable, check, call⟩ := call
  cases blockable with
  | none =>
    cases call
    exact .refused operational .running reaping check
  | some =>
    simp only [bind_eq_some] at call
    obtain ⟨⟨_, _⟩, pick, ⟨_, _⟩, switch, call⟩ := call
    obtain ⟨rfl, moves⟩ := timedPark_moves operational executing endsTimed plainTimed reaping
      check pick switch
    cases call
    exact .inl ⟨rfl, moves⟩

theorem sleepCurrent_moves (ends : scope.Ends kernel .sleepCurrent)
    (call : kernel.sleepCurrent env delayTicks = some (transfer, after)) :
    scope.Moves kernel after := by
  unfold sleepCurrent at call
  split at call
  · cases call
    exact .refl
  simp only [bind_eq_some] at call
  obtain ⟨_, reaping, blockable, check, call⟩ := call
  cases blockable with
  | none =>
    cases call
    exact reap_moves operational .running reaping
  | some =>
    simp only [bind_eq_some] at call
    obtain ⟨⟨_, _⟩, pick, ⟨_, _⟩, switch, call⟩ := call
    obtain ⟨rfl, moves⟩ := timedPark_moves operational executing ends ⟨nofun, nofun⟩ reaping
      check pick switch
    cases call
    exact moves

end RosKernel.Kernel
