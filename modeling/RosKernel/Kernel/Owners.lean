import RosKernel.Kernel.ExecPaths

/-!
# Threads and their processes across moves

What a move of an operation leaves of the thread and process registries: threads
keep their parents, terminated threads stay terminated, and the process of the
running thread is never terminated under it.
-/

namespace RosKernel.Kernel

open Registry

/-! ## The core -/

variable {process : Process} {id : ProcessId}

section

variable {before after : List Frame × Kernel}

/-- A move releases no thread but the one whose destruction it completes. -/
theorem CoreMove.thread_after (move : CoreMove before after)
    {id : ThreadId} {thread : Thread} (found : before.2.thread id = some thread) :
    (∃ written, after.2.thread id = some written) ∨
      .dying id ∈ before.1 ∧ thread.currentState = .terminated := by
  have modified (kernel : Kernel) (target : ThreadId) (update : Thread → Thread)
      (sameFound : kernel.thread id = some thread) :
      ∃ written, (kernel.modifyThread target update).thread id = some written := by
    rw [thread_modifyThread]
    split
    · exact ⟨update thread, by rw [sameFound]; rfl⟩
    · exact ⟨thread, sameFound⟩
  cases move with
  | storeWake | detach | leaveWait | link | unlink | reap | terminate =>
    exact .inl (modified _ _ _ found)
  | announce _ _ target => exact .inl ⟨thread, (requestReschedule_thread target id).trans found⟩
  | unregister _ _ target _ endedFound terminated =>
    by_cases same : id = target
    · subst same
      cases endedFound.symm.trans found
      exact .inr ⟨.head _, terminated⟩
    · exact .inl ⟨thread, lookup_kept same found⟩
  | _ => exact .inl ⟨thread, found⟩

/-- A move terminates only a process without threads. -/
theorem CoreMove.process_terminated (move : CoreMove before after)
    (found : after.2.process id = some process) (terminated : process.currentState = .terminated) :
    (∃ old, before.2.process id = some old ∧
      old.currentState = .terminated) ∨ before.2.processThreads id = [] := by
  cases move with
  | revive =>
    rcases written_cases (process_modifyProcess ..) found with
      ⟨-, old, oldFound, rfl⟩ | ⟨-, found⟩
    · refine .inl ⟨old, oldFound, ?_⟩
      unfold reviveProcess at terminated
      split at terminated
      · exact terminated
      · cases terminated
    · exact .inl ⟨process, found, terminated⟩
  | closeProcess _ _ _ empty =>
    rw [process_modifyProcess] at found
    split at found
    · rename_i same
      subst same
      exact .inr empty
    · exact .inl ⟨process, found, terminated⟩
  | removeProcess =>
    obtain ⟨old, _, oldFound, rfl, -⟩ := process_orphanLaunchedProcesses (of_remove found)
    exact .inl ⟨old, oldFound, terminated⟩
  | announce =>
    rw [requestReschedule_eq] at found
    exact .inl ⟨process, found, terminated⟩
  | _ => exact .inl ⟨process, found, terminated⟩

theorem CoreRun.process_terminated (run : CoreRun before after)
    (found : after.2.process id = some process) (terminated : process.currentState = .terminated) :
    (∃ old, before.2.process id = some old ∧
      old.currentState = .terminated) ∨ after.2.processThreads id = [] := by
  induction run generalizing process with
  | refl => exact .inl ⟨process, found, terminated⟩
  | tail _ move ih =>
    rcases move.process_terminated found terminated with
      ⟨middle, middleFound, middleTerminated⟩ | empty
    · exact (ih middleFound middleTerminated).imp_right move.frame.processThreads_nil
    · exact .inr (move.frame.processThreads_nil empty)

/-- A move assigns no thread identifier. -/
theorem CoreMove.nextId_threads (move : CoreMove before after) :
    after.2.threads.nextId = before.2.threads.nextId := by
  cases move with
  | announce => rw [requestReschedule_eq]
  | _ => rfl

theorem CoreRun.nextId_threads (run : CoreRun before after) :
    after.2.threads.nextId = before.2.threads.nextId := by
  induction run with
  | refl => rfl
  | tail _ move ih => exact move.nextId_threads.trans ih

theorem CoreMove.retired_sublist (move : CoreMove before after) :
    after.2.retiredThreads.Sublist before.2.retiredThreads := by
  cases move with
  | reap _ kernel _ rest _ head =>
    change rest.Sublist kernel.retiredThreads
    rw [head]
    exact List.sublist_cons_self _ _
  | announce => rw [requestReschedule_eq]
  | _ => exact .refl _

theorem CoreRun.retired_sublist (run : CoreRun before after) :
    after.2.retiredThreads.Sublist before.2.retiredThreads := by
  induction run with
  | refl => exact .refl _
  | tail _ move ih => exact move.retired_sublist.trans ih

/-- A thread whose process, as far as both are registered, is not terminated. -/
structure LiveOwner (kernel : Kernel) (id : ThreadId) : Prop where
  assigned : id < kernel.threads.nextId
  alive : ∀ thread owner process, kernel.thread id = some thread →
    thread.parent = some owner → kernel.process owner = some process →
    process.currentState ≠ .terminated

theorem CoreMove.liveOwner (move : CoreMove before after)
    {id : ThreadId} (live : before.2.LiveOwner id) : after.2.LiveOwner id where
  assigned := move.nextId_threads ▸ live.assigned
  alive := by
    intro written owner _ writtenFound parent processFound terminated
    obtain ⟨old, oldFound, sameParent, -⟩ := move.frame.thread id written writtenFound
    have oldParent := sameParent.symm.trans parent
    rcases move.process_terminated processFound terminated with
      ⟨earlier, earlierFound, earlierTerminated⟩ | empty
    · exact live.alive old owner earlier oldFound oldParent earlierFound earlierTerminated
    · exact List.eq_nil_iff_forall_not_mem.mp empty id
        (mem_processThreads_iff.mpr ⟨old, oldFound, oldParent⟩)

/-- A retired thread, as long as it is registered, is terminated. -/
def RetiredTerminated (kernel : Kernel) : Prop :=
  ∀ id ∈ kernel.retiredThreads, kernel.idleThread ≠ some id ∧ id < kernel.threads.nextId ∧
    ∀ thread, kernel.thread id = some thread → thread.currentState = .terminated

theorem CoreMove.retiredTerminated (move : CoreMove before after)
    (retired : before.2.RetiredTerminated) : after.2.RetiredTerminated := by
  intro id mem
  obtain ⟨notIdle, assigned, terminated⟩ := retired id (move.retired_sublist.mem mem)
  refine ⟨move.frame.idleThread ▸ notIdle, move.nextId_threads ▸ assigned, ?_⟩
  intro written found
  obtain ⟨old, oldFound, -, -, -, -, -, stays⟩ := move.frame.thread id written found
  exact stays (terminated old oldFound)

end

/-! ## Operations -/

variable {scope : Scope} {before after : Stage × Kernel}

theorem KernelMove.idleThread (move : KernelMove scope before after) :
    after.2.idleThread = before.2.idleThread := by
  cases move with
  | core _ _ _ run => exact run.frame.idleThread
  | pop => rw [readyQueueRemove_eq]
  | bind =>
    rw [startRunning_eq]
    rfl
  | switchIn => exact idleThread_switchIn _ _ _
  | _ => rfl

theorem KernelMove.nextId_threads_le (move : KernelMove scope before after) :
    before.2.threads.nextId ≤ after.2.threads.nextId := by
  cases move with
  | core _ _ _ run => exact run.nextId_threads.ge
  | createThread => exact Nat.le_succ _
  | pop =>
    unfold readyQueueRemove
    split
    · exact le_refl _
    · split <;> exact le_refl _
  | bind =>
    rw [startRunning_eq]
    exact le_refl _
  | switchIn =>
    unfold Kernel.switchIn contextSwitch
    split <;> exact le_refl _
  | _ => exact le_refl _

/-- Where a thread of the later state comes from, in one move: its parent stays, and a
terminated thread other than the idle one stays terminated. -/
def Descends (kernel : Kernel) (id : ThreadId) (written : Thread) : Prop :=
  ∃ old, kernel.thread id = some old ∧ written.parent = old.parent ∧
    (kernel.idleThread ≠ some id → old.currentState = .terminated →
      written.currentState = .terminated)

variable {id : ThreadId}

theorem Descends.of_modifyThread
    {kernel later : Kernel} {target : ThreadId} {update : Thread → Thread}
    (rewritten : Rewrites kernel later target update)
    (parent : ∀ thread, (update thread).parent = thread.parent)
    (kept : ∀ thread, kernel.thread target = some thread →
      kernel.idleThread ≠ some target → thread.currentState = .terminated →
      (update thread).currentState = .terminated)
    {written : Thread} (found : later.thread id = some written) :
    Descends kernel id written := by
  rcases written_cases (rewritten _) found with ⟨rfl, old, oldFound, rfl⟩ | ⟨-, found⟩
  · exact ⟨old, oldFound, parent old, kept old oldFound⟩
  · exact ⟨written, found, rfl, fun _ terminated => terminated⟩

theorem KernelMove.descends (move : KernelMove scope before after)
    {written : Thread} (assigned : scope.spawn → id < before.2.threads.nextId)
    (found : after.2.thread id = some written) : Descends before.2 id written := by
  have unchanged (same : before.2.thread id = some written) : Descends before.2 id written :=
    ⟨written, same, rfl, fun _ terminated => terminated⟩
  cases move with
  | core _ _ _ run =>
    obtain ⟨old, oldFound, parent, -, -, -, -, terminated⟩ := run.frame.thread id written found
    exact ⟨old, oldFound, parent, fun _ => terminated⟩
  | createThread _ _ _ _ _ _ allowed => exact unchanged (of_insert_older (assigned allowed) found)
  | quantum | priority | lower | finishWait | resumed | relink | push =>
    refine .of_modifyThread (.modify rfl) ?_ ?_ found
    exacts [fun _ => rfl, fun _ _ _ terminated => terminated]
  | requeue _ _ _ _ _ _ _ targetFound running =>
    refine .of_modifyThread (.modify rfl) ?_ ?_ found
    · intro other
      split <;> rfl
    · intro other otherFound _ terminated
      cases targetFound.symm.trans otherFound
      cases running.symm.trans terminated
  | park _ _ _ _ _ _ _ _ _ _ targetFound running =>
    refine .of_modifyThread (.modify rfl) ?_ ?_ found
    · exact fun _ => rfl
    intro other otherFound _ terminated
    cases targetFound.symm.trans otherFound
    cases running.symm.trans terminated
  | retire =>
    refine .of_modifyThread (.modify rfl) ?_ ?_ found
    exacts [fun _ => rfl, fun _ _ _ _ => rfl]
  | pop =>
    refine .of_modifyThread (thread_readyQueueRemove _ _ ·) ?_ ?_ found
    exacts [fun _ => rfl, fun _ _ _ terminated => terminated]
  | selfSwitch _ _ _ _ fit =>
    refine .of_modifyThread (.modify rfl) ?_ ?_ found
    · exact fun _ => rfl
    intro thread threadFound notIdle terminated
    rcases fit thread threadFound with (⟨isReady, -⟩ | isIdle) | ⟨-, runnable⟩
    · cases terminated.symm.trans isReady
    · exact absurd isIdle notIdle
    · simp [threadIsRunnable, terminated] at runnable
  | bind _ _ _ _ _ targetFound _ fit =>
    rw [startRunning_eq] at found
    refine .of_modifyThread (.modify rfl) ?_ ?_ found
    · exact fun _ => rfl
    intro _ otherFound notIdle terminated
    cases targetFound.symm.trans otherFound
    rcases fit with ⟨isReady, -⟩ | isIdle
    · cases terminated.symm.trans isReady
    · exact absurd isIdle notIdle
  | switchIn _ _ _ _ notCurrent =>
    obtain ⟨_, oldFound, ⟨-, rfl⟩ | ⟨-, -, rfl⟩ | ⟨-, -, rfl⟩⟩ := thread_switchIn notCurrent found
    all_goals exact ⟨_, oldFound, rfl, fun _ terminated => terminated⟩
  | _ => exact unchanged found

/-- Dispatching a thread writes its process only, and lets it run. -/
theorem process_startRunning {kernel : Kernel} {target : ThreadId} {thread : Thread}
    {pid : ProcessId} {process : Process}
    (found : (kernel.startRunning target thread).process pid = some process) :
    process.currentState = .running ∨ kernel.process pid = some process := by
  unfold startRunning at found
  cases parent : thread.parent with
  | none =>
    rw [parent] at found
    exact .inr found
  | some =>
    rw [parent] at found
    rw [process_modifyThread, process_modifyProcess] at found
    rcases written_cases rfl found with ⟨-, _, -, rfl⟩ | ⟨-, found⟩
    · exact .inl rfl
    · exact .inr found

/-- A move terminates a process only when it has no threads or is to be destroyed. -/
theorem KernelMove.process_terminated (move : KernelMove scope before after)
    (found : after.2.process id = some process) (terminated : process.currentState = .terminated) :
    (∃ old, before.2.process id = some old ∧
      old.currentState = .terminated) ∨ after.2.processThreads id = [] ∨
      scope.destroy id ∧ before.2.currentProcess ≠ some id ∧ before.1 = .running := by
  cases move with
  | core _ _ _ run => exact (run.process_terminated found terminated).imp_right .inl
  | createProcess _ _ isCreated =>
    rcases of_insert found with rfl | found
    · cases isCreated.symm.trans terminated
    · exact .inl ⟨_, found, terminated⟩
  | setLauncher =>
    rcases written_cases (process_modifyProcess ..) found with
      ⟨-, old, oldFound, rfl⟩ | ⟨-, found⟩
    · exact .inl ⟨old, oldFound, terminated⟩
    · exact .inl ⟨_, found, terminated⟩
  | markExiting =>
    rcases written_cases (process_modifyProcess ..) found with
      ⟨-, old, oldFound, rfl⟩ | ⟨-, found⟩
    · cases terminated
    · exact .inl ⟨_, found, terminated⟩
  | markTree =>
    rw [Kernel.process, lookup_mapEntries] at found
    obtain ⟨old, oldFound, rfl⟩ := Option.map_eq_some_iff.mp found
    refine .inl ⟨old, oldFound, ?_⟩
    split at terminated
    · unfold markForExit at terminated
      split at terminated
      · assumption
      · cases terminated
    · exact terminated
  | markTerminated _ _ _ doomed other =>
    rw [process_modifyProcess] at found
    split at found
    · rename_i same
      subst same
      exact .inr (.inr ⟨doomed, other, rfl⟩)
    · exact .inl ⟨_, found, terminated⟩
  | pop =>
    rw [readyQueueRemove_eq] at found
    exact .inl ⟨_, found, terminated⟩
  | bind =>
    rcases process_startRunning found with running | found
    · cases running.symm.trans terminated
    · exact .inl ⟨_, found, terminated⟩
  | switchIn =>
    rw [Kernel.process, processes_switchIn] at found
    exact .inl ⟨_, found, terminated⟩
  | _ => exact .inl ⟨_, found, terminated⟩

/-! ## The process of the running thread -/

/-- The current thread, and the one about to replace it, belong to live processes. -/
def NamedLive (state : Stage × Kernel) : Prop :=
  ∀ id, state.2.currentThread = some id ∨ state.1.target = some id → state.2.LiveOwner id

theorem KernelMove.liveOwner (move : KernelMove scope before after) (live : before.2.LiveOwner id)
    (spared : ∀ owner, scope.destroy owner → before.2.currentProcess ≠ some owner →
      before.1 = .running → ∀ thread, before.2.thread id = some thread →
      thread.parent ≠ some owner) :
    after.2.LiveOwner id where
  assigned := live.assigned.trans_le move.nextId_threads_le
  alive := by
    intro written owner _ found parent processFound terminated
    obtain ⟨old, oldFound, sameParent, -⟩ := move.descends (fun _ => live.assigned) found
    have oldParent := sameParent.symm.trans parent
    rcases move.process_terminated processFound terminated with
      ⟨earlier, earlierFound, earlierTerminated⟩ | empty | ⟨doomed, other, running⟩
    · exact live.alive old owner earlier oldFound oldParent earlierFound earlierTerminated
    · exact List.eq_nil_iff_forall_not_mem.mp empty id
        (mem_processThreads_iff.mpr ⟨written, found, parent⟩)
    · exact spared owner doomed other running old oldFound oldParent

/-- `bind_current_thread` puts the process of the bound thread in the running state. -/
theorem liveOwner_startRunning {kernel : Kernel} {thread : Thread}
    (found : kernel.thread id = some thread) : (kernel.startRunning id thread).LiveOwner id := by
  constructor
  · rw [startRunning_eq]
    exact kernel.threads.lookup_lt_nextId found
  · intro _ owner _ writtenFound parent processFound
    rw [startRunning_eq] at writtenFound
    obtain ⟨_, oldFound, rfl⟩ := thread_of_modified writtenFound
    cases found.symm.trans oldFound
    have isParent : thread.parent = some owner := parent
    unfold startRunning at processFound
    rw [isParent] at processFound
    rw [process_modifyThread, process_modifyProcess, if_pos rfl] at processFound
    obtain ⟨_, -, rfl⟩ := Option.map_eq_some_iff.mp processFound
    exact nofun

/-- Who is current or about to be so was already, but for a freshly bound thread. -/
theorem KernelMove.named (move : KernelMove scope before after)
    (named : after.2.currentThread = some id ∨ after.1.target = some id) :
    (before.2.currentThread = some id ∨ before.1.target = some id) ∨
      after.1.target = some id ∧ after.2.LiveOwner id := by
  cases move with
  | core _ _ _ run =>
    rw [run.frame.currentThread] at named
    exact .inl named
  | pop =>
    rw [readyQueueRemove_eq] at named
    exact .inl (.inl (named.resolve_right nofun))
  | bind _ _ target _ _ found =>
    rcases named with current | isTarget
    · rw [currentThread_startRunning] at current
      exact .inl (.inl current)
    · obtain rfl : target = id := Option.some.inj isTarget
      exact .inr ⟨rfl, liveOwner_startRunning found⟩
  | switchIn =>
    have current := named.resolve_right nofun
    rw [currentThread_switchIn] at current
    exact .inl (.inr current)
  | resumed _ _ thread =>
    refine .inl (.inl (named.resolve_right ?_))
    cases thread.continuation <;> exact nofun
  | park => exact .inl (.inl (named.resolve_right nofun))
  | _ => exact .inl named

theorem KernelMove.namedLive (move : KernelMove scope before after)
    (live : NamedLive before) : NamedLive after := by
  intro id named
  rcases move.named named with wasNamed | ⟨-, bound⟩
  · refine move.liveOwner (live id wasNamed) ?_
    intro _ _ other running _ found parent
    rcases wasNamed with current | isTarget
    · exact other (by simp [currentProcess, current, found, parent])
    · rw [running] at isTarget
      cases isTarget
  · exact bound

theorem namedLive_booted (processName threadName : Text) (pageTableRoot : ℕ) :
    NamedLive (.running, booted processName threadName pageTableRoot) := by
  intro id named
  obtain rfl : 1 = id := Option.some.inj (named.resolve_right nofun)
  refine ⟨(by decide : 1 < 3), ?_⟩
  intro _ _ _ _ _ processFound
  rw [process_booted] at processFound
  split at processFound
  · cases processFound
    exact nofun
  · cases processFound

/-! ## Retired threads -/

/-- A move adds to the retired list the current thread only, which thereby exits. -/
theorem KernelMove.mem_retired (move : KernelMove scope before after)
    (mem : id ∈ after.2.retiredThreads) :
    id ∈ before.2.retiredThreads ∨
      before.1 = .running ∧ after.1 = .leaving .exited ∧ scope.suspend .exited ∧
        before.2.currentThread = some id ∧ after.2.currentThread = some id ∧
        before.2.idleThread ≠ some id ∧ ∃ thread, before.2.thread id = some thread ∧
          after.2.thread id = some { thread with currentState := .terminated } := by
  cases move with
  | core _ _ _ run => exact .inl (run.retired_sublist.mem mem)
  | retire _ _ thread allowed current notIdle found =>
    rcases List.mem_append.mp mem with listed | isLast
    · exact .inl listed
    · obtain rfl := List.mem_singleton.mp isLast
      refine .inr ⟨rfl, rfl, allowed, current, current, notIdle, thread, found, ?_⟩
      rw [thread_modifyThread, if_pos rfl]
      exact congrArg (Option.map _) found
  | pop =>
    rw [readyQueueRemove_eq] at mem
    exact .inl mem
  | bind =>
    rw [startRunning_eq] at mem
    exact .inl mem
  | switchIn =>
    rw [switchIn_eq] at mem
    exact .inl mem
  | _ => exact .inl mem

theorem KernelMove.retiredTerminated (move : KernelMove scope before after)
    (retired : before.2.RetiredTerminated) : after.2.RetiredTerminated := by
  intro id mem
  rw [move.idleThread]
  rcases move.mem_retired mem with listed | ⟨-, -, -, -, -, notIdle, thread, found, written⟩
  · obtain ⟨notIdle, assigned, terminated⟩ := retired id listed
    refine ⟨notIdle, assigned.trans_le move.nextId_threads_le, fun _ found => ?_⟩
    obtain ⟨old, oldFound, -, stays⟩ := move.descends (fun _ => assigned) found
    exact stays notIdle (terminated old oldFound)
  · refine ⟨notIdle, ?_, ?_⟩
    · exact (before.2.threads.lookup_lt_nextId found).trans_le move.nextId_threads_le
    · exact of_found written rfl

/-! ## Threads over runs -/

/-- Moves of operations, one operation after another. -/
abbrev Meanwhile : Stage × Kernel → Stage × Kernel → Prop :=
  Relation.ReflTransGen fun before after => ∃ scope, KernelMove scope before after

theorem Meanwhile.descends (moves : Meanwhile before after)
    (assigned : id < before.2.threads.nextId) (found : after.2.thread id = some written) :
    Descends before.2 id written := by
  induction moves using Relation.ReflTransGen.head_induction_on with
  | refl => exact ⟨written, found, rfl, fun _ ended => ended⟩
  | head first _ ih =>
    obtain ⟨_, move⟩ := first
    obtain ⟨old, oldFound, parent, stays⟩ := ih (assigned.trans_le move.nextId_threads_le)
    obtain ⟨origin, originFound, same, ended⟩ := move.descends (fun _ => assigned) oldFound
    refine ⟨origin, originFound, parent.trans same, fun notIdle terminated => ?_⟩
    exact stays (move.idleThread ▸ notIdle) (ended notIdle terminated)

theorem Continues.meanwhile {condition : Kernel → Op → Prop} {kernel after : Kernel}
    (later : Continues condition kernel after) (operational : kernel.Operational) :
    after.Operational ∧ Meanwhile (.running, kernel) (.running, after) := by
  induction later with
  | refl => exact ⟨operational, .refl⟩
  | tail _ last ih =>
    obtain ⟨_, _, _, step⟩ := last
    exact @Step.carries (fun _ => Meanwhile (.running, kernel))
      (fun move _ earlier => .tail earlier ⟨_, move⟩) _ _ _ _ step ih.1 ih.2

/-- Later in a run an identifier names no other thread, the thread is in the same process, and
unless it is the idle one it is terminated if it was. -/
theorem thread_descends {condition : Kernel → Op → Prop} {kernel after : Kernel} {written : Thread}
    (reachable : Reachable condition kernel) (later : Continues condition kernel after)
    (assigned : id < kernel.threads.nextId) (found : after.thread id = some written) :
    Descends kernel id written :=
  (later.meanwhile reachable.operational).2.descends assigned found

/-- A process gets a thread that is made ready. -/
def launchRun : List Op :=
  [.createProcess [] true 8, .createThread 2 [] 1 16 4 true, .enqueue 3]

/-- The thread runs and exits, and is still registered in its process. -/
theorem thread_descends_exited : ∃ kernel after written,
    (booted [] [] 4096).run (fun _ _ => true) 6 launchRun = some kernel ∧
      kernel.run (fun _ _ => true) 6 [.yield, .resume, .exitThread] = some after ∧
      after.thread 3 = some written ∧ written.currentState = .terminated ∧
      Descends kernel 3 written := by
  refine ⟨_, _, _, rfl, rfl, rfl, rfl, ?_⟩
  have launched := @continues_of_run (booted [] [] 4096) (fun _ _ => true) 6 launchRun _ rfl
  exact thread_descends ((Reachable.boot [] [] 4096 (by decide)).continues launched)
    (@continues_of_run _ _ 6 [.yield, .resume, .exitThread] _ rfl) (by decide) rfl

end RosKernel.Kernel
