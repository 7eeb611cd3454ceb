import RosKernel.Kernel.Owners

/-!
# The retired list

A thread that exits is put on the retired list and destroyed by a later call of the
scheduler. Destroying a process destroys its threads without looking at that list,
so a retired thread whose process is destroyed first leaves a dangling entry.
-/

namespace RosKernel.Kernel

open List

/-! ## The list below the calls of the core -/

/-- The retired list while calls of the core are in progress: no entry twice, every
entry a registered and terminated thread that is not being destroyed, and no entry
of a terminated process. -/
structure RetiredKept (allowed : ThreadId → Continuation → Prop) (frames : List Frame)
    (kernel : Kernel) : Prop where
  nodup : kernel.retiredThreads.Nodup
  registered : ∀ id ∈ kernel.retiredThreads, ∃ thread, kernel.thread id = some thread ∧
    thread.currentState = .terminated ∧ allowed id thread.continuation
  spared : ∀ id ∈ kernel.retiredThreads, ∀ thread owner process,
    kernel.thread id = some thread → thread.parent = some owner →
    kernel.process owner = some process → process.currentState ≠ .terminated
  undying : ∀ id, .dying id ∈ frames → id ∉ kernel.retiredThreads

section

variable {allowed : ThreadId → Continuation → Prop} {before after : List Frame × Kernel}

/-- A move that adds no entry and begins to destroy no listed thread. -/
theorem RetiredKept.of_move (kept : RetiredKept allowed before.1 before.2)
    (move : CoreMove before after)
    (shrinks : after.2.retiredThreads.Sublist before.2.retiredThreads)
    (undying : ∀ id, .dying id ∈ after.1 → .dying id ∈ before.1 ∨ id ∉ after.2.retiredThreads) :
    RetiredKept allowed after.1 after.2 where
  nodup := kept.nodup.sublist shrinks
  registered := by
    intro id mem
    obtain ⟨_, found, terminated, continues⟩ := kept.registered id (shrinks.mem mem)
    rcases move.thread_after found with ⟨written, writtenFound⟩ | ⟨dying, -⟩
    · obtain ⟨old, oldFound, -, -, continuation, -, -, stays⟩ :=
        move.frame.thread id written writtenFound
      cases found.symm.trans oldFound
      exact ⟨written, writtenFound, stays terminated, continuation ▸ continues⟩
    · exact absurd (shrinks.mem mem) (kept.undying id dying)
  spared := by
    intro id mem
    obtain ⟨_, found, -⟩ := kept.registered id (shrinks.mem mem)
    have live : before.2.LiveOwner id :=
      ⟨before.2.threads.lookup_lt_nextId found, kept.spared id (shrinks.mem mem)⟩
    exact (move.liveOwner live).alive
  undying := by
    intro id dying
    rcases undying id dying with earlier | gone
    · exact fun mem => kept.undying id earlier (shrinks.mem mem)
    · exact gone

theorem CoreMove.retiredKept (move : CoreMove before after)
    (kept : RetiredKept allowed before.1 before.2) : RetiredKept allowed after.1 after.2 := by
  have unchanged (same : after.2.retiredThreads = before.2.retiredThreads)
      (framed : ∀ id, .dying id ∈ after.1 → .dying id ∈ before.1) :
      RetiredKept allowed after.1 after.2 :=
    kept.of_move move (same ▸ .refl _) fun id dying => .inl (framed id dying)
  cases move with
  | publish | skip | advance | published | store | storeWake | detach | woken | link
  | unregister => exact unchanged rfl (by simp +contextual)
  | announce => exact unchanged (by rw [requestReschedule_eq]) (by simp +contextual)
  | reap _ kernel id rest _ head found notCurrent unqueued calm =>
    have distinct : (id :: rest).Nodup := head ▸ kept.nodup
    refine kept.of_move (.reap _ _ _ _ _ head found notCurrent unqueued calm) ?_ ?_
    · change rest.Sublist kernel.retiredThreads
      rw [head]
      exact sublist_cons_self _ _
    · intro other dying
      rcases mem_cons.mp dying with same | earlier
      · cases same
        exact .inr (nodup_cons.mp distinct).1
      · exact .inl earlier
  | terminate _ _ id thread owner process found mem owned closed notCurrent unqueued calm =>
    refine kept.of_move
      (.terminate _ _ _ _ _ _ found mem owned closed notCurrent unqueued calm) (.refl _) ?_
    intro _ dying
    rcases mem_cons.mp dying with same | earlier
    · cases same
      exact .inr fun listed =>
        kept.spared id listed thread owner process found mem owned closed
    · exact .inl earlier
  | _ => exact unchanged rfl fun _ dying => dying

theorem CoreRun.retiredKept (run : CoreRun before after)
    (kept : RetiredKept allowed before.1 before.2) : RetiredKept allowed after.1 after.2 := by
  induction run with
  | refl => exact kept
  | tail _ move ih => exact move.retiredKept ih

end

/-! ## The list through an operation -/

/-- A thread on the list is neither the idle thread nor, unless it is just being left
for good, the current one. -/
def Departed (state : Stage × Kernel) (id : ThreadId) (continuation : Continuation) : Prop :=
  state.2.idleThread ≠ some id ∧
    (state.2.currentThread ≠ some id ∧ continuation = .exited ∨
      state.2.currentThread = some id ∧ state.1.leftWith = some .exited)

/-- What keeps the retired list intact between the moves of an operation. -/
structure RetiredSound (scope : Scope) (state : Stage × Kernel) : Prop where
  kept : RetiredKept (Departed state) [] state.2
  /-- No process with a listed thread is going to be destroyed. -/
  doomed : ∀ owner, scope.destroy owner → ∀ id ∈ state.2.retiredThreads,
    ∀ thread, state.2.thread id = some thread → thread.parent ≠ some owner
  apart : scope.suspend .exited → ∀ owner, ¬ scope.destroy owner
  live : NamedLive state
  unlisted : ∀ id, state.1.target = some id → id ∉ state.2.retiredThreads

variable {kernel : Kernel}

section

variable {scope : Scope} {before after : Stage × Kernel}

theorem RetiredKept.reframe {allowed : ThreadId → Continuation → Prop} {frames frames' : List Frame}
    (kept : RetiredKept allowed frames kernel)
    (none : ∀ id, .dying id ∉ frames') : RetiredKept allowed frames' kernel :=
  { kept with undying := fun id dying => absurd dying (none id) }

theorem RetiredSound.core {stage : Stage} {frames : List Frame} {first last : Kernel}
    (sound : RetiredSound scope (stage, first)) (entry : Entry scope first frames)
    (run : CoreRun (frames, first) (frames, last)) :
    RetiredKept (Departed (stage, last)) [] last := by
  have frame : CoreFrame first last := run.frame
  have calm : ∀ id, .dying id ∉ frames := by cases entry <;> simp
  have kept := run.retiredKept (sound.kept.reframe calm)
  refine ⟨kept.nodup, ?_, kept.spared, nofun⟩
  intro id mem
  obtain ⟨thread, found, terminated, departed⟩ := kept.registered id mem
  refine ⟨thread, found, terminated, ?_⟩
  unfold Departed at departed ⊢
  rw [frame.currentThread, frame.idleThread]
  exact departed

variable {id : ThreadId}

section

variable (sound : RetiredSound scope before)
include sound

/-- Outside an exit the current thread is not on the list. -/
theorem RetiredSound.current_unlisted
    (stays : before.1.leftWith ≠ some .exited) (current : before.2.currentThread = some id) :
    id ∉ before.2.retiredThreads := by
  intro mem
  obtain ⟨_, -, -, -, ⟨notCurrent, -⟩ | ⟨-, exits⟩⟩ := sound.kept.registered id mem
  · exact notCurrent current
  · exact stays exits

/-- A thread fit to be switched in is not on the list. -/
theorem RetiredSound.eligible_unlisted
    (fit : ∀ thread, before.2.thread id = some thread → before.2.Eligible id thread ∨
      threadIsRunnable thread = true) :
    id ∉ before.2.retiredThreads := by
  intro mem
  obtain ⟨thread, found, terminated, notIdle, -⟩ := sound.kept.registered id mem
  rcases fit thread found with (⟨isReady, -⟩ | isIdle) | runnable
  · cases terminated.symm.trans isReady
  · exact notIdle isIdle
  · simp [threadIsRunnable, terminated] at runnable

variable (mem : id ∈ before.2.retiredThreads)
    (current : after.2.currentThread = before.2.currentThread)
    (idle : after.2.idleThread = before.2.idleThread)
    (exits : before.2.currentThread = some id → before.1.leftWith = some .exited →
        after.1.leftWith = some .exited)
include mem current idle exits

/-- A move between stages of the same kind that does not disturb a listed thread. -/
theorem RetiredSound.departed_of_kept
    (kept : ∀ thread, before.2.thread id = some thread → thread.currentState = .terminated →
      ∃ written, after.2.thread id = some written ∧ written.currentState = .terminated ∧
        written.continuation = thread.continuation) :
    ∃ written, after.2.thread id = some written ∧ written.currentState = .terminated ∧
      Departed after id written.continuation := by
  obtain ⟨thread, found, terminated, notIdle, departed⟩ := sound.kept.registered id mem
  obtain ⟨written, writtenFound, stillTerminated, continuation⟩ := kept thread found terminated
  refine ⟨written, writtenFound, stillTerminated, idle ▸ notIdle, ?_⟩
  rw [current, continuation]
  exact departed.imp_right fun leaving => ⟨leaving.1, exits leaving.1 leaving.2⟩

/-- A move that writes to one thread and does not disturb it if it is listed. -/
theorem RetiredSound.departed_of_write {target : ThreadId} {update : Thread → Thread}
    (rewritten : Rewrites before.2 after.2 target update)
    (kept : target ∈ before.2.retiredThreads → ∀ thread, before.2.thread target = some thread →
      thread.currentState = .terminated → (update thread).currentState = .terminated ∧
        (update thread).continuation = thread.continuation) :
    ∃ written, after.2.thread id = some written ∧ written.currentState = .terminated ∧
      Departed after id written.continuation := by
  refine sound.departed_of_kept mem current idle exits fun thread found terminated => ?_
  rw [rewritten]
  split
  · rename_i same
    subst same
    exact ⟨update thread, congrArg (Option.map update) found, kept mem thread found terminated⟩
  · exact ⟨thread, found, terminated, rfl⟩

end

theorem RetiredSound.departed_switchIn {continuation : Continuation} {target : ThreadId}
    (sound : RetiredSound scope (.binding continuation target, kernel))
    (notCurrent : kernel.currentThread ≠ some target) (mem : id ∈ kernel.retiredThreads) :
    ∃ written, (kernel.switchIn target continuation).thread id = some written ∧
      written.currentState = .terminated ∧
      Departed (.running, kernel.switchIn target continuation) id written.continuation := by
  have ne : id ≠ target := fun same => sound.unlisted target rfl (same ▸ mem)
  obtain ⟨old, oldFound, terminated, notIdle, departed⟩ := sound.kept.registered id mem
  have nowCurrent : (kernel.switchIn target continuation).currentThread ≠ some id := by
    rw [currentThread_switchIn]
    exact fun same => ne (Option.some.inj same).symm
  have idle : (kernel.switchIn target continuation).idleThread ≠ some id := by
    rw [idleThread_switchIn]
    exact notIdle
  have found := thread_switchIn_map notCurrent continuation id
  rw [oldFound, Option.map_some, if_neg ne] at found
  split at found
  · -- The outgoing thread is listed only when it is left with the continuation of an exit.
    rename_i current
    have exited : continuation = .exited :=
      departed.elim (fun gone => absurd current gone.1) fun leaving => Option.some.inj leaving.2
    exact ⟨_, found, terminated, idle, .inl ⟨nowCurrent, exited⟩⟩
  · rename_i gone
    have exited : old.continuation = .exited :=
      departed.elim (fun exited => exited.2) fun leaving => absurd leaving.1 gone
    exact ⟨_, found, terminated, idle, .inl ⟨nowCurrent, exited⟩⟩

variable (move : KernelMove scope before after) (sound : RetiredSound scope before)
include move sound

/-- A listed thread that a move leaves on the list is still departed. -/
theorem KernelMove.departed (mem : id ∈ before.2.retiredThreads)
    (stays : id ∈ after.2.retiredThreads) :
    ∃ written, after.2.thread id = some written ∧ written.currentState = .terminated ∧
      Departed after id written.continuation := by
  cases move with
  | core _ entry _ run => exact (sound.core entry run).registered id stays
  | switchIn _ _ _ _ notCurrent => exact sound.departed_switchIn notCurrent mem
  | quantum | priority | lower | finishWait | relink | push =>
    refine sound.departed_of_write mem rfl rfl (fun _ exits => exits) (.modify rfl) ?_
    exact fun _ _ _ terminated => ⟨terminated, rfl⟩
  | requeue _ _ _ _ _ _ _ found running =>
    refine sound.departed_of_write mem rfl rfl (fun _ exits => exits) (.modify rfl) ?_
    intro _ other otherFound terminated
    cases found.symm.trans otherFound
    cases running.symm.trans terminated
  | park _ _ _ _ _ _ _ parks _ _ found running =>
    refine sound.departed_of_write mem rfl rfl ?_ (.modify rfl) ?_
    · intro _
      cases parks <;> exact nofun
    · intro _ other otherFound terminated
      cases found.symm.trans otherFound
      cases running.symm.trans terminated
  | retire kernel target _ _ current =>
    have unlisted : target ∉ kernel.retiredThreads := sound.current_unlisted nofun current
    exact sound.departed_of_write mem rfl rfl (fun _ => nofun)
      (.modify rfl) fun listed => absurd listed unlisted
  | pop =>
    rw [readyQueueRemove_eq]
    refine sound.departed_of_write mem rfl rfl (fun _ exits => exits)
      (thread_readyQueueRemove _ _ ·) ?_
    exact fun _ _ _ terminated => ⟨terminated, rfl⟩
  | selfSwitch kernel _ target current fit =>
    have unlisted : target ∉ kernel.retiredThreads :=
      sound.eligible_unlisted fun thread found => (fit thread found).imp_right And.right
    refine sound.departed_of_write mem rfl rfl ?_ (.modify rfl) fun listed => absurd listed unlisted
    intro isCurrent
    cases current.symm.trans isCurrent
    exact absurd mem unlisted
  | bind kernel _ target _ _ found _ fit =>
    have unlisted : target ∉ kernel.retiredThreads :=
      sound.eligible_unlisted (of_found found (.inl fit))
    rw [startRunning_eq]
    exact sound.departed_of_write mem rfl rfl (fun _ exits => exits)
      (.modify rfl) fun listed => absurd listed unlisted
  | resumed kernel target _ current =>
    have unlisted : target ∉ kernel.retiredThreads := sound.current_unlisted nofun current
    exact sound.departed_of_write mem rfl rfl (fun _ => nofun)
      (.modify rfl) fun listed => absurd listed unlisted
  | createThread =>
    refine sound.departed_of_kept mem rfl rfl (fun _ exits => exits) ?_
    intro thread found terminated
    exact ⟨thread, Registry.lookup_older found, terminated, rfl⟩
  | leave =>
    exact sound.departed_of_kept mem rfl rfl (fun _ => nofun)
      fun thread found terminated => ⟨thread, found, terminated, rfl⟩
  | _ =>
    exact sound.departed_of_kept mem rfl rfl (fun _ exits => exits)
      fun thread found terminated => ⟨thread, found, terminated, rfl⟩

theorem KernelMove.retired_nodup : after.2.retiredThreads.Nodup := by
  cases move with
  | core _ entry _ run => exact (sound.core entry run).nodup
  | retire kernel id _ _ current =>
    have unlisted : id ∉ kernel.retiredThreads := sound.current_unlisted nofun current
    refine nodup_append.mpr ⟨sound.kept.nodup, by simp, ?_⟩
    rintro _ mem _ isLast rfl
    exact unlisted (mem_singleton.mp isLast ▸ mem)
  | pop =>
    rw [readyQueueRemove_eq]
    exact sound.kept.nodup
  | bind =>
    rw [startRunning_eq]
    exact sound.kept.nodup
  | switchIn =>
    rw [switchIn_eq]
    exact sound.kept.nodup
  | _ => exact sound.kept.nodup

/-- A thread that is about to become current is not on the list. -/
theorem KernelMove.target_unlisted (isTarget : after.1.target = some id) :
    id ∉ after.2.retiredThreads := by
  cases move with
  | core _ _ _ run => exact fun mem => sound.unlisted id isTarget (run.retired_sublist.mem mem)
  | bind _ _ target _ _ found _ fit =>
    obtain rfl : target = id := Option.some.inj isTarget
    rw [startRunning_eq]
    exact sound.eligible_unlisted (of_found found (.inl fit))
  | resumed _ _ thread =>
    cases continuation : thread.continuation <;> rw [continuation] at isTarget <;>
      cases isTarget
  | finishWait => exact sound.unlisted id isTarget
  | _ => cases isTarget

/-- Every move keeps the retired list intact. -/
theorem KernelMove.retiredSound : RetiredSound scope after := by
  have listedLive : ∀ id ∈ before.2.retiredThreads, before.2.LiveOwner id := by
    intro id mem
    obtain ⟨thread, found, -⟩ := sound.kept.registered id mem
    exact ⟨before.2.threads.lookup_lt_nextId found, sound.kept.spared id mem⟩
  refine ⟨⟨move.retired_nodup sound, ?_, ?_, nofun⟩, ?_, sound.apart, move.namedLive sound.live,
    fun id isTarget => move.target_unlisted sound isTarget⟩
  · intro id mem
    rcases move.mem_retired mem with listed | ⟨-, leaving, -, -, current, notIdle, _, found,
      written⟩
    · exact move.departed sound listed mem
    · refine ⟨_, written, rfl, ?_, .inr ⟨current, ?_⟩⟩
      · rw [move.idleThread]
        exact notIdle
      · rw [leaving]
        rfl
  · intro id mem
    rcases move.mem_retired mem with listed | ⟨-, -, exits, current, -⟩
    · exact (move.liveOwner (listedLive id listed) fun owner doomed _ _ =>
        sound.doomed owner doomed id listed).alive
    · exact (move.liveOwner (sound.live id (.inl current)) fun owner doomed _ _ =>
        absurd doomed (sound.apart exits owner)).alive
  · intro owner destroyed id mem _ found parent
    rcases move.mem_retired mem with listed | ⟨-, -, exits, -⟩
    · obtain ⟨old, oldFound, sameParent, -⟩ :=
        move.descends (fun _ => (listedLive id listed).assigned) found
      exact sound.doomed owner destroyed id listed old oldFound (sameParent.symm.trans parent)
    · exact sound.apart exits owner destroyed

end

/-! ## Runs -/

/-- No process that the operation is about to destroy has a thread on the retired
list. -/
def SparesRetired (kernel : Kernel) (op : Op) : Prop :=
  ∀ owner, kernel.Dooms op owner → ∀ id ∈ kernel.retiredThreads, ∀ thread,
    kernel.thread id = some thread → thread.parent ≠ some owner

/-- What the retired list satisfies between operations. -/
def RetiredOrderly (kernel : Kernel) : Prop :=
  RetiredKept (Departed (.running, kernel)) [] kernel ∧ NamedLive (.running, kernel)

/-- Only operations that end no thread destroy processes. -/
theorem not_dooms_of_leaves_exited
    {op : Op} (exits : leaves op .exited) (kernel : Kernel) (owner : ProcessId) :
    ¬ kernel.Dooms op owner := by
  cases op with
  | serviceKill | terminateLaunched | reapExiting => exact absurd rfl exits.2
  | _ => exact id

theorem Reachable.retiredOrderly (reachable : Reachable SparesRetired kernel) :
    kernel.RetiredOrderly := by
  refine (@Reachable.of_moves SparesRetired RetiredSound RetiredOrderly ?_ ?_ ?_ ?_ _ reachable).2
  · exact fun _ _ _ _ => ⟨⟨nodup_nil, nofun, nofun, nofun⟩, namedLive_booted _ _ _⟩
  · intro kernel _ spares _ orderly
    exact ⟨orderly.1, spares,
      fun exits owner => not_dooms_of_leaves_exited exits kernel owner, orderly.2, nofun⟩
  · exact fun move _ sound => move.retiredSound sound
  · exact fun sound => ⟨sound.kept, sound.live⟩

/-- In every run that destroys no process with a thread on the retired list, the list
holds registered threads only, each once. -/
theorem retiredThreads_registered (reachable : Reachable SparesRetired kernel) :
    kernel.retiredThreads.Nodup ∧
      ∀ id ∈ kernel.retiredThreads, ∃ thread, kernel.thread id = some thread := by
  obtain ⟨kept, -⟩ := reachable.retiredOrderly
  refine ⟨kept.nodup, fun id member => ?_⟩
  obtain ⟨thread, found, -⟩ := kept.registered id member
  exact ⟨thread, found⟩

/-- A user process launches a second one of higher priority, is preempted by it, and
goes on from its exception frame when the second one has exited. -/
def launchedExitRun : List Op :=
  [.createProcess [] true 4096, .createThread 2 [] 1 16 1 true, .enqueue 3, .yield, .resume,
    .createProcess [] true 4096, .createThread 3 [] 1 8 1 true, .setLauncher 3 2, .enqueue 4,
    .lowerElTimerIrq, .resume, .serviceExit 0, .resume]

/-- A fatal fault of the launcher then destroys the launched process and with it a
thread that stays on the retired list. -/
theorem retiredThread_released :
    ∃ (kernel : Kernel) (id : ThreadId), Reachable (fun _ _ => True) kernel ∧
      id ∈ kernel.retiredThreads ∧ kernel.thread id = none := by
  have ran : (booted [] [] 4096).run (fun _ _ => true) 6
      (launchedExitRun ++ [.terminateLaunched 1]) = some _ := rfl
  exact ⟨_, 4, .of_run (fun _ _ _ => trivial) ran, .head _, rfl⟩

/-- A destruction with an empty retired list is harmless. -/
def sparesRetired (kernel : Kernel) : Op → Bool
  | .serviceKill _ | .terminateLaunched _ | .reapExiting => kernel.retiredThreads.isEmpty
  | _ => true

theorem sparesRetired_sound {op : Op} (spares : kernel.sparesRetired op = true) :
    kernel.SparesRetired op := by
  intro _ doomed _ mem
  cases op with
  | serviceKill | terminateLaunched | reapExiting =>
    rw [isEmpty_iff.mp spares] at mem
    cases mem
  | _ => cases doomed

/-- The exited thread of the launched process is listed and registered while its
launcher runs on. -/
theorem retiredThreads_registered_launchedExit :
    ∃ kernel : Kernel, Reachable SparesRetired kernel ∧ kernel.retiredThreads = [4] ∧
      kernel.retiredThreads.Nodup ∧
      ∀ id ∈ kernel.retiredThreads, ∃ thread, kernel.thread id = some thread := by
  have ran : (booted [] [] 4096).run sparesRetired 6 (.reapExiting :: launchedExitRun) =
      some _ := rfl
  have reachable := Reachable.of_run (fun _ _ => sparesRetired_sound) ran
  exact ⟨_, reachable, rfl, retiredThreads_registered reachable⟩

end RosKernel.Kernel
