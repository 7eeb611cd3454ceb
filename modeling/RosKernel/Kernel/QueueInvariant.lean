import RosKernel.Kernel.ExecPaths

/-!
# The ready queues in every run

A thread carries the queue flag exactly while it is linked in the queue of its
priority, only ready threads are linked, and the bitmap shows the queues that are
not empty. In such a state the scheduler's choice can be read off the queues.
-/

namespace RosKernel.Kernel

open List Function Registry

/-- Ready queues, queue flags and the bitmap agree. -/
structure QueuesAgree (kernel : Kernel) : Prop where
  queued : ∀ priority, ∀ id ∈ kernel.readyQueues priority,
    ∃ thread, kernel.thread id = some thread ∧ thread.inReadyQueue = true ∧
      thread.currentPriority = priority
  flagged : ∀ id thread, kernel.thread id = some thread → thread.inReadyQueue = true →
    thread.currentState = .ready ∧
      thread.currentPriority < threadPriorityLevelCount ∧
      id ∈ kernel.readyQueues thread.currentPriority ∧ kernel.idleThread ≠ some id
  nodup : ∀ priority, (kernel.readyQueues priority).Nodup
  bitmap : ∀ priority, kernel.readyBitmap.getLsbD priority = true ↔ kernel.readyQueues priority ≠ []

namespace QueuesAgree

variable {kernel after : Kernel}

theorem of_registry (agree : kernel.QueuesAgree) (threads : after.threads = kernel.threads)
    (readyQueues : after.readyQueues = kernel.readyQueues)
    (readyBitmap : after.readyBitmap = kernel.readyBitmap)
    (idleThread : after.idleThread = kernel.idleThread) : after.QueuesAgree := by
  constructor
  · rw [readyQueues]
    unfold Kernel.thread
    rw [threads]
    exact agree.queued
  · rw [readyQueues, idleThread]
    unfold Kernel.thread
    rw [threads]
    exact agree.flagged
  · rw [readyQueues]
    exact agree.nodup
  · rw [readyQueues, readyBitmap]
    exact agree.bitmap

variable {id target : ThreadId} {thread : Thread}

section

variable (agree : kernel.QueuesAgree) (found : kernel.thread id = some thread)
include agree found

/-- A thread that is linked is registered with its flag set, so that an unflagged
thread is in no queue. -/
theorem not_mem (notQueued : thread.inReadyQueue = false) (priority : ℕ) :
    id ∉ kernel.readyQueues priority := by
  intro mem
  obtain ⟨_, linkedFound, isQueued, -⟩ := agree.queued priority id mem
  cases found.symm.trans linkedFound
  cases notQueued.symm.trans isQueued

/-- A thread that is not ready carries no flag. -/
theorem not_flagged (notReady : thread.currentState ≠ .ready) : thread.inReadyQueue = false := by
  by_contra flag
  rw [Bool.not_eq_false] at flag
  exact notReady (agree.flagged id thread found flag).1

/-- The flag of a thread whose links `ready_queue_remove` would not touch. -/
theorem not_flagged_of_unqueued (unqueued : Unqueued thread) : thread.inReadyQueue = false := by
  by_contra flag
  rw [Bool.not_eq_false] at flag
  exact unqueued flag (agree.flagged id thread found flag).2.1

end

variable {update : Thread → Thread}

section

variable (agree : kernel.QueuesAgree)
include agree

/-- A write that keeps the flag, and keeps a linked thread ready at its priority. -/
theorem of_modifyThread (kept : ∀ thread, kernel.thread target = some thread →
      (update thread).inReadyQueue = thread.inReadyQueue ∧
      (thread.inReadyQueue = true → (update thread).currentState = .ready ∧
        (update thread).currentPriority = thread.currentPriority)) :
    (kernel.modifyThread target update).QueuesAgree := by
  constructor
  · intro priority id mem
    obtain ⟨thread, found, flag, samePriority⟩ := agree.queued priority id mem
    rw [thread_modifyThread]
    split
    · rename_i isTarget
      subst isTarget
      obtain ⟨sameFlag, linked⟩ := kept thread found
      refine ⟨update thread, by rw [found]; rfl, sameFlag.trans flag, ?_⟩
      exact (linked flag).2.trans samePriority
    · exact ⟨thread, found, flag, samePriority⟩
  · intro id thread found flag
    rcases written_cases (thread_modifyThread ..) found with
      ⟨rfl, old, oldFound, rfl⟩ | ⟨-, found⟩
    · obtain ⟨sameFlag, linked⟩ := kept old oldFound
      have oldFlag : old.inReadyQueue = true := sameFlag.symm.trans flag
      obtain ⟨isReady, samePriority⟩ := linked oldFlag
      obtain ⟨-, valid, mem, notIdle⟩ := agree.flagged id old oldFound oldFlag
      rw [samePriority]
      exact ⟨isReady, valid, mem, notIdle⟩
    · exact agree.flagged id thread found flag
  · exact agree.nodup
  · exact agree.bitmap

/-- Any write to a thread that is not linked, unless it sets the flag. -/
theorem of_modifyUnlinked (unlinked : ∀ thread, kernel.thread target = some thread →
      thread.inReadyQueue = false ∧ (update thread).inReadyQueue = false) :
    (kernel.modifyThread target update).QueuesAgree := by
  refine agree.of_modifyThread fun thread found => ?_
  obtain ⟨before, now⟩ := unlinked thread found
  refine ⟨now.trans before.symm, fun flag => ?_⟩
  cases before.symm.trans flag

theorem linkReady (atTail : Bool)
    (found : kernel.thread id = some thread) (isReady : thread.currentState = .ready)
    (notIdle : kernel.idleThread ≠ some id)
    (valid : thread.currentPriority < threadPriorityLevelCount)
    (notQueued : thread.inReadyQueue = false) :
    (kernel.linkReady id thread.currentPriority atTail).QueuesAgree := by
  have absent := agree.not_mem found notQueued
  have mem : ∀ priority other,
      other ∈ (kernel.linkReady id thread.currentPriority atTail).readyQueues priority ↔
        other ∈ kernel.readyQueues priority ∨ priority = thread.currentPriority ∧ other = id := by
    intro priority other
    rw [readyQueues_linkReady]
    by_cases same : priority = thread.currentPriority
    · subst same
      cases atTail <;> simp [or_comm]
    · rw [update_of_ne same]
      simp [same]
  constructor
  · intro priority other linked
    rw [thread_linkReady]
    rcases (mem priority other).mp linked with before | ⟨rfl, rfl⟩
    · have ne : other ≠ id := by
        rintro rfl
        exact absent priority before
      rw [if_neg ne]
      exact agree.queued priority other before
    · rw [if_pos rfl, found]
      exact ⟨_, rfl, rfl, rfl⟩
  · intro other written writtenFound flag
    rw [thread_linkReady] at writtenFound
    split at writtenFound
    · rename_i same
      subst same
      rw [found] at writtenFound
      cases writtenFound
      exact ⟨isReady, valid, (mem _ _).mpr (.inr ⟨rfl, rfl⟩), notIdle⟩
    · obtain ⟨ready, validPriority, linked, otherNotIdle⟩ :=
        agree.flagged other written writtenFound flag
      exact ⟨ready, validPriority, (mem _ _).mpr (.inl linked), otherNotIdle⟩
  · intro priority
    rw [readyQueues_linkReady]
    by_cases same : priority = thread.currentPriority
    · subst same
      rw [update_self]
      cases atTail
      · exact nodup_cons.mpr ⟨absent _, agree.nodup _⟩
      · exact nodup_append.mpr ⟨agree.nodup _, nodup_singleton _, fun _ before _ here => by
            rintro rfl
            rw [mem_singleton] at here
            exact absent _ (here ▸ before)⟩
    · rw [update_of_ne same]
      exact agree.nodup priority
  · intro priority
    rw [readyBitmap_linkReady, readyQueues_linkReady, BitVec.getLsbD_or, BitVec.getLsbD_twoPow]
    by_cases same : priority = thread.currentPriority
    · subst same
      have bit : thread.currentPriority < 32 := valid
      cases atTail <;> simp [bit]
    · rw [update_of_ne same, ← agree.bitmap priority]
      simp [Ne.symm same]

theorem unlinkReady (found : kernel.thread id = some thread) :
    (kernel.unlinkReady id thread.currentPriority).QueuesAgree := by
  have mem : ∀ priority other,
      other ∈ (kernel.unlinkReady id thread.currentPriority).readyQueues priority ↔
        other ∈ kernel.readyQueues priority ∧ other ≠ id := by
    intro priority other
    rw [readyQueues_unlinkReady]
    by_cases same : priority = thread.currentPriority
    · subst same
      rw [update_self, (agree.nodup _).mem_erase_iff]
      exact and_comm
    · rw [update_of_ne same]
      refine ⟨fun linked => ⟨linked, ?_⟩, And.left⟩
      rintro rfl
      obtain ⟨_, linkedFound, -, isPriority⟩ := agree.queued priority other linked
      cases found.symm.trans linkedFound
      exact same isPriority.symm
  constructor
  · intro priority other linked
    obtain ⟨before, ne⟩ := (mem priority other).mp linked
    rw [thread_unlinkReady, if_neg ne]
    exact agree.queued priority other before
  · intro other written writtenFound flag
    rw [thread_unlinkReady] at writtenFound
    rcases written_cases rfl writtenFound with ⟨-, _, -, rfl⟩ | ⟨ne, writtenFound⟩
    · cases flag
    · obtain ⟨ready, valid, linked, notIdle⟩ := agree.flagged other written writtenFound flag
      exact ⟨ready, valid, (mem _ _).mpr ⟨linked, ne⟩, notIdle⟩
  · intro priority
    rw [readyQueues_unlinkReady]
    by_cases same : priority = thread.currentPriority
    · subst same
      rw [update_self]
      exact (agree.nodup _).erase id
    · rw [update_of_ne same]
      exact agree.nodup priority
  · intro priority
    rw [readyBitmap_unlinkReady, readyQueues_unlinkReady]
    by_cases same : priority = thread.currentPriority
    · subst same
      rw [update_self]
      split
      · rename_i empty
        simp [empty]
      · rename_i remaining
        refine ⟨fun _ => remaining, fun _ => (agree.bitmap _).mpr ?_⟩
        rintro empty
        exact remaining (by rw [empty]; rfl)
    · rw [update_of_ne same, ← agree.bitmap priority]
      split
      · simp [Ne.symm same]
        exact fun bit => BitVec.lt_of_getLsbD bit
      · exact Iff.rfl

/-- Forgetting a thread that is not linked. -/
theorem remove (found : kernel.thread target = some thread)
    (notQueued : thread.inReadyQueue = false) :
    ({ kernel with threads := kernel.threads.remove target } : Kernel).QueuesAgree := by
  constructor
  · intro priority id mem
    have ne : id ≠ target := by
      rintro rfl
      exact agree.not_mem found notQueued priority mem
    obtain ⟨linked, linkedFound, flag, samePriority⟩ := agree.queued priority id mem
    exact ⟨linked, lookup_kept ne linkedFound, flag, samePriority⟩
  · intro id written writtenFound
    exact agree.flagged id written (of_remove writtenFound)
  · exact agree.nodup
  · exact agree.bitmap

/-- A thread created outside the queues. -/
theorem insert (notQueued : thread.inReadyQueue = false) :
    ({ kernel with threads := kernel.threads.insert thread } : Kernel).QueuesAgree := by
  constructor
  · intro priority id mem
    obtain ⟨linked, linkedFound, flag, samePriority⟩ := agree.queued priority id mem
    exact ⟨linked, lookup_older linkedFound, flag, samePriority⟩
  · intro id written writtenFound flag
    rcases of_insert writtenFound with rfl | writtenFound
    · cases notQueued.symm.trans flag
    · exact agree.flagged id written writtenFound flag
  · exact agree.nodup
  · exact agree.bitmap

theorem detachWaiter (subscription : SubscriptionId) (waiter : ThreadId) :
    (kernel.detachWaiter subscription waiter).QueuesAgree := by
  refine of_modifyThread (agree.of_registry rfl rfl rfl rfl) fun thread found =>
    ⟨rfl, fun flag => ⟨?_, rfl⟩⟩
  exact (agree.flagged _ thread found flag).1

/-- `destroy_thread` ends a thread that is not linked. -/
theorem endThread {middle : Kernel}
    (threads : middle.threads = kernel.threads) (queues : middle.readyQueues = kernel.readyQueues)
    (bitmap : middle.readyBitmap = kernel.readyBitmap)
    (idle : middle.idleThread = kernel.idleThread) (found : kernel.thread target = some thread)
    (unqueued : Unqueued thread) :
    (middle.modifyThread target Kernel.endThread).QueuesAgree := by
  refine (agree.of_registry threads queues bitmap idle).of_modifyUnlinked fun _ oldFound => ?_
  rw [Kernel.thread, threads] at oldFound
  cases found.symm.trans oldFound
  have notQueued := agree.not_flagged_of_unqueued found unqueued
  exact ⟨notQueued, notQueued⟩

end

variable {before after : List Frame × Kernel}

theorem of_coreMove (agree : before.2.QueuesAgree)
    (move : CoreMove before after) : after.2.QueuesAgree := by
  cases move with
  | storeWake _ kernel _ subscription _ _ updated =>
    have stored : (kernel.modifySubscriber subscription fun _ => updated).QueuesAgree :=
      agree.of_registry rfl rfl rfl rfl
    exact stored.detachWaiter _ _
  | detach => exact agree.detachWaiter _ _
  | leaveWait _ _ _ _ _ _ found _ notQueued =>
    exact of_modifyUnlinked (agree.of_registry rfl rfl rfl rfl)
      (of_found found ⟨notQueued, notQueued⟩)
  | link _ _ _ _ atTail _ found isReady notIdle valid notQueued =>
    exact agree.linkReady atTail found isReady notIdle valid notQueued
  | announce =>
    rw [requestReschedule_eq]
    exact agree.of_registry rfl rfl rfl rfl
  | unlink _ _ _ _ found => exact agree.unlinkReady found
  | reap _ _ _ _ _ _ found _ unqueued => exact agree.endThread rfl rfl rfl rfl found unqueued
  | terminate _ _ _ _ _ _ found _ _ _ _ unqueued =>
    exact agree.endThread rfl rfl rfl rfl found unqueued
  | unregister _ _ _ _ found terminated =>
    exact agree.remove found (agree.not_flagged found (by simp [terminated]))
  | _ => exact agree.of_registry rfl rfl rfl rfl

theorem of_core (agree : before.2.QueuesAgree)
    (run : CoreRun before after) : after.2.QueuesAgree := by
  induction run with
  | refl => exact agree
  | tail _ move ih => exact ih.of_coreMove move

/-- A thread chosen to run is not linked. -/
theorem chosen_not_flagged (agree : kernel.QueuesAgree) (found : kernel.thread id = some thread)
    (chosen : Unqueued thread ∨ kernel.idleThread = some id ∨
      kernel.highestReadyPriority = none) : thread.inReadyQueue = false := by
  rcases chosen with unqueued | isIdle | noReady
  · exact agree.not_flagged_of_unqueued found unqueued
  all_goals
    by_contra flag
    rw [Bool.not_eq_false] at flag
    obtain ⟨-, valid, mem, notIdle⟩ := agree.flagged id thread found flag
  · exact notIdle isIdle
  · -- the bit of its queue would have been found
    have bit : kernel.readyBitmap.getLsbD thread.currentPriority = true :=
      (agree.bitmap _).mpr (ne_nil_of_mem mem)
    have searched := List.find?_eq_none.mp noReady thread.currentPriority (mem_range.mpr valid)
    exact searched bit

/-- A write to a linked thread that keeps its state, priority and flag. -/
theorem of_write (agree : kernel.QueuesAgree)
    (kept : ∀ thread, (update thread).inReadyQueue = thread.inReadyQueue ∧
      (update thread).currentState = thread.currentState ∧
      (update thread).currentPriority = thread.currentPriority) :
    (kernel.modifyThread target update).QueuesAgree := by
  refine agree.of_modifyThread fun thread found => ?_
  obtain ⟨sameFlag, sameState, samePriority⟩ := kept thread
  refine ⟨sameFlag, fun flag => ⟨?_, samePriority⟩⟩
  rw [sameState]
  exact (agree.flagged target thread found flag).1

/-- A priority is assigned to a thread that is not linked. -/
theorem assignPriority (agree : kernel.QueuesAgree) (found : kernel.thread target = some thread)
    (unqueued : Unqueued thread ∨ thread.currentState = .running) (priority : ℕ) :
    (kernel.modifyThread target fun thread => resetQuantum
      { thread with basePriority := priority, currentPriority := priority }).QueuesAgree := by
  refine agree.of_modifyUnlinked fun _ oldFound => ?_
  cases found.symm.trans oldFound
  have notQueued : thread.inReadyQueue = false := by
    rcases unqueued with unqueued | running
    · exact agree.not_flagged_of_unqueued found unqueued
    · exact agree.not_flagged found (by simp [running])
  exact ⟨notQueued, notQueued⟩

theorem of_move {scope : Scope} {before after : Stage × Kernel} (agree : before.2.QueuesAgree)
    (move : KernelMove scope before after) : after.2.QueuesAgree := by
  cases move with
  | core _ _ _ run => exact agree.of_core run
  | clearBit kernel _ priority empty =>
    refine { agree with bitmap := fun other => ?_ }
    rw [← agree.bitmap other, BitVec.getLsbD_and, BitVec.getLsbD_not, BitVec.getLsbD_twoPow]
    have clear : kernel.readyBitmap.getLsbD priority ≠ true := fun bit =>
      (agree.bitmap priority).mp bit empty
    by_cases same : priority = other
    · subst same
      simpa using clear
    · simp only [same, decide_false, Bool.and_false, Bool.not_false, Bool.and_true,
        Bool.and_eq_true, decide_eq_true_eq, and_iff_left_iff_imp]
      exact BitVec.lt_of_getLsbD
  | createThread => exact agree.insert rfl
  | quantum | resumed | finishWait => exact agree.of_write fun _ => ⟨rfl, rfl, rfl⟩
  | priority _ _ _ priority _ found unqueued => exact agree.assignPriority found unqueued priority
  | relink _ _ _ _ _ found isReady notIdle valid notQueued =>
    exact (agree.linkReady true found isReady notIdle valid notQueued).of_registry rfl rfl rfl rfl
  | lower _ _ _ _ priority _ _ found running =>
    exact agree.assignPriority found (.inr running) priority
  | push _ _ _ _ atTail _ found isReady notIdle valid notQueued =>
    exact agree.linkReady atTail found isReady notIdle valid notQueued
  | pop kernel _ _ id =>
    rcases readyQueueRemove_cases kernel id with ⟨same, -⟩ | ⟨thread, found, -, -, removal⟩
    · rw [same]
      exact agree
    · rw [removal]
      exact agree.unlinkReady found
  | requeue _ _ _ _ resetRequeuedQuantum _ _ found running =>
    have notQueued := agree.not_flagged found (by simp [running])
    refine agree.of_modifyUnlinked (of_found found ⟨notQueued, ?_⟩)
    cases resetRequeuedQuantum <;> exact notQueued
  | park _ _ _ _ _ _ _ _ _ _ found running =>
    have notQueued := agree.not_flagged found (by simp [running])
    exact agree.of_modifyUnlinked (of_found found ⟨notQueued, notQueued⟩)
  | retire _ _ _ _ _ _ found notQueued =>
    exact of_modifyUnlinked (agree.of_registry rfl rfl rfl rfl)
      (of_found found ⟨notQueued, notQueued⟩)
  | selfSwitch _ _ _ _ fit =>
    refine agree.of_modifyUnlinked fun thread found => ?_
    have notQueued : thread.inReadyQueue = false := by
      refine agree.chosen_not_flagged found ?_
      rcases fit thread found with (⟨-, unqueued⟩ | isIdle) | ⟨noReady, -⟩
      · exact .inl unqueued
      · exact .inr (.inl isIdle)
      · exact .inr (.inr noReady)
    exact ⟨notQueued, notQueued⟩
  | bind _ _ _ thread _ found _ fit =>
    have notQueued : thread.inReadyQueue = false :=
      agree.chosen_not_flagged found (fit.imp And.right .inl)
    rw [startRunning_eq]
    exact of_modifyUnlinked (agree.of_registry rfl rfl rfl rfl)
      (of_found found ⟨notQueued, notQueued⟩)
  | switchIn kernel _ id =>
    have reset : (({ kernel with currentThread := some id } : Kernel).modifyThread id
        resetQuantum).QueuesAgree :=
      of_write (agree.of_registry rfl rfl rfl rfl) fun _ => ⟨rfl, rfl, rfl⟩
    unfold switchIn contextSwitch
    split
    · exact reset
    · exact reset.of_write fun _ => ⟨rfl, rfl, rfl⟩
  | _ => exact agree.of_registry rfl rfl rfl rfl

theorem booting (processName threadName : Text) (pageTableRoot : ℕ) :
    (booted processName threadName pageTableRoot).QueuesAgree := by
  constructor
  · intro priority id mem
    cases mem
  · intro _ _ found flag
    rw [thread_booted] at found
    split at found
    · cases found
      cases flag
    split at found
    · cases found
      cases flag
    · cases found
  · exact fun _ => nodup_nil
  · intro _
    simp [booted]

end QueuesAgree

/-- The thread a dispatch that gives up the current one turns to. -/
def nextDispatched (kernel : Kernel) : Option ThreadId :=
  match kernel.highestReadyPriority with
  | some priority => (kernel.readyQueues priority).head?
  | none => kernel.idleThread

/-- In a state whose queues agree the first candidate is taken. -/
theorem QueuesAgree.readyQueuePopBest {kernel after : Kernel} (agree : kernel.QueuesAgree)
    {rounds : ℕ} {popped : Option ThreadId}
    (call : kernel.readyQueuePopBest rounds = some (popped, after)) :
    popped = kernel.highestReadyPriority.bind fun priority =>
      (kernel.readyQueues priority).head? := by
  cases rounds with
  | zero => cases call
  | succ =>
    unfold Kernel.readyQueuePopBest at call
    cases best : kernel.highestReadyPriority with
    | none =>
      rw [best] at call
      cases call
      rfl
    | some priority =>
      have bit : kernel.readyBitmap.getLsbD priority = true := List.find?_some best
      rw [best] at call
      dsimp only at call
      cases queue : kernel.readyQueues priority with
      | nil => exact absurd queue ((agree.bitmap priority).mp bit)
      | cons id =>
        obtain ⟨thread, found, flag, -⟩ := agree.queued priority id (by simp [queue])
        obtain ⟨ready, -, -, notIdle⟩ := agree.flagged id thread found flag
        rw [queue] at call
        dsimp only at call
        rw [found] at call
        have selected : (kernel.threadCanEnterReadyQueue id thread &&
            decide (thread.currentState = .ready)) = true := by
          simp [threadCanEnterReadyQueue, threadIsRunnable, ready, notIdle]
        dsimp only at call
        rw [if_pos selected] at call
        cases call
        simp [queue]

theorem QueuesAgree.pickNextThread {kernel after : Kernel} (agree : kernel.QueuesAgree)
    (operational : kernel.Operational) (relinquished : kernel.Relinquished)
    {rounds : ℕ} {next : Option ThreadId}
    (call : kernel.pickNextThread rounds false = some (next, after)) :
    next = kernel.nextDispatched := by
  simp only [Kernel.pickNextThread, bind_eq_some] at call
  obtain ⟨⟨_, middle⟩, pop, call⟩ := call
  have choice := agree.readyQueuePopBest pop
  obtain ⟨frame, -⟩ := readyQueuePopBest_moves Permits.all.scope .dispatched rounds relinquished pop
  have idle : middle.idleThread.isSome := by
    rw [frame.idleThread]
    exact operational.idle
  unfold nextDispatched
  cases best : kernel.highestReadyPriority with
  | none =>
    rw [best] at choice
    subst choice
    simp only [Bool.false_and, Bool.false_eq_true, if_false, if_pos idle] at call
    cases call
    exact frame.idleThread
  | some priority =>
    have bit : kernel.readyBitmap.getLsbD priority = true := List.find?_some best
    obtain ⟨_, _, queue⟩ := exists_cons_of_ne_nil ((agree.bitmap priority).mp bit)
    rw [best, Option.bind_some, queue] at choice
    subst choice
    cases call
    simp [queue]

end RosKernel.Kernel
