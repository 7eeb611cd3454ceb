import RosKernel.Kernel.Owners

/-!
# The sleep queue

The sleep queue is sorted by wake tick and holds waiting threads only.
-/

namespace RosKernel.Kernel

open List

/-- The sleep queue holds waiting threads other than the idle one, each once, in the
order of their wake ticks. -/
structure SleepOrdered (kernel : Kernel) : Prop where
  asleep : ∀ id ∈ kernel.sleepQueue, kernel.idleThread ≠ some id ∧
    ∃ thread, kernel.thread id = some thread ∧ thread.currentState = .waiting
  sorted : kernel.sleepQueue.Pairwise fun left right =>
    kernel.wakeTickOf left ≤ kernel.wakeTickOf right
  nodup : kernel.sleepQueue.Nodup

namespace SleepOrdered

variable {kernel after : Kernel}

variable (ordered : kernel.SleepOrdered)
include ordered

theorem waiting_of_mem {id : ThreadId} (mem : id ∈ kernel.sleepQueue)
    {thread : Thread} (found : kernel.thread id = some thread) :
    thread.currentState = .waiting := by
  obtain ⟨-, _, sleeperFound, waiting⟩ := ordered.asleep id mem
  cases found.symm.trans sleeperFound
  exact waiting

/-- A step after which the remaining sleepers wait for the same ticks. -/
theorem of_kept (shrinks : after.sleepQueue.Sublist kernel.sleepQueue)
    (idle : after.idleThread = kernel.idleThread)
    (kept : ∀ id ∈ after.sleepQueue, ∀ thread, kernel.thread id = some thread →
      ∃ written, after.thread id = some written ∧
        written.currentState = thread.currentState ∧ written.wakeTick = thread.wakeTick) :
    after.SleepOrdered where
  asleep id mem := by
    obtain ⟨notIdle, thread, found, waiting⟩ := ordered.asleep id (shrinks.mem mem)
    obtain ⟨written, writtenFound, state, -⟩ := kept id mem thread found
    exact ⟨idle ▸ notIdle, written, writtenFound, state.trans waiting⟩
  sorted := by
    have sameTick : ∀ id ∈ after.sleepQueue, after.wakeTickOf id = kernel.wakeTickOf id := by
      intro id mem
      obtain ⟨-, thread, found, -⟩ := ordered.asleep id (shrinks.mem mem)
      obtain ⟨_, writtenFound, -, tick⟩ := kept id mem thread found
      simp [wakeTickOf, found, writtenFound, tick]
    refine (ordered.sorted.sublist shrinks).imp_of_mem fun leftMember rightMember ordered => ?_
    rw [sameTick _ leftMember, sameTick _ rightMember]
    exact ordered
  nodup := ordered.nodup.sublist shrinks

/-- A write to a thread that is not asleep, or one that keeps its state and its tick. -/
theorem of_write {target : ThreadId} {update : Thread → Thread}
    (rewritten : Rewrites kernel after target update)
    (shrinks : after.sleepQueue.Sublist kernel.sleepQueue)
    (idle : after.idleThread = kernel.idleThread)
    (kept : target ∈ after.sleepQueue → ∀ thread, kernel.thread target = some thread →
      (update thread).currentState = thread.currentState ∧
        (update thread).wakeTick = thread.wakeTick) : after.SleepOrdered := by
  refine ordered.of_kept shrinks idle fun _ mem thread found => ?_
  rw [rewritten]
  split
  · rename_i same
    subst same
    exact ⟨update thread, congrArg (Option.map update) found, kept mem thread found⟩
  · exact ⟨thread, found, rfl, rfl⟩

/-- A step that writes to no thread and leaves the sleep queue alone. -/
theorem of_threads (threads : after.threads = kernel.threads)
    (queue : after.sleepQueue = kernel.sleepQueue)
    (idle : after.idleThread = kernel.idleThread) : after.SleepOrdered := by
  refine ordered.of_kept (queue ▸ .refl _) idle fun _ _ thread found => ?_
  refine ⟨thread, ?_, rfl, rfl⟩
  rw [Kernel.thread, threads]
  exact found

theorem removed_not_mem (id : ThreadId) : id ∉ kernel.sleepQueue.erase id :=
  ordered.nodup.not_mem_erase

/-- `sleep_queue_insert_sorted` on a waiting thread. -/
theorem insertSorted {id : ThreadId} {thread : Thread}
    (notIdle : kernel.idleThread ≠ some id) (found : kernel.thread id = some thread)
    (waiting : thread.currentState = .waiting) :
    (kernel.sleepQueueInsertSorted id).SleepOrdered := by
  have others : (kernel.sleepQueue.erase id).Pairwise fun left right =>
      kernel.wakeTickOf left ≤ kernel.wakeTickOf right :=
    ordered.sorted.sublist erase_sublist
  have absent : id ∉ kernel.sleepQueue.erase id := ordered.removed_not_mem id
  have distinct : (kernel.sleepQueue.erase id).Nodup := ordered.nodup.erase id
  have members : ∀ other ∈ kernel.sleepQueue.erase id, other ∈ kernel.sleepQueue :=
    fun other mem => erase_sublist.mem mem
  unfold sleepQueueInsertSorted
  generalize kernel.sleepQueue.erase id = queue at others absent distinct members
  generalize isNotLater : (fun other => decide (kernel.wakeTickOf other ≤ kernel.wakeTickOf id)) =
    notLater
  have split : queue.takeWhile notLater ++ queue.dropWhile notLater = queue :=
    takeWhile_append_dropWhile
  have earlier : ∀ other ∈ queue.takeWhile notLater,
      kernel.wakeTickOf other ≤ kernel.wakeTickOf id := by
    intro other mem
    have passed : notLater other = true := all_eq_true.mp all_takeWhile other mem
    rw [← isNotLater] at passed
    exact of_decide_eq_true passed
  have later : ∀ other ∈ queue.dropWhile notLater,
      kernel.wakeTickOf id ≤ kernel.wakeTickOf other := by
    -- The first thread of the rest wakes later, and the rest is sorted.
    rw [← split, pairwise_append] at others
    cases rest : queue.dropWhile notLater with
    | nil => exact nofun
    | cons first =>
      have stopped : notLater first ≠ true := by
        have head := List.head?_dropWhile_not notLater queue
        rw [rest] at head
        simpa using head
      rw [← isNotLater] at stopped
      have laterFirst : kernel.wakeTickOf id ≤ kernel.wakeTickOf first :=
        (Nat.lt_of_not_le fun notLater => stopped (decide_eq_true notLater)).le
      rw [rest] at others
      intro other mem
      rcases mem_cons.mp mem with rfl | inTail
      · exact laterFirst
      · exact laterFirst.trans ((pairwise_cons.mp others.2.1).1 other inTail)
  constructor
  · intro other mem
    rcases mem_append.mp mem with front | rear
    · exact ordered.asleep other (members other ((takeWhile_sublist _).mem front))
    · rcases mem_cons.mp rear with rfl | back
      · exact ⟨notIdle, thread, found, waiting⟩
      · exact ordered.asleep other (members other ((dropWhile_sublist _).mem back))
  · rw [← split, pairwise_append] at others
    refine pairwise_append.mpr ⟨others.1, pairwise_cons.mpr ⟨later, others.2.1⟩, ?_⟩
    intro left leftMember right rightMember
    rcases mem_cons.mp rightMember with rfl | back
    · exact earlier left leftMember
    · exact others.2.2 left leftMember right back
  · have inserted : (queue.takeWhile notLater ++ id :: queue.dropWhile notLater).Perm
        (id :: queue) := by
      refine perm_middle.trans ?_
      rw [split]
    exact inserted.nodup_iff.mpr (nodup_cons.mpr ⟨absent, distinct⟩)

end SleepOrdered

variable {before after : List Frame × Kernel}

theorem CoreMove.sleepOrdered (move : CoreMove before after)
    (ordered : before.2.SleepOrdered) : after.2.SleepOrdered := by
  cases move with
  | storeWake | detach | link | unlink =>
    refine ordered.of_write (.modify rfl) (.refl _) rfl ?_
    exact fun _ _ _ => ⟨rfl, rfl⟩
  | leaveWait frames kernel id | terminate frames kernel id =>
    exact ordered.of_write (.modify rfl) erase_sublist rfl
      fun mem => absurd mem (ordered.removed_not_mem id)
  | reap _ _ id =>
    exact ordered.of_write (.modify rfl) erase_sublist rfl
      fun mem => absurd mem (ordered.removed_not_mem id)
  | announce =>
    rw [requestReschedule_eq]
    exact ordered.of_threads rfl rfl rfl
  | unsleep =>
    exact ordered.of_kept erase_sublist rfl fun _ _ thread found =>
      ⟨thread, found, rfl, rfl⟩
  | unregister _ _ id _ found terminated =>
    refine ordered.of_kept (.refl _) rfl fun other mem otherThread otherFound => ?_
    have ne : other ≠ id := by
      rintro rfl
      have waiting := ordered.waiting_of_mem mem found
      cases terminated.symm.trans waiting
    exact ⟨otherThread, Registry.lookup_kept ne otherFound, rfl, rfl⟩
  | _ => exact ordered.of_threads rfl rfl rfl

theorem CoreRun.sleepOrdered (run : CoreRun before after)
    (ordered : before.2.SleepOrdered) : after.2.SleepOrdered := by
  induction run with
  | refl => exact ordered
  | tail _ move ih => exact move.sleepOrdered ih

end RosKernel.Kernel
