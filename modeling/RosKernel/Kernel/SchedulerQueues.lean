import Mathlib.Algebra.BigOperators.Group.Finset.Basic
import RosKernel.Kernel.QueueInvariant
import RosKernel.Kernel.Roles

/-!
# The scheduler's queues in every run

Ready queues, bitmap, counter and sleep queue agree with the threads they hold, and
neither the current nor the idle thread is on a ready queue.
-/

namespace RosKernel.Kernel

open scoped BigOperators

/-! ## The number of ready threads -/

/-- The total length of the ready queues. -/
def readyTotal (queues : ℕ → List ThreadId) : ℕ :=
  ∑ priority ∈ Finset.range threadPriorityLevelCount, (queues priority).length

/-- `g_ready_count` is the total length of the ready queues. -/
def ReadyCounted (kernel : Kernel) : Prop :=
  kernel.readyCount = readyTotal kernel.readyQueues

variable {priority : ℕ}

theorem readyTotal_update (queues : ℕ → List ThreadId)
    (valid : priority < threadPriorityLevelCount) (queue : List ThreadId) :
    readyTotal (Function.update queues priority queue) + (queues priority).length =
      readyTotal queues + queue.length := by
  have mem : priority ∈ Finset.range threadPriorityLevelCount := Finset.mem_range.mpr valid
  unfold readyTotal
  rw [← Finset.add_sum_erase _ _ mem, ← Finset.add_sum_erase _ (fun level =>
    (queues level).length) mem, Function.update_self]
  have others : ∑ level ∈ (Finset.range threadPriorityLevelCount).erase priority,
      (Function.update queues priority queue level).length =
      ∑ level ∈ (Finset.range threadPriorityLevelCount).erase priority, (queues level).length := by
    refine Finset.sum_congr rfl fun _ ne => ?_
    rw [Function.update_of_ne (Finset.ne_of_mem_erase ne)]
  omega

namespace ReadyCounted

variable {kernel : Kernel}

theorem linkReady (counted : kernel.ReadyCounted) {id : ThreadId} (atTail : Bool)
    (valid : priority < threadPriorityLevelCount) :
    (kernel.linkReady id priority atTail).ReadyCounted := by
  have total := readyTotal_update kernel.readyQueues valid
    (if atTail then kernel.readyQueues priority ++ [id] else id :: kernel.readyQueues priority)
  have length : (if atTail then kernel.readyQueues priority ++ [id]
      else id :: kernel.readyQueues priority).length =
      (kernel.readyQueues priority).length + 1 := by
    cases atTail <;> simp
  change kernel.readyCount + 1 = readyTotal _
  rw [counted]
  rw [readyQueues_linkReady]
  omega

theorem unlinkReady (counted : kernel.ReadyCounted) {id : ThreadId}
    (valid : priority < threadPriorityLevelCount) (mem : id ∈ kernel.readyQueues priority) :
    (kernel.unlinkReady id priority).ReadyCounted := by
  have total := readyTotal_update kernel.readyQueues valid ((kernel.readyQueues priority).erase id)
  have length := List.length_erase_add_one mem
  change kernel.readyCount - 1 = readyTotal _
  rw [counted]
  rw [readyQueues_unlinkReady]
  omega

theorem readyQueueRemove
    (counted : kernel.ReadyCounted) (agree : kernel.QueuesAgree) (id : ThreadId) :
    (kernel.readyQueueRemove id).ReadyCounted := by
  rcases readyQueueRemove_cases kernel id with ⟨same, -⟩ | ⟨thread, found, queued, valid, removal⟩
  · rw [same]
    exact counted
  · rw [removal]
    exact counted.unlinkReady valid (agree.flagged id thread found queued).2.2.1

variable {before after : List Frame × Kernel}

theorem of_coreMove (counted : before.2.ReadyCounted) (agree : before.2.QueuesAgree)
    (move : CoreMove before after) : after.2.ReadyCounted := by
  cases move with
  | link _ _ _ _ atTail _ _ _ _ valid => exact counted.linkReady atTail valid
  | unlink _ _ id thread found queued valid =>
    exact counted.unlinkReady valid (agree.flagged id thread found queued).2.2.1
  | announce =>
    rw [requestReschedule_eq]
    exact counted
  | _ => exact counted

theorem of_coreRun (counted : before.2.ReadyCounted) (agree : before.2.QueuesAgree)
    (run : CoreRun before after) : after.2.ReadyCounted := by
  suffices together : after.2.ReadyCounted ∧ after.2.QueuesAgree from together.1
  induction run with
  | refl => exact ⟨counted, agree⟩
  | tail _ move ih => exact ⟨ih.1.of_coreMove ih.2 move, ih.2.of_coreMove move⟩

theorem of_move {scope : Scope} {before after : Stage × Kernel}
    (counted : before.2.ReadyCounted) (agree : before.2.QueuesAgree)
    (move : KernelMove scope before after) : after.2.ReadyCounted := by
  cases move with
  | core _ _ _ run => exact counted.of_coreRun agree run
  | relink _ _ _ _ _ _ _ _ valid => exact counted.linkReady true valid
  | push _ _ _ _ atTail _ _ _ _ valid => exact counted.linkReady atTail valid
  | pop _ _ _ id => exact counted.readyQueueRemove agree id
  | bind =>
    rw [startRunning_eq]
    exact counted
  | switchIn =>
    rw [switchIn_eq]
    exact counted
  | _ => exact counted

end ReadyCounted

/-! ## The sleep queue through an operation -/

section

variable {scope : Scope} {before after : Stage × Kernel}

/-- Every move keeps the sleep queue sorted. -/
theorem KernelMove.sleepOrdered (move : KernelMove scope before after)
    (sound : RolesSound scope before) : after.2.SleepOrdered := by
  have ordered := sound.sleep
  cases move with
  | core _ _ _ run => exact run.sleepOrdered ordered
  | createThread =>
    exact ordered.of_kept (.refl _) rfl fun id _ thread found =>
      ⟨thread, Registry.lookup_older found, rfl, rfl⟩
  | quantum | priority | lower | resumed | relink | push =>
    refine ordered.of_write (.modify rfl) (.refl _) rfl ?_
    exact fun _ _ _ => ⟨rfl, rfl⟩
  | requeue _ _ _ _ _ _ _ found running =>
    refine ordered.of_write (.modify rfl) (.refl _) rfl fun mem => ?_
    have waiting := ordered.waiting_of_mem mem found
    cases running.symm.trans waiting
  | park _ _ _ _ _ _ _ _ _ _ found running =>
    refine ordered.of_write (.modify rfl) (.refl _) rfl fun mem => ?_
    have waiting := ordered.waiting_of_mem mem found
    cases running.symm.trans waiting
  | sleep _ _ _ _ _ _ notIdle found waiting => exact ordered.insertSorted notIdle found waiting
  | retire _ _ _ _ current _ found =>
    refine ordered.of_write (.modify rfl) (.refl _) rfl fun mem => ?_
    exact absurd mem (sound.runs_awake (.inl ⟨current, rfl⟩) found)
  | pop =>
    rw [readyQueueRemove_eq]
    refine ordered.of_write (thread_readyQueueRemove _ _ ·) (.refl _) rfl ?_
    exact fun _ _ _ => ⟨rfl, rfl⟩
  | selfSwitch _ _ id _ fit =>
    refine ordered.of_write (.modify rfl) (.refl _) rfl ?_
    intro mem thread found
    have waiting := ordered.waiting_of_mem mem found
    rcases fit thread found with (⟨isReady, -⟩ | isIdle) | ⟨-, runnable⟩
    · cases waiting.symm.trans isReady
    · exact absurd isIdle (ordered.asleep id mem).1
    · simp [threadIsRunnable, waiting] at runnable
  | bind _ _ id _ _ found _ fit =>
    rw [startRunning_eq]
    refine ordered.of_write (.modify rfl) (.refl _) rfl fun mem => ?_
    have waiting := ordered.waiting_of_mem mem found
    rcases fit with ⟨isReady, -⟩ | isIdle
    · cases waiting.symm.trans isReady
    · exact absurd isIdle (ordered.asleep id mem).1
  | switchIn kernel continuation id _ notCurrent =>
    have queue : (kernel.switchIn id continuation).sleepQueue = kernel.sleepQueue := by
      rw [switchIn_eq]
    refine ordered.of_kept (queue ▸ .refl _) (idleThread_switchIn _ _ _) ?_
    intro other _ thread found
    have written := thread_switchIn_map notCurrent continuation other
    rw [found, Option.map_some] at written
    refine ⟨_, written, ?_⟩
    split
    · exact ⟨rfl, rfl⟩
    · split <;> exact ⟨rfl, rfl⟩
  | finishWait _ _ _ _ resumed current =>
    refine ordered.of_write (.modify rfl) (.refl _) rfl ?_
    intro mem _ found
    refine absurd mem (sound.runs_awake (.inl ⟨current, ?_⟩) found)
    rcases resumed with rfl | ⟨_, rfl⟩ <;> rfl
  | _ => exact ordered.of_threads rfl rfl rfl

/-- What the queues rest on between the moves of an operation. -/
structure QueuesSound (scope : Scope) (state : Stage × Kernel) : Prop extends
    RolesSound scope state where
  agree : state.2.QueuesAgree
  counted : state.2.ReadyCounted

theorem KernelMove.queuesSound (move : KernelMove scope before after)
    (sound : QueuesSound scope before) : QueuesSound scope after where
  kept := move.rolesKept sound.toRolesSound
  live := move.namedLive sound.live
  retired := move.retiredTerminated sound.retired
  sleep := move.sleepOrdered sound.toRolesSound
  requests _ requested subscription :=
    move.requests_kept sound.toRolesSound requested subscription
  waitless := sound.waitless
  agree := sound.agree.of_move move
  counted := sound.counted.of_move sound.agree move

end

/-! ## Runs with `Scheduler::forget` -/

/-- An operation, or a call of `Scheduler::forget`. -/
inductive SchedulerOp
  | call (op : Op)
  | forget (id : ThreadId)

/-- Whether a call can start; a caller that has forgotten itself goes on without a
current thread. -/
def callable (kernel : Kernel) : SchedulerOp → Bool
  | .call op => kernel.startable op || kernel.currentThread.isNone
  | .forget _ => kernel.executing || kernel.currentThread.isNone

/-- Run one call that can start, with a depth of publications and outcomes of the heap. -/
def perform (kernel : Kernel) : SchedulerOp × ℕ × List Bool → Option Kernel
  | (op, depth, outcomes) =>
    if kernel.callable op then
      match op with
      | .call op =>
        (({ kernel with heapOutcomes := outcomes } : Kernel).exec (env depth) op).map Prod.snd
      | .forget id => some (kernel.forget id)
    else none

/-- The states reached by calls that all met a condition on the state before them. -/
abbrev SchedulerReachable (condition : Kernel → SchedulerOp → Prop) : Kernel → Prop :=
  Runs.Reachable Booted perform fun kernel call => condition kernel call.1

variable {kernel : Kernel}

/-- `Scheduler::enqueue` is not called for the registered waiter of a subscription,
nor `Scheduler::forget` for the current thread. -/
def LeavesWaiters (kernel : Kernel) : SchedulerOp → Prop
  | .call (.enqueue id) => ∀ subscription, ¬ kernel.IsWaiter subscription id
  | .call _ => True
  | .forget id => kernel.currentThread ≠ some id

/-- A scope in which nothing is asked for. -/
def idleScope : Scope where
  suspend _ := False
  mark := False
  spawn := False
  dispatch := False
  caller _ := False
  park := False
  request _ := False
  publish := False
  prioritise _ _ := False
  subscribe _ _ := False
  unsubscribe _ _ := False
  wait _ _ := False
  destroy _ := False

/-- What the queues satisfy between operations. -/
abbrev QueuesOrderly (kernel : Kernel) : Prop := QueuesSound idleScope (.running, kernel)

theorem QueuesSound.rescope {scope other : Scope} {state : Stage × Kernel}
    (sound : QueuesSound scope state)
    (requests : ∀ id, other.request id → ∀ subscription, ¬ state.2.IsWaiter subscription id)
    (waitless : ∀ id, other.request id → ∀ owner subscription, ¬ other.wait owner subscription) :
    QueuesSound other state :=
  { sound with requests := requests, waitless := waitless }

theorem queuesOrderly_booted (processName threadName : Text) (pageTableRoot : ℕ) :
    (booted processName threadName pageTableRoot).QueuesOrderly where
  kept := by
    refine ⟨?_, nofun, ?_, by simp⟩
    · intro id _ runs found
      have isBoot : id = 1 := by
        rcases runs with ⟨current, -⟩ | isTarget
        · exact (Option.some.inj current).symm
        · cases isTarget
      subst isBoot
      cases found
      rfl
    · rintro _ _ ⟨_, found, -⟩
      cases found
  live := namedLive_booted _ _ _
  retired := nofun
  sleep := ⟨nofun, .nil, .nil⟩
  requests := nofun
  waitless := nofun
  agree := .booting _ _ _
  counted := by simp [ReadyCounted, readyTotal, booted]

variable {id : ThreadId}

/-- The last writes of `Scheduler::forget`. -/
theorem QueuesSound.clearWait (orderly : kernel.QueuesOrderly) (awake : id ∉ kernel.sleepQueue) :
    (kernel.modifyThread id fun thread =>
      { thread with waitStatus := .none, wakeTick := 0 }).QueuesOrderly := by
  have kept := orderly.kept
  constructor
  · constructor
    · refine ⟨?_, nofun, ?_, by simp⟩
      · intro other written runs found
        exact kept.running_of_write found (.modify rfl) (fun _ => rfl) runs
      · intro subscription waiter waits
        have earlier : kernel.IsWaiter subscription waiter := waits
        refine ⟨(kept.waiters subscription waiter earlier).1, fun written found => ?_⟩
        refine kept.waitsFor_of_write earlier found (.modify rfl) ?_ rfl
          ⟨rfl, rfl, fun _ here => here, fun _ left => left⟩
        exact fun _ _ _ => ⟨rfl, rfl, .inr rfl⟩
    · intro other named
      obtain ⟨assigned, alive⟩ := orderly.live other named
      refine ⟨assigned, fun written owner process found parent processFound => ?_⟩
      rcases written_cases (thread_modifyThread ..) found with
        ⟨-, old, oldFound, rfl⟩ | ⟨-, found⟩
      · exact alive old owner process oldFound parent processFound
      · exact alive written owner process found parent processFound
    · intro other listed
      obtain ⟨notIdle, assigned, terminated⟩ := orderly.retired other listed
      refine ⟨notIdle, assigned, fun written found => ?_⟩
      rcases written_cases (thread_modifyThread ..) found with
        ⟨-, old, oldFound, rfl⟩ | ⟨-, found⟩
      · exact terminated old oldFound
      · exact terminated written found
    · exact orderly.sleep.of_write (.modify rfl) (.refl _) rfl fun mem => absurd mem awake
    · exact orderly.requests
    · exact orderly.waitless
  · exact orderly.agree.of_write fun _ => ⟨rfl, rfl, rfl⟩
  · exact orderly.counted

/-- `Scheduler::forget` on a thread other than the current one. -/
theorem QueuesSound.forget (orderly : kernel.QueuesOrderly) (operational : kernel.Operational)
    (notCurrent : kernel.currentThread ≠ some id) :
    (kernel.forget id).Operational ∧ (kernel.forget id).QueuesOrderly := by
  have removed : CoreRun ([], kernel) ([], (kernel.readyQueueRemove id).sleepQueueRemove id) :=
    (kernel.readyQueueRemove_run id fun _ _ => .inl notCurrent).tail (.unsleep _ _ _)
  have unlinked := KernelMove.queuesSound (.core .running .plain (.inl rfl) removed) orderly
  obtain ⟨current, idle, tables⟩ := removed.frame.operational operational
  have stillOther : ((kernel.readyQueueRemove id).sleepQueueRemove id).currentThread ≠
      some id := by
    rw [removed.frame.currentThread]
    exact notCurrent
  unfold Kernel.forget
  simp only [stillOther, if_false]
  refine ⟨⟨current, idle, tables⟩, unlinked.clearWait ?_⟩
  have queue : (kernel.readyQueueRemove id).sleepQueue = kernel.sleepQueue := by
    rw [readyQueueRemove_eq]
  change id ∉ (kernel.readyQueueRemove id).sleepQueue.erase id
  rw [queue]
  exact orderly.sleep.removed_not_mem id

/-- The scope of a call that leaves registered waiters alone. -/
theorem QueuesSound.begin {op : Op} (orderly : kernel.QueuesOrderly)
    (leaves : kernel.LeavesWaiters (.call op)) :
    QueuesSound (kernel.scopeOf op) (.running, kernel) := by
  refine orderly.rescope ?_ ?_
  · intro id requested
    obtain rfl : op = .enqueue id := requested
    exact leaves
  · intro id requested _ _ waits
    obtain rfl : op = .enqueue id := requested
    cases waits

theorem SchedulerReachable.queuesOrderly (reachable : SchedulerReachable LeavesWaiters kernel) :
    kernel.Operational ∧ kernel.QueuesOrderly := by
  induction reachable with
  | start isBooted =>
    obtain ⟨_, _, _, table⟩ := isBooted
    exact ⟨operational_booted _ _ table, queuesOrderly_booted _ _ _⟩
  | @step kernel after _ call meets result ih =>
    obtain ⟨operational, orderly⟩ := ih
    obtain ⟨op, depth, outcomes⟩ := call
    obtain ⟨starts, result⟩ := Option.ite_none_right_eq_some.mp result
    cases op with
    | call op =>
      have startable : kernel.startable op = true := by
        simpa [callable, Option.isSome_iff_ne_none.mp operational.current] using starts
      obtain ⟨⟨transfer, middle⟩, call, rfl⟩ := Option.map_eq_some_iff.mp result
      have stepped : kernel.Step op transfer middle := ⟨startable, depth, outcomes, call⟩
      obtain ⟨afterOperational, sound⟩ := stepped.carries
        (fun move _ sound => move.queuesSound sound) operational (orderly.begin meets)
      exact ⟨afterOperational, sound.rescope nofun nofun⟩
    | forget id =>
      obtain rfl : kernel.forget id = after := Option.some.inj result
      exact orderly.forget operational meets

/-- Ready queues, bitmap, counter and sleep queue are consistent. -/
structure QueuesConsistent (kernel : Kernel) : Prop where
  /-- A thread with the queue flag is ready and linked once, at its priority. -/
  flagged : ∀ id thread, kernel.thread id = some thread → thread.inReadyQueue = true →
    thread.currentState = .ready ∧ ∀ priority, (kernel.readyQueues priority).count id =
      if priority = thread.currentPriority then 1 else 0
  /-- Every linked thread is registered and has the queue flag. -/
  linked : ∀ priority, ∀ id ∈ kernel.readyQueues priority, ∃ thread,
    kernel.thread id = some thread ∧ thread.inReadyQueue = true
  bitmap : ∀ priority, kernel.readyBitmap.getLsbD priority = true ↔ kernel.readyQueues priority ≠ []
  count : kernel.readyCount =
    ∑ priority ∈ Finset.range threadPriorityLevelCount, (kernel.readyQueues priority).length
  sorted : kernel.sleepQueue.Pairwise fun left right =>
    kernel.wakeTickOf left ≤ kernel.wakeTickOf right
  waiting : ∀ id ∈ kernel.sleepQueue, ∃ thread, kernel.thread id = some thread ∧
    thread.currentState = .waiting
  apart : ∀ id ∈ kernel.sleepQueue, ∀ priority, id ∉ kernel.readyQueues priority
  spared : ∀ priority, ∀ id ∈ kernel.readyQueues priority,
    kernel.currentThread ≠ some id ∧ kernel.idleThread ≠ some id

theorem QueuesSound.consistent (orderly : kernel.QueuesOrderly) : kernel.QueuesConsistent := by
  have agree : kernel.QueuesAgree := orderly.agree
  have linkedReady : ∀ priority, ∀ id ∈ kernel.readyQueues priority, ∃ thread,
      kernel.thread id = some thread ∧ thread.currentState = .ready ∧
        kernel.idleThread ≠ some id := by
    intro priority id mem
    obtain ⟨thread, found, flag, -⟩ := agree.queued priority id mem
    obtain ⟨isReady, -, -, notIdle⟩ := agree.flagged id thread found flag
    exact ⟨thread, found, isReady, notIdle⟩
  refine ⟨?_, ?_, agree.bitmap, orderly.counted, orderly.sleep.sorted, ?_, ?_, ?_⟩
  · intro id thread found flag
    obtain ⟨isReady, -, mem, -⟩ := agree.flagged id thread found flag
    refine ⟨isReady, fun priority => ?_⟩
    split
    · rename_i same
      subst same
      exact List.count_eq_one_of_mem (agree.nodup _) mem
    · rename_i ne
      refine List.count_eq_zero_of_not_mem fun elsewhere => ne ?_
      obtain ⟨_, linkedFound, -, isPriority⟩ := agree.queued priority id elsewhere
      cases found.symm.trans linkedFound
      exact isPriority.symm
  · intro priority id mem
    obtain ⟨thread, found, flag, -⟩ := agree.queued priority id mem
    exact ⟨thread, found, flag⟩
  · exact fun id mem => (orderly.sleep.asleep id mem).2
  · intro id asleep priority mem
    obtain ⟨thread, found, isReady, -⟩ := linkedReady priority id mem
    have waiting := orderly.sleep.waiting_of_mem asleep found
    cases isReady.symm.trans waiting
  · intro priority id mem
    obtain ⟨thread, found, isReady, notIdle⟩ := linkedReady priority id mem
    refine ⟨fun current => ?_, notIdle⟩
    have running := orderly.kept.running id thread (.inl ⟨current, rfl⟩) found
    cases isReady.symm.trans running

/-- In every run whose calls leave registered waiters and the current thread alone,
the scheduler's queues are consistent. -/
theorem queuesConsistent_of_leavesWaiters (reachable : SchedulerReachable LeavesWaiters kernel) :
    kernel.QueuesConsistent :=
  reachable.queuesOrderly.2.consistent

/-- A thread that is already queued is enqueued again when the caller has forgotten
itself. -/
def forgottenCallerRun : List SchedulerOp :=
  [.call (.createThread 1 [] 1 16 1 false), .call (.enqueue 3), .forget 1, .call (.enqueue 3)]

/-- Whether a call is an operation. -/
def SchedulerOp.isCall : SchedulerOp → Bool
  | .call _ => true
  | .forget _ => false

/-- A thread waits for events about itself. -/
def selfWaiterRun : List SchedulerOp :=
  [.call (.subscribe 1 ⟨1, 0, EventFamily.thread, 0, 1, [], []⟩), .call (.eventWait 1 1),
    .call .resume]

/-- The first run leaves the current thread on a ready queue; so does the second when the waiter
is enqueued while no memory is left for the record of that, and is dispatched. -/
theorem currentThread_queued :
    (∃ (kernel : Kernel), SchedulerReachable (fun _ _ => True) kernel ∧
      kernel.currentThread = some 3 ∧ 3 ∈ kernel.readyQueues 16) ∧
    ∃ (kernel : Kernel), SchedulerReachable (fun _ op => ∃ call, op = .call call) kernel ∧
      kernel.currentThread = some 1 ∧ 1 ∈ kernel.readyQueues 16 := by
  have forgotten : Runs.performAll (Runs.checked (fun _ _ => true) perform) (booted [] [] 4096)
      (forgottenCallerRun.map (·, 6, [])) = some _ := rfl
  have waited : Runs.performAll (Runs.checked (fun _ call => call.1.isCall) perform)
      (booted [] [] 4096) (selfWaiterRun.map (·, 6, []) ++
        [(.call (.enqueue 1), 6, [false]), (.call (.poll 0), 6, [])]) = some _ := rfl
  refine ⟨⟨_, reachable_of_calls (fun _ _ _ => trivial) forgotten, rfl, .head _⟩,
    _, reachable_of_calls ?_ waited, rfl, .head _⟩
  rintro _ ⟨op, _⟩ isCall
  cases op with
  | call op => exact ⟨op, rfl⟩
  | forget => cases isCall

/-- No subscription has a waiter when a thread is enqueued, and only other threads are
forgotten. -/
def leavesWaiters (kernel : Kernel) : SchedulerOp → Bool
  | .call (.enqueue _) => kernel.nobodyWaits
  | .call _ => true
  | .forget id => kernel.currentThread ≠ some id

theorem leavesWaiters_sound {op : SchedulerOp} (leaves : kernel.leavesWaiters op = true) :
    kernel.LeavesWaiters op := by
  cases op with
  | forget id => exact of_decide_eq_true (p := kernel.currentThread ≠ some id) leaves
  | call op =>
    cases op with
    | enqueue => exact fun _ => not_isWaiter_of_nobodyWaits leaves
    | _ => trivial

/-- A run with two ready threads of different priority, a sleeper and a forgotten
thread. -/
def busyRun : List SchedulerOp :=
  [.call (.createThread 1 [] 1 16 1 false), .call (.createThread 1 [] 1 20 1 false),
    .call (.createThread 1 [] 1 20 1 false), .call (.enqueue 3), .call (.enqueue 4),
    .call (.enqueue 5), .forget 5, .call (.sleepCurrent 4), .call .resume]

/-- The queues of that run are consistent: one thread is ready, one sleeps. -/
theorem queuesConsistent_busyRun :
    ∃ kernel : Kernel, SchedulerReachable LeavesWaiters kernel ∧ kernel.readyQueues 20 = [4] ∧
      kernel.sleepQueue = [1] ∧ kernel.QueuesConsistent := by
  have ran : Runs.performAll (Runs.checked (fun kernel call => kernel.leavesWaiters call.1) perform)
      (booted [] [] 4096) (busyRun.map (·, 6, [])) = some _ := rfl
  have reachable : SchedulerReachable LeavesWaiters _ :=
    reachable_of_calls (fun _ _ => leavesWaiters_sound) ran
  exact ⟨_, reachable, rfl, rfl, queuesConsistent_of_leavesWaiters reachable⟩

end RosKernel.Kernel
