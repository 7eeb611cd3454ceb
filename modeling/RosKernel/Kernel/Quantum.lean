import RosKernel.Kernel.Owners

/-!
# The slice of a preempted thread

`dispatch` puts a preempted thread back at the head of its queue without resetting its
quantum, but both branches of `switch_to_thread` that make a thread current reset it.
-/

namespace RosKernel

/-- The quantum `reset_quantum` gives a thread. -/
def Thread.fullQuantum (thread : Thread) : ℕ := (resetQuantum thread).quantumTicksRemaining

/-- A resumed thread goes on with the ticks it had left when it was preempted. -/
def KeepsSlice (preempted resumed : Thread) : Prop :=
  resumed.quantumTicksRemaining =
    if preempted.quantumTicksRemaining = 0 then preempted.fullQuantum
    else preempted.quantumTicksRemaining

namespace Kernel

/-- A thread, as long as it is registered, has the given quantum. -/
structure HasQuantum (kernel : Kernel) (id : ThreadId) (ticks : ℕ) : Prop where
  assigned : id < kernel.threads.nextId
  ticks : ∀ thread, kernel.thread id = some thread → thread.fullQuantum = ticks

variable {scope : Scope} {kernel after : Kernel} {id : ThreadId} {ticks : ℕ}

theorem HasQuantum.of_rewrites
    (holds : kernel.HasQuantum id ticks) {target : ThreadId} {update : Thread → Thread}
    (rewritten : Rewrites kernel after target update)
    {thread : Thread} (found : after.thread id = some thread)
    (kept : ∀ thread, (update thread).quantumTicks = thread.quantumTicks) :
    thread.fullQuantum = ticks := by
  rcases written_cases (rewritten _) found with ⟨-, old, oldFound, rfl⟩ | ⟨-, found⟩
  · rw [← holds.ticks old oldFound]
    simp only [Thread.fullQuantum, resetQuantum, kept]
  · exact holds.ticks thread found

/-- No call into the core changes a thread's quantum. -/
theorem CoreRun.hasQuantum {before after : List Frame × Kernel} (run : CoreRun before after)
    (holds : before.2.HasQuantum id ticks) : after.2.HasQuantum id ticks where
  assigned := run.nextId_threads ▸ holds.assigned
  ticks := by
    refine run.thread_closed (fun thread => thread.fullQuantum = ticks) ?_ holds.ticks
    intro _ _ write same
    cases write <;> exact same

theorem KernelMove.hasQuantum {before after : Stage × Kernel}
    (move : KernelMove scope before after) (holds : before.2.HasQuantum id ticks) :
    after.2.HasQuantum id ticks := by
  refine ⟨holds.assigned.trans_le move.nextId_threads_le, fun thread found => ?_⟩
  cases move with
  | core _ _ _ run => exact (run.hasQuantum holds).ticks thread found
  | createThread => exact holds.ticks thread (Registry.of_insert_older holds.assigned found)
  | quantum | priority | lower | finishWait | resumed | relink | push | park | retire
  | selfSwitch => exact holds.of_rewrites (.modify rfl) found fun _ => rfl
  | requeue _ _ _ _ reset =>
    exact holds.of_rewrites (.modify rfl) found fun _ => by cases reset <;> rfl
  | pop =>
    exact holds.of_rewrites (thread_readyQueueRemove _ _ ·) found fun _ => rfl
  | bind =>
    rw [startRunning_eq] at found
    exact holds.of_rewrites (.modify rfl) found fun _ => rfl
  | switchIn _ _ _ _ notCurrent =>
    obtain ⟨_, oldFound, ⟨-, rfl⟩ | ⟨-, -, rfl⟩ | ⟨-, -, rfl⟩⟩ := thread_switchIn notCurrent found
    all_goals exact (holds.ticks _ oldFound :)
  | _ => exact holds.ticks thread found

theorem KernelMoves.meanwhile {before after : Stage × Kernel}
    (moves : KernelMoves scope before after) : Meanwhile before after :=
  Relation.ReflTransGen.mono (fun _ _ move => ⟨scope, move⟩) _ _ moves

theorem Meanwhile.operational {before after : Stage × Kernel} (moves : Meanwhile before after)
    (operational : before.2.Operational) : after.2.Operational := by
  induction moves with
  | refl => exact operational
  | tail _ last ih => exact last.elim fun _ move => move.operational ih

theorem Meanwhile.hasQuantum {before after : Stage × Kernel} (moves : Meanwhile before after)
    (holds : before.2.HasQuantum id ticks) : after.2.HasQuantum id ticks := by
  induction moves with
  | refl => exact holds
  | tail _ last ih => exact last.elim fun _ move => move.hasQuantum ih

/-- A thread that `switch_to_thread` makes current has its full quantum. -/
theorem switchToThread_fullQuantum {depth : ℕ} {continuation : Continuation} {transfer : Transfer}
    (operational : kernel.Operational) (holds : kernel.HasQuantum id ticks)
    (call : kernel.switchToThread (env depth) (some id) continuation = some (transfer, after))
    {thread : Thread} (found : after.thread id = some thread) :
    thread.quantumTicksRemaining = ticks := by
  unfold switchToThread at call
  dsimp only at call
  split at call
  · cases call
    obtain ⟨old, oldFound, rfl⟩ := thread_of_modified found
    exact holds.ticks old oldFound
  rename_i notCurrent
  simp only [bind_eq_some] at call
  obtain ⟨⟨_, _⟩, binding, call⟩ := call
  obtain ⟨rfl, started, published, -, publication, rfl⟩ :=
    bindCurrentThread_cases operational binding
  cases call
  have publishing : CoreRun ([], kernel.startRunning id started) ([], published) := by
    refine publishIf_run [] ?_ (threadRecord_ofCore _ _ _ _ _) calm_nil publication
    rw [currentThread_startRunning]
    exact operational.current
  have sameCurrent : published.currentThread = kernel.currentThread :=
    publishing.frame.currentThread.trans (currentThread_startRunning _ _)
  have started : (kernel.startRunning id started).HasQuantum id ticks := by
    rw [startRunning_eq]
    exact ⟨holds.assigned, fun _ found => holds.of_rewrites (.modify rfl) found fun _ => rfl⟩
  obtain ⟨old, oldFound, ⟨-, rfl⟩ | ⟨other, -⟩ | ⟨other, -⟩⟩ :=
    @thread_switchIn id published id continuation thread (sameCurrent ▸ notCurrent)
      (by rwa [switchIn, sameCurrent])
  · exact (publishing.hasQuantum started).ticks old oldFound
  · exact absurd rfl other
  · exact absurd rfl other

/-- When `dispatch` has put a preempted thread back on its ready queue, the thread gets its
full quantum whenever it is made current again. -/
theorem preempted_keepsSlice_iff
    {condition : Kernel → Op → Prop} {start kernel requeued last after : Kernel}
    {depth laterDepth : ℕ} {left continuation : Continuation} {stage : Stage}
    {thread resumed : Thread} {transfer : Transfer} (reachable : Reachable condition start)
    (serving : Meanwhile (.running, start) (.leaving left, kernel))
    (preempted : kernel.currentThread = some id ∧ kernel.thread id = some thread)
    (requeue : kernel.requeueCurrent (env depth) false false = some requeued)
    (later : Meanwhile (.leaving left, requeued) (stage, last))
    (switch : last.switchToThread (env laterDepth) (some id) continuation = some (transfer, after))
    (found : after.thread id = some resumed) :
    KeepsSlice thread resumed ↔
      thread.quantumTicksRemaining = 0 ∨ thread.quantumTicksRemaining = thread.fullQuantum := by
  have operational := serving.operational reachable.operational
  have moves : Meanwhile (.leaving left, kernel) (stage, last) :=
    (@KernelMoves.meanwhile Permits.all.scope _ _ (requeueCurrent_moves operational left
        requeue).1).trans later
  have holds : kernel.HasQuantum id thread.fullQuantum :=
    ⟨kernel.threads.lookup_lt_nextId preempted.2, of_found preempted.2 rfl⟩
  have full : resumed.quantumTicksRemaining = thread.fullQuantum :=
    switchToThread_fullQuantum (moves.operational operational) (moves.hasQuantum holds) switch found
  rw [KeepsSlice, full]
  split
  · simp [*]
  · simp [*, eq_comm]

/-- Thread 3 has all of its ticks when a thread that outranks it is made ready. -/
def outrankedRun : List Op :=
  [.createProcess [] true 8, .createThread 2 [] 1 16 4 true, .createThread 2 [] 1 8 4 true,
    .enqueue 3, .yield, .resume, .enqueue 4]

/-- The state the run leads to. -/
def outrankedSlice : Kernel :=
  ((booted [] [] 4096).run (fun _ _ => true) 5 outrankedRun).getD (booted [] [] 4096)

/-- Thread 4 preempts thread 3 and blocks, and thread 3 is resumed with the ticks it had. -/
theorem preempted_keepsSlice_outranked : ∃ requeued last after thread resumed,
    outrankedSlice.thread 3 = some thread ∧
      outrankedSlice.requeueCurrent (env 5) false false = some requeued ∧
      Meanwhile (.leaving .dispatched, requeued) (.chosen .blockCurrent 3, last) ∧
      last.switchToThread (env 5) (some 3) .blockCurrent = some (.switched, after) ∧
      after.thread 3 = some resumed ∧ KeepsSlice thread resumed := by
  have ran : (booted [] [] 4096).run (fun _ _ => true) 5 outrankedRun = some outrankedSlice := rfl
  have reachable : Reachable (fun _ _ => True) _ := .of_run (fun _ _ _ => trivial) ran
  have serving : Meanwhile (.running, outrankedSlice) (.leaving .dispatched, outrankedSlice) :=
    .single ⟨Permits.all.scope, .leave _ _ plain_dispatched (fun _ _ => trivial)
      (by rintro _ _ ⟨⟩ ⟨⟩; rfl)⟩
  have requeue : outrankedSlice.requeueCurrent (env 5) false false = some _ := rfl
  obtain ⟨requeuing, relinquished⟩ := @requeueCurrent_moves _ _ Permits.all.scope _ _ _
    (serving.operational reachable.operational) .dispatched _ requeue
  have operational := requeuing.operational (serving.operational reachable.operational)
  have preempting := (@pickAndSwitch_moves _ (env 5) _ Permits.all.scope _ _ .dispatched false _ 5 _
    operational trivial trivial relinquished rfl rfl).1
  have resuming := ((@continues_of_run _ (fun _ _ => true) 5 [.resume] _ rfl).meanwhile
    (preempting.operational operational)).2
  have parking : Meanwhile _ _ := (preempting.meanwhile.trans resuming).tail
    ⟨Permits.all.scope, .park _ _ .blockCurrent 4 _ .message Thread.wakeTick
      (.plain _ _ ⟨nofun, nofun⟩) rfl (by decide) rfl rfl rfl trivial trivial⟩
  obtain ⟨-, _, ⟨⟩, -, picking⟩ := @pickNextThread_moves _ Permits.all.scope .blockCurrent _ _ 5
    false (parking.operational operational) (relinquished_modifyThread rfl fun _ => nofun) rfl
  have later := parking.trans picking.meanwhile
  exact ⟨_, _, _, _, _, rfl, requeue, later, rfl, rfl, (@preempted_keepsSlice_iff 3 _ _ _ _ _ _ 5 5
    _ _ _ _ _ _ reachable serving ⟨rfl, rfl⟩ requeue later rfl rfl).mpr (.inr rfl)⟩

/-- Two threads share a priority and a third one outranks them; the first has used one of
its four ticks when the third preempts it. -/
def preemptingRun : List Op :=
  [.createProcess [] true 8, .createThread 2 [] 1 16 4 true, .createThread 2 [] 1 16 4 true,
    .createThread 2 [] 1 8 4 true, .enqueue 3, .enqueue 4, .yield, .resume, .timerTick,
    .enqueue 5, .poll 0]

/-- The preempted thread has three ticks left and is resumed with four. -/
theorem preempted_slice_restored : ∃ left after preempted resumed,
    (booted [] [] 4096).run (fun _ _ => true) 5 preemptingRun = some left ∧
      left.currentThread = some 5 ∧ left.thread 3 = some preempted ∧
      preempted.inReadyQueue = true ∧
      left.run (fun _ _ => true) 5 [.resume, .blockCurrent .message] = some after ∧
      after.currentThread = some 3 ∧ after.thread 3 = some resumed ∧
      ¬ KeepsSlice preempted resumed := by
  refine ⟨_, _, _, _, rfl, rfl, rfl, rfl, rfl, rfl, rfl, ?_⟩
  exact (by decide : ¬ 4 = 3)

end Kernel

end RosKernel
