import RosKernel.Library.Runs
import Mathlib.Data.List.Basic

/-!
# Worker threads and their request queues

The block-I/O worker (`block_io.cpp`) and the launch worker (`service_call.cpp`) take requests
from a queue and block when they find it empty. The empty test and the block are two separate
critical sections, and a wake that comes between them is lost.
-/

namespace RosKernel.WorkerQueue

open List

/-- Where the worker's loop is; it is preemptible between any two of these. -/
inductive Phase
  | popping
  /-- The queue was empty, before `Scheduler::block_current`. -/
  | foundEmpty
  | executing
  | waiting
  deriving DecidableEq

/-- A queue, its worker and its submitters. -/
structure State where
  /-- The linked requests, oldest first. -/
  queue : List ℕ
  phase : Phase
  /-- The submitters that have linked a request and have yet to enqueue the worker. -/
  wakes : ℕ
  submitted : List ℕ
  executed : List ℕ
  deriving DecidableEq

inductive Action
  /-- A submitter links a request and looks at the worker, in one critical section. -/
  | link (request : ℕ)
  /-- A submitter calls `Scheduler::enqueue` for the worker. -/
  | wake
  | pop
  /-- `Scheduler::block_current`, which parks the worker or fails. -/
  | block (parks : Bool)
  | finish

/-- One action, under a rule that says whether a submitter goes on to wake a worker that it saw
waiting or not; `none` where it cannot be taken. -/
def perform (wakesWhen : Bool → Bool) (state : State) : Action → Option State
  | .link request =>
    some { state with
      queue := state.queue ++ [request]
      submitted := state.submitted ++ [request]
      wakes := if wakesWhen (state.phase = .waiting) then state.wakes + 1 else state.wakes }
  | .wake =>
    if state.wakes = 0 then none
    else some { state with
      wakes := state.wakes - 1
      -- a worker that is ready or current is refused
      phase := if state.phase = .waiting then .popping else state.phase }
  | .pop =>
    match state.phase, state.queue with
    | .popping, [] => some { state with phase := .foundEmpty }
    | .popping, request :: rest =>
      some { state with
        queue := rest, executed := state.executed ++ [request], phase := .executing }
    | _, _ => none
  | .block parks =>
    if state.phase = .foundEmpty then
      some { state with phase := if parks then .waiting else .popping }
    else none
  | .finish => if state.phase = .executing then some { state with phase := .popping } else none

/-- `BlockIoService::submit_read` wakes a worker that it saw waiting. -/
def blockIo : State → Action → Option State :=
  perform id

/-- `service_spawn_async` always calls `Scheduler::enqueue`. -/
def asyncSpawn : State → Action → Option State :=
  perform fun _ => true

/-- A fresh worker. -/
def Initial (state : State) : Prop :=
  state = ⟨[], .popping, 0, [], []⟩

/-- The worker sleeps although there is work and nobody is about to wake it. -/
def Stranded (state : State) : Prop :=
  state.phase = .waiting ∧ state.queue ≠ [] ∧ state.wakes = 0

/-- While the worker is between an empty pop and its block, no request is linked without a wake
to follow; where every submitter wakes, none does so for a linked request. -/
def Undisturbed (wakesWhen : Bool → Bool) (state : State) : Action → Prop
  | .link _ => state.phase = .foundEmpty → wakesWhen false = true
  | .wake => wakesWhen false = true → state.phase = .foundEmpty → state.queue = []
  | _ => True

/-- Steps of the worker and pending wakes alone execute every request accepted so far. -/
def Drains (wakesWhen : Bool → Bool) (state : State) : Prop :=
  ∃ actions final, (∀ action ∈ actions, ∀ request, action ≠ .link request) ∧
    Runs.performAll (perform wakesWhen) state actions = some final ∧
    final.executed = state.submitted

/-- What every undisturbed step keeps. -/
structure Invariant (wakesWhen : Bool → Bool) (state : State) : Prop where
  awaited : state.phase = .foundEmpty ∨ state.phase = .waiting → state.queue ≠ [] → state.wakes ≠ 0
  -- where a submitter wakes only a worker it saw waiting, nothing is linked in the window
  unlinked : wakesWhen false = false → state.phase = .foundEmpty → state.queue = []
  ordered : state.submitted = state.executed ++ state.queue

section

variable {wakesWhen : Bool → Bool} {state next : State} {action : Action}

theorem Invariant.step (holds : Invariant wakesWhen state) (heard : wakesWhen true = true)
    (undisturbed : Undisturbed wakesWhen state action)
    (stepped : perform wakesWhen state action = some next) : Invariant wakesWhen next := by
  cases action with
  | link =>
    cases stepped
    refine ⟨?_, fun unheard empty => ?_, by rw [holds.ordered, append_assoc]⟩
    rotate_left
    · rw [undisturbed empty] at unheard
      cases unheard
    rintro (empty | waiting) _
    · change (if _ then _ else _) ≠ 0
      have asleep : ¬ state.phase = .waiting := by
        rw [show state.phase = .foundEmpty from empty]
        nofun
      rw [decide_eq_false asleep, if_pos (undisturbed empty)]
      exact Nat.succ_ne_zero _
    · change (if _ then _ else _) ≠ 0
      rw [decide_eq_true (show state.phase = .waiting from waiting), if_pos heard]
      exact Nat.succ_ne_zero _
  | wake =>
    rw [perform] at stepped
    split at stepped
    · cases stepped
    cases stepped
    have unlinked (empty : state.phase = .foundEmpty) : state.queue = [] := by
      cases wakes : wakesWhen false with
      | false => exact holds.unlinked wakes empty
      | true => exact undisturbed wakes empty
    refine ⟨?_, ?_, holds.ordered⟩
    · split
      · rintro (empty | waiting)
        · cases empty
        · cases waiting
      · rename_i awake
        rintro (empty | waiting) work
        · exact absurd (unlinked empty) work
        · exact absurd waiting awake
    · split
      · exact nofun
      · exact fun _ => unlinked
  | pop =>
    rw [perform] at stepped
    split at stepped
    · rename_i empty
      cases stepped
      exact ⟨fun _ work => absurd empty work, fun _ _ => empty, holds.ordered⟩
    · rename_i request rest _ queued
      cases stepped
      refine ⟨?_, nofun, ?_⟩
      · rintro (empty | waiting)
        · cases empty
        · cases waiting
      · rw [holds.ordered, queued, append_assoc, singleton_append]
    · cases stepped
  | block =>
    rw [perform] at stepped
    split at stepped
    · rename_i empty
      cases stepped
      refine ⟨fun _ => holds.awaited (.inl empty), ?_, holds.ordered⟩
      split <;> exact nofun
    · cases stepped
  | finish =>
    rw [perform] at stepped
    split at stepped
    · cases stepped
      refine ⟨?_, nofun, holds.ordered⟩
      rintro (empty | waiting)
      · cases empty
      · cases waiting
    · cases stepped

theorem invariant_of_reachable (heard : wakesWhen true = true)
    (reachable : Runs.Reachable Initial (perform wakesWhen) (Undisturbed wakesWhen) state) :
    Invariant wakesWhen state := by
  apply reachable.invariant
  · rintro state rfl
    exact ⟨fun _ work => absurd rfl work, nofun, rfl⟩
  · intro _ _ _ holds undisturbed stepped
    exact holds.step heard undisturbed stepped

theorem Invariant.not_stranded (holds : Invariant wakesWhen state) : ¬ Stranded state :=
  fun ⟨waiting, work, alone⟩ => holds.awaited (.inr waiting) work alone

theorem Drains.of_step (action : Action) (stepped : perform wakesWhen state action = some next)
    (own : ∀ request, action ≠ .link request) (same : next.submitted = state.submitted)
    (drains : Drains wakesWhen next) : Drains wakesWhen state := by
  obtain ⟨actions, final, others, ran, all⟩ := drains
  refine ⟨action :: actions, final, forall_mem_cons.mpr ⟨own, others⟩, ?_, all.trans same⟩
  exact Option.bind_eq_some_iff.mpr ⟨next, stepped, ran⟩

variable {queue submitted executed : List ℕ}

theorem drains_popping {wakes : ℕ} (ordered : submitted = executed ++ queue) :
    Drains wakesWhen ⟨queue, .popping, wakes, submitted, executed⟩ := by
  induction queue generalizing executed with
  | nil => exact ⟨[], _, nofun, rfl, by rw [ordered, append_nil]⟩
  | cons _ _ ih =>
    refine .of_step .pop rfl nofun rfl (.of_step .finish rfl nofun rfl ?_)
    apply ih
    rw [ordered, append_assoc, singleton_append]

theorem drains_waiting {wakes : ℕ}
    (ordered : submitted = executed ++ queue) (awaited : queue ≠ [] → wakes ≠ 0) :
    Drains wakesWhen ⟨queue, .waiting, wakes, submitted, executed⟩ := by
  by_cases work : queue = []
  · exact ⟨[], _, nofun, rfl, by rw [ordered, work, append_nil]⟩
  · exact .of_step .wake (if_neg (awaited work)) nofun rfl (drains_popping ordered)

theorem Invariant.drains (holds : Invariant wakesWhen state) : Drains wakesWhen state := by
  obtain ⟨queue, phase, _, submitted, executed⟩ := state
  have ordered : submitted = executed ++ queue := holds.ordered
  cases phase with
  | popping => exact drains_popping ordered
  | foundEmpty =>
    refine .of_step (.block true) rfl nofun rfl ?_
    exact drains_waiting ordered (holds.awaited (.inl rfl))
  | executing => exact .of_step .finish rfl nofun rfl (drains_popping ordered)
  | waiting => exact drains_waiting ordered (holds.awaited (.inr rfl))

/-- No run loses or reorders a request, and the submission after a lost wake serves them all. -/
theorem requests_served {condition : State → Action → Prop} (heard : wakesWhen true = true)
    (reachable : Runs.Reachable Initial (perform wakesWhen) condition state) :
    state.submitted = state.executed ++ state.queue ∧ (Stranded state → ∀ request, ∃ next,
      perform wakesWhen state (.link request) = some next ∧ Drains wakesWhen next) := by
  have ordered : state.submitted = state.executed ++ state.queue := by
    apply reachable.invariant
    · rintro _ rfl
      rfl
    · intro _ action
      cases action <;> grind [perform]
  refine ⟨ordered, fun stranded _ => ⟨_, rfl, ?_⟩⟩
  rw [stranded.1, decide_eq_true rfl, if_pos heard]
  exact drains_waiting (by rw [ordered, append_assoc]) fun _ => nofun

/-- The second request wakes the worker that slept on the first. -/
theorem requests_served_lostWake : ∃ next,
    blockIo ⟨[1], .waiting, 0, [1], []⟩ (.link 2) = some next ∧ Drains id next :=
  (requests_served rfl (@Runs.Reachable.performAll _ _ _ _ (fun _ _ => True) _ _
    [.pop, .link 1, .block true] (.start rfl) (fun _ _ _ => trivial) rfl)).2 ⟨rfl, nofun, rfl⟩ 2

end

/-! ## The block-I/O worker -/

/-- Where no request is linked between the empty pop and the block, no request is stranded. -/
theorem blockIoWorker_notStranded {state : State}
    (reachable : Runs.Reachable Initial blockIo (Undisturbed id) state) :
    ¬ Stranded state :=
  (invariant_of_reachable rfl reachable).not_stranded

/-- The worker sleeps, a request is linked and its submitter has yet to wake it. -/
theorem blockIoWorker_notStranded_pendingWake : ∃ state,
    Runs.Reachable Initial blockIo (Undisturbed id) state ∧
      state.phase = .waiting ∧ state.queue = [1] ∧ ¬ Stranded state := by
  have empty : Runs.Reachable Initial blockIo (Undisturbed id)
      ⟨[], .foundEmpty, 0, [], []⟩ :=
    .step (.start rfl) .pop trivial rfl
  have asleep := empty.step (.block true) trivial rfl
  have linked := asleep.step (.link 1) nofun rfl
  exact ⟨_, linked, rfl, rfl, blockIoWorker_notStranded linked⟩

/-- A request linked between the empty pop and the block. -/
theorem blockIoWorker_stranded : ∃ state,
    Runs.Reachable Initial blockIo (fun _ _ => True) state ∧ Stranded state := by
  refine ⟨⟨[1], .waiting, 0, [1], []⟩, ?_, rfl, nofun, rfl⟩
  have ran : Runs.performAll blockIo ⟨[], .popping, 0, [], []⟩ [.pop, .link 1, .block true] =
      some ⟨[1], .waiting, 0, [1], []⟩ := rfl
  exact Runs.Reachable.performAll (.start rfl) (fun _ _ _ => trivial) ran

/-! ## The launch worker -/

/-- Where no wake for a request falls between the empty pop and the block, the launch worker
serves every request once and in order. -/
theorem asyncSpawnWorker_serves {state : State}
    (reachable : Runs.Reachable Initial asyncSpawn (Undisturbed fun _ => true) state) :
    ¬ Stranded state ∧ state.submitted = state.executed ++ state.queue ∧
      Drains (fun _ => true) state :=
  have holds := invariant_of_reachable rfl reachable
  ⟨holds.not_stranded, holds.ordered, holds.drains⟩

/-- A request linked in the window whose submitter wakes the worker after its block. -/
theorem asyncSpawnWorker_serves_lateWake : ∃ state,
    Runs.Reachable Initial asyncSpawn (Undisturbed fun _ => true) state ∧
      state.phase = .waiting ∧ state.queue = [1] ∧
      (¬ Stranded state ∧ state.submitted = state.executed ++ state.queue ∧
        Drains (fun _ => true) state) := by
  have empty : Runs.Reachable Initial asyncSpawn (Undisturbed fun _ => true)
      ⟨[], .foundEmpty, 0, [], []⟩ :=
    .step (.start rfl) .pop trivial rfl
  have linked := empty.step (.link 1) (fun _ => rfl) rfl
  have asleep := linked.step (.block true) trivial rfl
  exact ⟨_, asleep, rfl, rfl, asyncSpawnWorker_serves asleep⟩

/-- The wake comes before the block; without a further submission nothing can happen. -/
theorem asyncSpawnWorker_stranded : ∃ state,
    Runs.Reachable Initial asyncSpawn (fun _ _ => True) state ∧ Stranded state ∧
      ∀ action, (∀ request, action ≠ .link request) → asyncSpawn state action = none := by
  refine ⟨⟨[1], .waiting, 0, [1], []⟩, ?_, ⟨rfl, nofun, rfl⟩, ?_⟩
  · have ran : Runs.performAll asyncSpawn ⟨[], .popping, 0, [], []⟩
        [.pop, .link 1, .wake, .block true] = some ⟨[1], .waiting, 0, [1], []⟩ := rfl
    exact Runs.Reachable.performAll (.start rfl) (fun _ _ _ => trivial) ran
  · intro action own
    cases action with
    | link request => exact absurd rfl (own request)
    | _ => rfl

end RosKernel.WorkerQueue
