import Mathlib.Init

/-!
# Runs of a partial step function

The states that a step function reaches through actions which meet a condition, and the rule
that what every such step keeps holds in all of them.
-/

namespace Runs

variable {σ α : Type} {initial : σ → Prop} {perform : σ → α → Option σ} {condition : σ → α → Prop}

/-- The states of runs whose steps meet a condition. -/
inductive Reachable (initial : σ → Prop) (perform : σ → α → Option σ)
    (condition : σ → α → Prop) : σ → Prop
  | start {state : σ} : initial state → Reachable initial perform condition state
  | step {state next : σ} (reachable : Reachable initial perform condition state) (action : α)
      (met : condition state action) (stepped : perform state action = some next) :
      Reachable initial perform condition next

/-- A run of several actions. -/
def performAll (perform : σ → α → Option σ) (state : σ) : List α → Option σ
  | [] => some state
  | action :: rest => (perform state action).bind fun next => performAll perform next rest

/-- What holds at the start and is kept by every step holds in every state reached. -/
theorem Reachable.invariant {holds : σ → Prop} {state : σ}
    (reachable : Reachable initial perform condition state)
    (start : ∀ state, initial state → holds state)
    (step : ∀ state action next, holds state → condition state action →
      perform state action = some next → holds next) : holds state := by
  induction reachable with
  | start isInitial => exact start _ isInitial
  | step _ _ met stepped ih => exact step _ _ _ ih met stepped

/-- A run of actions that meet the condition anywhere. -/
theorem Reachable.performAll {state final : σ} {actions : List α}
    (reachable : Reachable initial perform condition state)
    (met : ∀ action ∈ actions, ∀ state, condition state action)
    (ran : performAll perform state actions = some final) :
    Reachable initial perform condition final := by
  induction actions generalizing state with
  | nil =>
    cases ran
    exact reachable
  | cons _ _ ih =>
    obtain ⟨first, others⟩ := List.forall_mem_cons.mp met
    obtain ⟨_, stepped, ran⟩ := Option.bind_eq_some_iff.mp ran
    exact ih (reachable.step _ (first state) stepped) others ran

/-- The step function without the steps that fail a check. -/
def checked (check : σ → α → Bool) (perform : σ → α → Option σ) (state : σ) (action : α) :
    Option σ :=
  if check state action then perform state action else none

/-- A run of actions that pass a check which implies the condition. -/
theorem Reachable.of_checked {check : σ → α → Bool} {state : σ}
    (met : ∀ state action, check state action = true → condition state action)
    (reachable : Reachable initial (checked check perform) (fun _ _ => True) state) :
    Reachable initial perform condition state := by
  induction reachable with
  | start isInitial => exact .start isInitial
  | step _ _ _ stepped ih =>
    obtain ⟨passed, stepped⟩ := Option.ite_none_right_eq_some.mp stepped
    exact .step ih _ (met _ _ passed) stepped

/-- What is seen of the last state of a run decides about it. -/
theorem exists_of_map {β : Type} {run : Option σ} {view : σ → β} {seen : β} {holds : σ → Prop}
    (ran : run.map view = some seen) (judged : ∀ state, view state = seen → holds state) :
    ∃ state, run = some state ∧ holds state := by
  obtain ⟨state, reached, isSeen⟩ := Option.map_eq_some_iff.mp ran
  exact ⟨state, reached, judged state isSeen⟩

end Runs
