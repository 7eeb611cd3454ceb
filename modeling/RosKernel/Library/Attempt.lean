import Mathlib.Init

/-!
# Attempts

Computations over a state that return a value, fail with an error, or run out of fuel.
A failed computation keeps the state it has reached.
-/

universe u v w

/-- A computation over states `σ` with errors `ε`; `none` stands for a run that was cut
short. -/
def Attempt (σ : Type u) (ε : Type v) (α : Type w) : Type (max u v w) :=
  σ → Option (Except ε α × σ)

namespace Attempt

variable {σ ε α β : Type u}

instance : Monad (Attempt σ ε) where
  pure value := fun state => some (.ok value, state)
  bind first next := fun state =>
    match first state with
    | some (.ok value, reached) => next value reached
    | some (.error error, reached) => some (.error error, reached)
    | none => none

/-- Fail with an error. -/
def fail (error : ε) : Attempt σ ε α :=
  fun state => some (.error error, state)

/-- Fail with an error when a condition holds. -/
def failIf (condition : Prop) [Decidable condition] (error : ε) : Attempt σ ε PUnit :=
  if condition then fail error else pure ⟨⟩

/-- Run a computation and hand its error to the caller as a value. -/
def outcome (first : Attempt σ ε α) : Attempt σ ε (Except ε α) :=
  fun state => (first state).map fun (result, reached) => (.ok result, reached)

/-- Run a computation and undo something when it fails. -/
def undoing (first : Attempt σ ε α) (undo : σ → σ) : Attempt σ ε α :=
  fun state => (first state).map fun
    | (.ok value, reached) => (.ok value, reached)
    | (.error error, reached) => (.error error, undo reached)

@[simp]
theorem run_pure (value : α) (state : σ) :
    (pure value : Attempt σ ε α) state = some (.ok value, state) :=
  rfl

@[simp]
theorem run_fail (error : ε) (state : σ) :
    (fail error : Attempt σ ε α) state = some (.error error, state) :=
  rfl

variable {first : Attempt σ ε α} {next : α → Attempt σ ε β} {state reached final : σ}
  {value : α} {result : β} {error : ε}

/-- The second part runs on what the first one returned. -/
theorem bind_ok (returned : first state = some (.ok value, reached)) :
    (first >>= next) state = next value reached := by
  change (match first state with
    | some (.ok value, reached) => next value reached
    | some (.error error, reached) => some (.error error, reached)
    | none => none) = _
  rw [returned]

/-- A sequence returns exactly when both of its parts do. -/
theorem bind_eq_ok :
    (first >>= next) state = some (.ok result, final) ↔
      ∃ value reached, first state = some (.ok value, reached) ∧
        next value reached = some (.ok result, final) := by
  constructor
  · intro returned
    change (match first state with
      | some (.ok value, reached) => next value reached
      | some (.error error, reached) => some (.error error, reached)
      | none => none) = _ at returned
    split at returned
    · rename_i value reached firstReturned
      exact ⟨value, reached, firstReturned, returned⟩
    · cases returned
    · cases returned
  · rintro ⟨_, _, firstReturned, nextReturned⟩
    rw [bind_ok firstReturned, nextReturned]

/-- A check lets the computation go on exactly when its condition fails. -/
theorem failIf_eq_ok {condition : Prop} [Decidable condition] {value : PUnit} :
    (failIf condition error : Attempt σ ε PUnit) state = some (.ok value, reached) ↔
      ¬ condition ∧ reached = state := by
  unfold failIf
  split
  · rename_i holds
    simp [holds]
  · rename_i fails
    simp [fails, eq_comm]

/-- A computation behind a check returned: the check was passed. -/
theorem failIf_bind_eq_ok {condition : Prop} [Decidable condition] {next : PUnit → Attempt σ ε β} :
    (failIf condition error >>= next) state = some (.ok result, final) ↔
      ¬ condition ∧ next ⟨⟩ state = some (.ok result, final) := by
  rw [bind_eq_ok]
  constructor
  · rintro ⟨_, _, checked, call⟩
    obtain ⟨passed, rfl⟩ := failIf_eq_ok.mp checked
    exact ⟨passed, call⟩
  · rintro ⟨passed, call⟩
    exact ⟨⟨⟩, state, failIf_eq_ok.mpr ⟨passed, rfl⟩, call⟩

theorem undoing_eq_ok {undo : σ → σ} :
    first.undoing undo state = some (.ok value, reached) ↔
      first state = some (.ok value, reached) := by
  unfold undoing
  rcases first state with _ | ⟨_ | _, _⟩ <;> simp

end Attempt
