import Mathlib.Algebra.Group.Nat.Defs
import Mathlib.Data.List.Basic
import Mathlib.Data.List.TakeWhile
import RosKernel.Library.Runs

/-!
# Sleeping for a time

`service_sleep` converts milliseconds to ticks (`kernel_time.h`) and parks its caller until a tick
(`scheduler.cpp`). Both computations are made in 64 bits without a check.
-/

namespace RosKernel.SleepTimer

open List

/-- A thread in the sleep queue. -/
structure Sleeper where
  thread : ℕ
  wakeTick : UInt64
  /-- The ticks that had passed when it was parked. -/
  parkedAt : ℕ
  microseconds : ℕ
  deriving DecidableEq

structure State where
  tickCount : UInt64
  sleepQueue : List Sleeper
  /-- The ticks that have passed. -/
  elapsed : ℕ
  /-- The sleepers that ticks have made ready, and the ticks that had passed. -/
  woken : List (Sleeper × ℕ)

def millisecondsToTicksCeil (milliseconds : UInt64) : UInt64 :=
  if milliseconds = 0 then 0 else (milliseconds * 1000 + 99) / 100

def sleepQueueRemove (thread : ℕ) (queue : List Sleeper) : List Sleeper :=
  queue.filter (·.thread ≠ thread)

def sleepQueueInsertSorted (sleeper : Sleeper) (queue : List Sleeper) : List Sleeper :=
  let others := sleepQueueRemove sleeper.thread queue
  others.takeWhile (·.wakeTick ≤ sleeper.wakeTick) ++
    sleeper :: others.dropWhile (·.wakeTick ≤ sleeper.wakeTick)

/-- `Scheduler::sleep_current` and `Scheduler::block_current_for` up to their switch. -/
def State.park (state : State) (thread : ℕ) (delayTicks : UInt64) (microseconds : ℕ) : State :=
  { state with
    sleepQueue := sleepQueueInsertSorted
      ⟨thread, state.tickCount + delayTicks, state.elapsed, microseconds⟩ state.sleepQueue }

inductive Action
  | serviceSleep (thread : ℕ) (milliseconds : UInt64)
  /-- Another timed wait. -/
  | blockCurrentFor (thread : ℕ) (delayTicks : UInt64)
  /-- A sleeper is made ready or forgotten by somebody else. -/
  | remove (thread : ℕ)
  | timerTick

def perform (state : State) : Action → Option State
  | .serviceSleep thread milliseconds =>
    let targetTicks := millisecondsToTicksCeil milliseconds
    if targetTicks = 0 then some state
    else some (state.park thread targetTicks (milliseconds.toNat * 1000))
  | .blockCurrentFor thread delayTicks => some (state.park thread delayTicks 0)
  | .remove thread => some { state with sleepQueue := sleepQueueRemove thread state.sleepQueue }
  | .timerTick =>
    let now := state.tickCount + 1
    -- `wake_expired_sleepers` takes heads until one is not due
    some
      { tickCount := now
        sleepQueue := state.sleepQueue.dropWhile (·.wakeTick ≤ now)
        elapsed := state.elapsed + 1
        woken := state.woken ++
          (state.sleepQueue.takeWhile (·.wakeTick ≤ now)).map (·, state.elapsed + 1) }

/-- Nobody sleeps, and the counter has the ticks that have passed in 64 bits. -/
def Initial (state : State) : Prop :=
  state.sleepQueue = [] ∧ state.woken = [] ∧ state.tickCount.toNat = state.elapsed % 2 ^ 64

/-- No sleeper was made ready by a tick before its time. -/
def NeverEarly (state : State) : Prop :=
  ∀ entry ∈ state.woken, entry.1.microseconds ≤ (entry.2 - entry.1.parkedAt) * 100

/-- Neither computation of a sleep overflows. -/
def Fits (state : State) : Action → Prop
  | .serviceSleep _ milliseconds => milliseconds.toNat * 1000 + 99 < 2 ^ 64 ∧
      state.tickCount.toNat + (millisecondsToTicksCeil milliseconds).toNat < 2 ^ 64
  | _ => True

/-- The wake tick is the time asked for away from the tick at which the sleeper was parked. -/
def Sleeper.Sound (sleeper : Sleeper) (elapsed : ℕ) : Prop :=
  sleeper.parkedAt ≤ elapsed ∧ (sleeper.microseconds = 0 ∨
    sleeper.microseconds + sleeper.parkedAt % 2 ^ 64 * 100 ≤ sleeper.wakeTick.toNat * 100)

structure Invariant (state : State) : Prop where
  counts : state.tickCount.toNat = state.elapsed % 2 ^ 64
  sound : ∀ sleeper ∈ state.sleepQueue, sleeper.Sound state.elapsed
  neverEarly : NeverEarly state

theorem mem_sleepQueueInsertSorted {sleeper other : Sleeper} {queue : List Sleeper}
    (mem : other ∈ sleepQueueInsertSorted sleeper queue) : other = sleeper ∨ other ∈ queue := by
  rcases mem_append.mp mem with front | back
  · exact .inr (mem_of_mem_filter ((takeWhile_sublist _).mem front))
  rcases mem_cons.mp back with same | back
  · exact .inl same
  · exact .inr (mem_of_mem_filter ((dropWhile_sublist _).mem back))

theorem ticks_cover {milliseconds : UInt64} (fits : milliseconds.toNat * 1000 + 99 < 2 ^ 64) :
    milliseconds.toNat * 1000 ≤ (millisecondsToTicksCeil milliseconds).toNat * 100 := by
  unfold millisecondsToTicksCeil
  split
  · rename_i zero
    simp [zero]
  · simp only [UInt64.toNat_div, UInt64.toNat_add, UInt64.toNat_mul, UInt64.reduceToNat]
    omega

variable {state next : State}

theorem Invariant.park (holds : Invariant state) {delayTicks : UInt64} {microseconds : ℕ}
    (covers : microseconds = 0 ∨ microseconds ≤ delayTicks.toNat * 100 ∧
      state.tickCount.toNat + delayTicks.toNat < 2 ^ 64) (thread : ℕ) :
    Invariant (state.park thread delayTicks microseconds) := by
  refine ⟨holds.counts, fun sleeper mem => ?_, holds.neverEarly⟩
  rcases mem_sleepQueueInsertSorted mem with rfl | older
  · refine ⟨le_rfl, covers.imp_right fun ⟨_, _⟩ => ?_⟩
    have counts := holds.counts
    simp only [UInt64.toNat_add]
    omega
  · exact holds.sound sleeper older

theorem Invariant.timerTick (holds : Invariant state)
    (stepped : perform state .timerTick = some next) : Invariant next := by
  cases stepped
  have counts : (state.tickCount + 1).toNat = (state.elapsed + 1) % 2 ^ 64 := by
    have counts := holds.counts
    simp only [UInt64.toNat_add, UInt64.reduceToNat]
    omega
  refine ⟨counts, fun sleeper mem => ?_, fun entry mem => ?_⟩
  · have sound := holds.sound sleeper ((dropWhile_sublist _).mem mem)
    exact ⟨sound.1.trans (Nat.le_succ _), sound.2⟩
  rcases mem_append.mp mem with older | new
  · exact holds.neverEarly entry older
  obtain ⟨sleeper, expired, rfl⟩ := mem_map.mp new
  obtain ⟨_, _⟩ := holds.sound sleeper ((takeWhile_sublist _).mem expired)
  have due : sleeper.wakeTick ≤ state.tickCount + 1 := by simpa using mem_takeWhile_imp expired
  -- The counter may have wrapped since: then even more ticks have passed.
  rw [UInt64.le_iff_toNat_le, counts] at due
  dsimp only
  omega

theorem Invariant.step {action : Action} (holds : Invariant state) (fits : Fits state action)
    (stepped : perform state action = some next) : Invariant next := by
  cases action with
  | serviceSleep thread =>
    simp only [perform] at stepped
    split at stepped <;> cases stepped
    · exact holds
    · exact holds.park (.inr ⟨ticks_cover fits.1, fits.2⟩) thread
  | blockCurrentFor thread =>
    cases stepped
    exact holds.park (.inl rfl) thread
  | remove =>
    cases stepped
    exact ⟨holds.counts, fun sleeper mem => holds.sound sleeper (mem_of_mem_filter mem),
      holds.neverEarly⟩
  | timerTick => exact holds.timerTick stepped

/-- In every run in which no sleep overflows, sleeps do not end early. -/
theorem sleeps_neverEarly (state : State)
    (reachable : Runs.Reachable Initial perform Fits state) : NeverEarly state := by
  refine (reachable.invariant ?_ fun _ _ _ => Invariant.step).neverEarly
  rintro _ ⟨queue, woken, counts⟩
  exact ⟨counts, by simp [queue], by simp [NeverEarly, woken]⟩

/-- A sleep of one millisecond ends after ten ticks. -/
theorem sleeps_neverEarly_millisecond : ∃ state, Runs.Reachable Initial perform Fits state ∧
    state.woken.map Prod.snd = [10] ∧ NeverEarly state := by
  have start : Runs.Reachable Initial perform Fits ⟨0, [], 0, []⟩ := .start ⟨rfl, rfl, rfl⟩
  have fits : Fits ⟨0, [], 0, []⟩ (.serviceSleep 1 1) := ⟨by decide, by decide⟩
  have ended := @Runs.Reachable.performAll _ _ _ _ _ _ _ (.replicate 10 .timerTick)
    (start.step _ fits rfl) (by simp [Fits]) rfl
  exact ⟨_, ended, rfl, sleeps_neverEarly _ ended⟩

/-- A sleep of 2 ^ 64 / 1000 milliseconds ends after four ticks. -/
theorem sleep_endsEarly : ∃ state,
    Runs.Reachable Initial perform (fun _ _ => True) state ∧ ¬ NeverEarly state := by
  have start : Runs.Reachable Initial perform (fun _ _ => True) ⟨0, [], 0, []⟩ :=
    .start ⟨rfl, rfl, rfl⟩
  have ran : Runs.performAll perform ⟨0, [], 0, []⟩
      (.serviceSleep 1 18446744073709552 :: .replicate 4 .timerTick) = some _ := rfl
  refine ⟨_, start.performAll (fun _ _ _ => trivial) ran, ?_⟩
  unfold NeverEarly
  decide +kernel

end RosKernel.SleepTimer
