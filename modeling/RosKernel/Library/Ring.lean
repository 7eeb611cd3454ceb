import Mathlib.Data.List.Range
import Mathlib.Data.Nat.ModEq

/-!
# Ring windows

The elements a ring buffer holds, in the order in which they are read: a number of
slots from a start slot onwards, wrapping at the end of the slots. Slots outside the
window may hold anything.
-/

universe u

namespace Ring

open List

variable {α : Type u}

/-- The elements of `count` slots from `start` onwards. -/
def window (slots : List α) (start count : ℕ) : List α :=
  (List.range count).filterMap fun offset => slots[(start + offset) % slots.length]?

theorem window_mod (slots : List α) (start count : ℕ) :
    window slots (start % slots.length) count = window slots start count := by
  unfold window
  congr 1
  funext offset
  rw [Nat.mod_add_mod]

/-- A window begins with its start slot. -/
theorem window_succ (slots : List α) (start count : ℕ) :
    window slots start (count + 1) =
      slots[start % slots.length]?.toList ++ window slots (start + 1) count := by
  unfold window
  rw [range_succ_eq_map, filterMap_cons, filterMap_map]
  have shifted : ((fun offset => slots[(start + offset) % slots.length]?) ∘ Nat.succ) =
      fun offset => slots[(start + 1 + offset) % slots.length]? := by
    funext offset
    simp only [Function.comp, Nat.succ_eq_add_one]
    congr 2
    omega
  rw [shifted, Nat.add_zero]
  cases slots[start % slots.length]? <;> rfl

/-- A window ends with its last slot. -/
theorem window_succ_last (slots : List α) (start count : ℕ) :
    window slots start (count + 1) =
      window slots start count ++ slots[(start + count) % slots.length]?.toList := by
  unfold window
  rw [range_succ, filterMap_append]
  congr 1

variable {slots : List α} {start count : ℕ}

theorem length_window (fits : count ≤ slots.length) :
    (window slots start count).length = count := by
  induction count with
  | zero => rfl
  | succ count ih =>
    have inside : (start + count) % slots.length < slots.length := Nat.mod_lt _ (by omega)
    rw [window_succ_last, length_append, ih (by omega), List.getElem?_eq_getElem inside]
    rfl

/-- Two offsets below the number of slots name different slots. -/
theorem slot_ne {length first second : ℕ} (bound : second < length) (below : first < second) :
    (start + first) % length ≠ (start + second) % length := by
  intro same
  have congruent : first ≡ second [MOD length] := Nat.ModEq.add_left_cancel' start same
  have equal := congruent.eq_of_lt_of_lt (by omega) bound
  omega

/-- Writing the slot behind a window leaves the window as it is. -/
theorem window_set (space : count < slots.length) (value : α) :
    window (slots.set ((start + count) % slots.length) value) start count =
      window slots start count := by
  unfold window
  rw [length_set]
  refine filterMap_congr fun _ mem => ?_
  have below := mem_range.mp mem
  rw [List.getElem?_set_ne]
  exact (slot_ne space below).symm

/-- Storing an element behind a window that leaves space appends it. -/
theorem window_push (space : count < slots.length) (value : α) :
    window (slots.set ((start + count) % slots.length) value) start (count + 1) =
      window slots start count ++ [value] := by
  have inside : (start + count) % slots.length < slots.length := Nat.mod_lt _ (by omega)
  rw [window_succ_last, window_set space, length_set, List.getElem?_set_self inside]
  rfl

/-- Giving up the first slot of a window drops its first element. -/
theorem window_tail (fits : count + 1 ≤ slots.length) :
    window slots (start + 1) count = (window slots start (count + 1)).tail := by
  have inside : start % slots.length < slots.length := Nat.mod_lt _ (by omega)
  rw [window_succ, List.getElem?_eq_getElem inside]
  rfl

/-- Elements laid out from the first slot are their own window. -/
theorem window_append (elements padding : List α) :
    window (elements ++ padding) 0 elements.length = elements := by
  have read : ∀ count, count ≤ elements.length →
      window (elements ++ padding) 0 count = elements.take count := by
    intro count
    induction count with
    | zero => exact fun _ => rfl
    | succ count ih =>
      intro _
      have inside : count < (elements ++ padding).length := by
        rw [length_append]
        omega
      rw [window_succ_last, ih (by omega), Nat.zero_add,
        Nat.mod_eq_of_lt inside, List.getElem?_append_left (by omega),
        List.getElem?_eq_getElem (by omega), take_add_one,
        List.getElem?_eq_getElem (by omega)]
  rw [read _ le_rfl, take_length]

end Ring
