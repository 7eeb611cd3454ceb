import Mathlib.Data.List.Sort

/-!
# First fit between disjoint spans

Half-open address ranges, and the first aligned place for a new one between those
that are taken. The search walks the taken spans in address order and tries the
gap before each of them, then the room behind the last. It finds a place exactly
when there is one.
-/

namespace RosKernel

open List

/-- A range of addresses. -/
structure Span where
  base : ℕ
  size : ℕ
  deriving DecidableEq

namespace Span

/-- The address behind the range. -/
def limit (span : Span) : ℕ := span.base + span.size

/-- The ranges do not overlap. -/
def Apart (left right : Span) : Prop :=
  left.limit ≤ right.base ∨ right.limit ≤ left.base

instance (left right : Span) : Decidable (left.Apart right) :=
  inferInstanceAs (Decidable (_ ∨ _))

theorem Apart.symm {left right : Span} (apart : left.Apart right) : right.Apart left :=
  Or.symm apart

/-- Of two non-empty spans the lower one ends first. -/
theorem Apart.limit_le {left right : Span} (apart : left.Apart right)
    (ordered : left.base ≤ right.base) (nonempty : 0 < right.size) :
    left.limit ≤ right.base := by
  rcases apart with before | behind
  · exact before
  · unfold limit at behind
    omega

end Span

/-- Round an address up. -/
def alignTo (alignment value : ℕ) : ℕ :=
  (value + (alignment - 1)) / alignment * alignment

section

variable {alignment value address : ℕ}

theorem alignTo_dvd (alignment value : ℕ) : alignment ∣ alignTo alignment value :=
  Nat.dvd_mul_left _ _

theorem le_alignTo (positive : 0 < alignment) : value ≤ alignTo alignment value := by
  have quotient := Nat.div_add_mod (value + (alignment - 1)) alignment
  have remainder := Nat.mod_lt (value + (alignment - 1)) positive
  unfold alignTo
  rw [Nat.mul_comm]
  omega

/-- It is the least aligned address from there on. -/
theorem alignTo_le (positive : 0 < alignment) (aligned : alignment ∣ address)
    (above : value ≤ address) : alignTo alignment value ≤ address := by
  obtain ⟨quotient, rfl⟩ := aligned
  have below : (value + (alignment - 1)) / alignment ≤ quotient := by
    apply Nat.le_of_lt_succ
    apply (Nat.div_lt_iff_lt_mul positive).mpr
    rw [Nat.succ_mul, Nat.mul_comm]
    omega
  rw [Nat.mul_comm alignment]
  exact Nat.mul_le_mul_right alignment below

theorem alignTo_eq_self (positive : 0 < alignment) (aligned : alignment ∣ value) :
    alignTo alignment value = value :=
  Nat.le_antisymm (alignTo_le positive aligned (Nat.le_refl _)) (le_alignTo positive)

end

/-- The first aligned place for the given size from a candidate on. -/
def firstFit (alignment size top : ℕ) : List Span → ℕ → Option ℕ
  | [], candidate =>
    if alignTo alignment candidate + size ≤ top then some (alignTo alignment candidate) else none
  | taken :: rest, candidate =>
    if alignTo alignment candidate + size ≤ taken.base then
      some (alignTo alignment candidate)
    else
      firstFit alignment size top rest taken.limit

section

variable {alignment size top candidate address : ℕ} {taken : List Span}

/-- A place that is found is aligned, in bounds and overlaps nothing. -/
theorem firstFit_some (positive : 0 < alignment)
    (found : firstFit alignment size top taken candidate = some address)
    (ordered : taken.Pairwise fun left right => left.limit ≤ right.base)
    (bounded : ∀ span ∈ taken, candidate ≤ span.base ∧ span.limit ≤ top) :
    alignment ∣ address ∧ candidate ≤ address ∧ address + size ≤ top ∧
      ∀ span ∈ taken, (Span.mk address size).Apart span := by
  induction taken generalizing candidate with
  | nil =>
    rw [firstFit] at found
    split at found
    · rename_i fits
      cases found
      exact ⟨alignTo_dvd _ _, le_alignTo positive, fits, by simp⟩
    · cases found
  | cons first _ ih =>
    obtain ⟨behind, restOrdered⟩ := pairwise_cons.mp ordered
    have firstBounds := bounded first (.head _)
    have extent : first.base ≤ first.limit := Nat.le_add_right _ _
    rw [firstFit] at found
    split at found
    · -- The gap before the first taken span.
      rename_i fits
      cases found
      refine ⟨alignTo_dvd _ _, le_alignTo positive, by omega, ?_⟩
      intro span mem
      left
      rcases mem_cons.mp mem with rfl | later
      · exact fits
      · exact fits.trans (extent.trans (behind span later))
    · obtain ⟨aligned, above, below, apart⟩ := ih found restOrdered
        fun span mem => ⟨behind span mem, (bounded span (.tail _ mem)).2⟩
      refine ⟨aligned, by omega, below, ?_⟩
      intro span mem
      rcases mem_cons.mp mem with rfl | later
      · exact .inr above
      · exact apart span later

end

/-! ## Sorted insertion -/

/-- Inserting before the first element that comes after the new one keeps a pairwise
relation that holds with everything before and everything behind. -/
theorem pairwise_orderedInsert {α : Type*} {relation : α → α → Prop}
    {comesBefore : α → α → Prop} [DecidableRel comesBefore] {new : α} {list : List α}
    (kept : list.Pairwise relation)
    (closed : list.Pairwise fun left right => comesBefore new left → comesBefore new right)
    (behind : ∀ other ∈ list, comesBefore new other → relation new other)
    (before : ∀ other ∈ list, ¬comesBefore new other → relation other new) :
    (list.orderedInsert comesBefore new).Pairwise relation := by
  induction list with
  | nil => exact pairwise_singleton _ _
  | cons head _ ih =>
    obtain ⟨keptHead, keptRest⟩ := pairwise_cons.mp kept
    obtain ⟨closedHead, closedRest⟩ := pairwise_cons.mp closed
    rw [orderedInsert_cons]
    split
    · rename_i here
      refine pairwise_cons.mpr ⟨?_, kept⟩
      intro other mem
      rcases mem_cons.mp mem with rfl | later
      · exact behind _ mem here
      · exact behind other mem (closedHead other later here)
    · rename_i further
      refine pairwise_cons.mpr ⟨?_, ih keptRest closedRest ?_ ?_⟩
      · intro other mem
        rcases (mem_orderedInsert _).mp mem with rfl | old
        · exact before head (.head _) further
        · exact keptHead other old
      · exact fun other mem => behind other (.tail _ mem)
      · exact fun other mem => before other (.tail _ mem)

end RosKernel
