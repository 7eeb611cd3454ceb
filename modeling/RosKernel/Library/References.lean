import Mathlib.Data.PNat.Basic
import RosKernel.Library.Registry

/-!
# Reference counts

Members of a registry that count the references held on them and leave with the last one. A
member that is not linked has no references, so the counts of a registry are a function on
identifiers, and taking or dropping a reference adds or removes a unit of it.
-/

/-- A value with the references held on it. -/
structure Counted (α : Type) where
  value : α
  references : ℕ+

/-- A new member has one reference. -/
abbrev Counted.once {α : Type} (value : α) : Counted α := ⟨value, 1⟩

namespace Registry

variable {α : Type} (registry : Registry (Counted α)) (id : ℕ)

/-- Rewrite a member, not its count. -/
def update (change : α → α) : Registry (Counted α) :=
  registry.modify id fun member => { member with value := change member.value }

/-- Take a reference. -/
def take : Registry (Counted α) :=
  registry.modify id fun member => { member with references := member.references + 1 }

/-- Drop a reference. -/
def drop : Registry (Counted α) :=
  match registry.lookup id with
  | none => registry
  | some member =>
    if member.references = 1 then registry.remove id
    else registry.modify id fun member => { member with references := member.references - 1 }

/-- The references on a member. -/
def references : ℕ := (registry.lookup id).elim 0 fun member => member.references

theorem references_insert (value : α) :
    (registry.insert (.once value)).references =
      registry.references + Pi.single registry.nextId 1 := by
  funext other
  by_cases same : other = registry.nextId
  · simp [references, lookup_insert, same]
  · simp [references, lookup_insert, same]

@[simp]
theorem references_update (change : α → α) :
    (registry.update id change).references = registry.references := by
  funext other
  simp only [references, update, lookup_modify]
  split
  · cases registry.lookup other <;> rfl
  · rfl

variable {registry id} {member : Counted α} (found : registry.lookup id = some member)
include found

theorem references_take : (registry.take id).references = registry.references + Pi.single id 1 := by
  funext other
  by_cases same : other = id
  · simp [references, take, lookup_modify, same, found]
  · simp [references, take, lookup_modify, same]

theorem references_drop : (registry.drop id).references + Pi.single id 1 = registry.references := by
  funext other
  simp only [drop, found]
  by_cases last : member.references = 1
  · by_cases same : other = id
    · simp [references, last, lookup_remove, same, found]
    · simp [references, last, lookup_remove, same]
  · have several : 1 < member.references := lt_of_le_of_ne one_le (Ne.symm last)
    by_cases same : other = id
    · simp [references, last, lookup_modify, same, found, PNat.sub_coe, several]
      exact Nat.sub_add_cancel member.references.pos
    · simp [references, last, lookup_modify, same]

omit found in
theorem references_drop_of_eq {counts : ℕ → ℕ}
    (taken : registry.references = counts + Pi.single id 1) :
    (registry.drop id).references = counts := by
  cases found : registry.lookup id with
  | none =>
    have none := congrFun taken id
    simp [references, found] at none
  | some => exact add_right_cancel ((references_drop found).trans taken)

end Registry
