import Mathlib.Data.List.Nodup

/-!
# Registries

An intrusive kernel list whose members receive increasing identifiers when they
are linked at the tail. A registry keeps the members in link order under their
identifiers. The bound and the distinctness of the identifiers are fields, so a
freshly allocated identifier never resolves before its insertion.
-/

universe u

/-- Members in link order, each under the identifier it was linked with. -/
@[ext] structure Registry (α : Type u) where
  /-- Linked members, head first. -/
  entries : List (ℕ × α)
  nextId : ℕ
  bounded : ∀ entry ∈ entries, entry.1 < nextId
  distinct : (entries.map Prod.fst).Nodup

namespace Registry

open List

variable {α β : Type u}

/-- The empty registry, whose first member will receive `first`. -/
def empty (first : ℕ) : Registry α where
  entries := []
  nextId := first
  bounded := by simp
  distinct := by simp

/-- Identifiers in link order. -/
def ids (registry : Registry α) : List ℕ :=
  registry.entries.map Prod.fst

/-- The member an identifier resolves to. -/
def lookup (registry : Registry α) (id : ℕ) : Option α :=
  registry.entries.lookup id

/-- Rewrite every member, keeping identifiers and order. -/
def mapEntries (registry : Registry α) (update : ℕ → α → β) : Registry β where
  entries := registry.entries.map fun entry => (entry.1, update entry.1 entry.2)
  nextId := registry.nextId
  bounded := by
    intro entry member
    obtain ⟨old, oldMember, rfl⟩ := mem_map.mp member
    exact registry.bounded old oldMember
  distinct := by
    simpa [map_map, Function.comp_def] using registry.distinct

/-- Rewrite one member in place. -/
def modify (registry : Registry α) (id : ℕ) (update : α → α) : Registry α :=
  registry.mapEntries fun other value =>
    if other = id then update value else value

/-- Unlink one member. -/
def remove (registry : Registry α) (id : ℕ) : Registry α where
  entries := registry.entries.filter fun entry => entry.1 ≠ id
  nextId := registry.nextId
  bounded := by
    intro entry member
    exact registry.bounded entry (mem_of_mem_filter member)
  distinct := by
    exact registry.distinct.sublist (filter_sublist.map Prod.fst)

/-- Link a new member at the tail under the next identifier. -/
def insert (registry : Registry α) (value : α) : Registry α where
  entries := registry.entries ++ [(registry.nextId, value)]
  nextId := registry.nextId + 1
  bounded := by
    intro entry member
    rcases mem_append.mp member with old | new
    · exact Nat.lt_succ_of_lt (registry.bounded entry old)
    · rw [mem_singleton.mp new]
      exact Nat.lt_succ_self _
  distinct := by
    rw [map_append, map_singleton, nodup_append]
    refine ⟨registry.distinct, by simp, ?_⟩
    intro id oldId other newId equal
    obtain ⟨entry, member, rfl⟩ := mem_map.mp oldId
    have bound := registry.bounded entry member
    rw [equal, mem_singleton.mp newId] at bound
    exact Nat.lt_irrefl _ bound

/-- The identifier linked right after `id`. -/
def next (registry : Registry α) (id : ℕ) : Option ℕ :=
  (registry.ids.dropWhile (· ≠ id)).tail.head?

@[simp] theorem nextId_remove (registry : Registry α) (id : ℕ) :
    (registry.remove id).nextId = registry.nextId := rfl

@[simp] theorem nextId_empty (first : ℕ) : (empty first : Registry α).nextId = first := rfl

@[simp] theorem lookup_empty (first id : ℕ) : (empty first : Registry α).lookup id = none := rfl

section

variable (registry : Registry α)
include registry

@[simp] theorem nextId_insert (value : α) :
    (registry.insert value).nextId = registry.nextId + 1 := rfl

@[simp] theorem ids_mapEntries (update : ℕ → α → β) :
    (registry.mapEntries update).ids = registry.ids := by
  simp [ids, mapEntries, Function.comp_def]

@[simp] theorem ids_modify (id : ℕ) (update : α → α) :
    (registry.modify id update).ids = registry.ids :=
  ids_mapEntries _ _

@[simp] theorem lookup_mapEntries (update : ℕ → α → β) (id : ℕ) :
    (registry.mapEntries update).lookup id = (registry.lookup id).map (update id) := by
  simp only [lookup, mapEntries]
  induction registry.entries with
  | nil => rfl
  | cons entry _ ih =>
    obtain ⟨key, _⟩ := entry
    by_cases equal : id = key
    · simp [equal]
    · simp [lookup_cons, beq_false_of_ne equal, ih]

theorem lookup_modify (id other : ℕ) (update : α → α) :
    (registry.modify id update).lookup other =
      if other = id then (registry.lookup other).map update
      else registry.lookup other := by
  rw [modify, lookup_mapEntries]
  split
  · rfl
  · simp

theorem modify_modify (id : ℕ) (first second : α → α) :
    (registry.modify id first).modify id second = registry.modify id (second ∘ first) := by
  ext1
  · simp only [modify, mapEntries, map_map]
    refine map_congr_left ?_
    intro entry _
    by_cases equal : entry.1 = id
    · simp [equal]
    · simp [equal]
  · rfl

theorem lookup_remove (id other : ℕ) :
    (registry.remove id).lookup other =
      if other = id then none else registry.lookup other := by
  simp only [lookup, remove]
  induction registry.entries with
  | nil => simp
  | cons entry _ ih =>
    obtain ⟨key, _⟩ := entry
    by_cases removed : key = id
    · by_cases equal : other = id
      · simpa [filter_cons, removed, equal] using ih
      · simpa [filter_cons, removed, equal, lookup_cons, beq_false_of_ne equal] using ih
    · by_cases equal : other = key
      · simp [removed, equal]
      · simpa [removed, lookup_cons, beq_false_of_ne equal] using ih

end

variable {id : ℕ} {value : α}

theorem of_remove {registry : Registry α} {target : ℕ}
    (found : (registry.remove target).lookup id = some value) :
    registry.lookup id = some value := by
  rw [lookup_remove] at found
  split at found
  · cases found
  · exact found

section

variable (registry : Registry α)
include registry

theorem mem_of_lookup (found : registry.lookup id = some value) :
    (id, value) ∈ registry.entries := by
  obtain ⟨_, _, split, _⟩ := lookup_eq_some_iff.mp found
  rw [split]
  exact mem_append_right _ (.head _)

theorem mem_ids_of_lookup (found : registry.lookup id = some value) : id ∈ registry.ids :=
  mem_map_of_mem (registry.mem_of_lookup found)

theorem lookup_of_mem {entry : ℕ × α} (mem : entry ∈ registry.entries) :
    registry.lookup entry.1 = some entry.2 := by
  unfold lookup
  have distinct := registry.distinct
  generalize registry.entries = entries at mem distinct ⊢
  induction entries with
  | nil => simp at mem
  | cons head _ ih =>
    obtain ⟨key, _⟩ := head
    rw [map_cons, nodup_cons] at distinct
    rcases mem_cons.mp mem with rfl | tailMember
    · simp
    · have ne : entry.1 ≠ key := by
        intro equal
        exact distinct.1 (mem_map.mpr ⟨entry, tailMember, equal⟩)
      rw [lookup_cons, beq_false_of_ne ne]
      exact ih tailMember distinct.2

theorem lookup_lt_nextId (found : registry.lookup id = some value) : id < registry.nextId := by
  obtain ⟨entry, mem, rfl⟩ := mem_map.mp (registry.mem_ids_of_lookup found)
  exact registry.bounded entry mem

@[simp] theorem lookup_nextId : registry.lookup registry.nextId = none := by
  cases found : registry.lookup registry.nextId with
  | none => rfl
  | some => exact absurd (registry.lookup_lt_nextId found) (Nat.lt_irrefl _)

theorem lookup_insert (value : α) (id : ℕ) :
    (registry.insert value).lookup id =
      if id = registry.nextId then some value else registry.lookup id := by
  rw [lookup, insert, lookup_append]
  change (registry.lookup id).or ([(registry.nextId, value)].lookup id) = _
  by_cases fresh : id = registry.nextId
  · subst fresh
    simp
  · simp [fresh, lookup_cons, beq_false_of_ne fresh]

end

variable {registry : Registry α} {new : α}

theorem of_insert (found : (registry.insert new).lookup id = some value) :
    new = value ∨ registry.lookup id = some value := by
  rw [lookup_insert] at found
  split at found
  · exact .inl (Option.some.inj found)
  · exact .inr found

/-- A new member does not hide an older one. -/
theorem lookup_older (found : registry.lookup id = some value) :
    (registry.insert new).lookup id = some value := by
  rw [lookup_insert, if_neg (Nat.ne_of_lt (registry.lookup_lt_nextId found)), found]

/-- An identifier that was given out before a new member resolves as it did. -/
theorem of_insert_older (older : id < registry.nextId)
    (found : (registry.insert new).lookup id = some value) : registry.lookup id = some value := by
  rwa [lookup_insert, if_neg (Nat.ne_of_lt older)] at found

/-- The removal of a member leaves every other one. -/
theorem lookup_kept {target : ℕ} (ne : id ≠ target) (found : registry.lookup id = some value) :
    (registry.remove target).lookup id = some value := by
  rwa [lookup_remove, if_neg ne]

/-! ## Link order -/

/-- Members are linked in the order of their identifiers. -/
def Ascending (registry : Registry α) : Prop :=
  registry.ids.Pairwise (· < ·)

namespace Ascending

variable {registry : Registry α}

theorem empty (first : ℕ) : (Registry.empty first : Registry α).Ascending :=
  List.Pairwise.nil

variable (ascending : registry.Ascending)
include ascending

theorem modify (id : ℕ) (update : α → α) : (registry.modify id update).Ascending := by
  unfold Ascending
  rw [ids_modify]
  exact ascending

theorem remove (id : ℕ) : (registry.remove id).Ascending :=
  List.Pairwise.sublist (filter_sublist.map Prod.fst) ascending

theorem insert (value : α) : (registry.insert value).Ascending := by
  unfold Ascending ids Registry.insert
  rw [map_append, pairwise_append]
  refine ⟨ascending, pairwise_singleton _ _, ?_⟩
  intro _ mem _ isLast
  obtain ⟨entry, entryMember, rfl⟩ := mem_map.mp mem
  rw [mem_singleton.mp isLast]
  exact registry.bounded entry entryMember

theorem lt_next {id following : ℕ}
    (isNext : registry.next id = some following) : id < following := by
  obtain ⟨_, isCons⟩ := List.head?_eq_some_iff.mp isNext
  cases dropped : registry.ids.dropWhile (· ≠ id) with
  | nil =>
    rw [dropped] at isCons
    cases isCons
  | cons first others =>
    rw [dropped, tail_cons] at isCons
    have isFirst : first = id := by
      have stops := List.head?_dropWhile_not (· ≠ id) registry.ids
      rw [dropped] at stops
      simpa using stops
    have kept : (first :: others).Pairwise (· < ·) :=
      dropped ▸ ascending.sublist (dropWhile_sublist _)
    rw [isCons, isFirst] at kept
    exact rel_of_pairwise_cons kept (.head _)

end Ascending

end Registry
