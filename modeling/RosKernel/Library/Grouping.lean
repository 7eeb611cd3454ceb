import Mathlib.Algebra.BigOperators.Intervals

/-!
# Grouping a list by key

One pass over a list of keys opens a group at the first occurrence of each key and counts
the occurrences. Reading a group back as the positions `first, …, first + count - 1`
visits every position once, under its own key, exactly when equal keys are adjacent.
-/

namespace RosKernel

open List hiding beq_eq_decide getElem?_eq_some_iff

/-- A key with the position of its first occurrence and the number of occurrences. -/
structure Group (κ : Type*) where
  key : κ
  /-- Position of the first occurrence. -/
  first : ℕ
  count : ℕ
  deriving DecidableEq

namespace Group

variable {κ : Type*} [DecidableEq κ]

/-- Count one more occurrence, at the given position. -/
def add (groups : List (Group κ)) (position : ℕ) (key : κ) : List (Group κ) :=
  if key ∈ groups.map Group.key then
    groups.map fun group =>
      if group.key = key then { group with count := group.count + 1 } else group
  else
    groups ++ [⟨key, position, 1⟩]

/-- The pass over the keys from one position on. -/
def collectFrom (groups : List (Group κ)) (position : ℕ) : List κ → List (Group κ)
  | [] => groups
  | key :: rest => collectFrom (add groups position key) (position + 1) rest

/-- Group a list of keys. -/
def collect (keys : List κ) : List (Group κ) := collectFrom [] 0 keys

/-- The groups describe the keys. -/
structure Describes (groups : List (Group κ)) (keys : List κ) : Prop where
  distinct : (groups.map Group.key).Nodup
  complete : ∀ key ∈ keys, key ∈ groups.map Group.key
  occurs : ∀ group ∈ groups, group.key ∈ keys
  first : ∀ group ∈ groups, group.first = keys.idxOf group.key
  count : ∀ group ∈ groups, group.count = keys.count group.key

theorem keys_add (groups : List (Group κ)) (position : ℕ) (key : κ) :
    (add groups position key).map Group.key =
      if key ∈ groups.map Group.key then groups.map Group.key
      else groups.map Group.key ++ [key] := by
  unfold add
  split
  · rw [map_map]
    apply map_congr_left
    intro group _
    simp only [Function.comp_apply]
    split <;> rfl
  · rw [map_append]
    rfl

variable {groups : List (Group κ)} {keys : List κ}

theorem Describes.add (describes : Describes groups keys) (key : κ) :
    Describes (add groups keys.length key) (keys ++ [key]) := by
  have known : key ∈ groups.map Group.key ↔ key ∈ keys := by
    refine ⟨?_, describes.complete key⟩
    intro mem
    obtain ⟨group, groupMember, rfl⟩ := mem_map.mp mem
    exact describes.occurs group groupMember
  have counted : ∀ other, (keys ++ [key]).count other =
      keys.count other + if key = other then 1 else 0 := by
    intro other
    rw [count_append, count_singleton]
    simp
  have each : ∀ group ∈ Group.add groups keys.length key, group.key ∈ keys ++ [key] ∧
      group.first = (keys ++ [key]).idxOf group.key ∧
      group.count = (keys ++ [key]).count group.key := by
    intro group mem
    unfold Group.add at mem
    split at mem
    · obtain ⟨original, oldMem, rfl⟩ := mem_map.mp mem
      have occurs := describes.occurs original oldMem
      have first := describes.first original oldMem
      have count := describes.count original oldMem
      rw [← idxOf_append_of_mem occurs] at first
      split
      · rename_i here
        exact ⟨mem_append_left _ occurs, first, by rw [counted, if_pos here.symm, count]⟩
      · rename_i elsewhere
        refine ⟨mem_append_left _ occurs, first, ?_⟩
        rw [counted, if_neg (Ne.symm elsewhere), count, Nat.add_zero]
    · rename_i unknown
      rw [known] at unknown
      rcases mem_append.mp mem with old | new
      · have occurs := describes.occurs group old
        have ne : key ≠ group.key := fun same => unknown (same ▸ occurs)
        refine ⟨mem_append_left _ occurs, ?_, ?_⟩
        · rw [idxOf_append_of_mem occurs, describes.first group old]
        · rw [counted, if_neg ne, describes.count group old, Nat.add_zero]
      · rw [mem_singleton.mp new]
        refine ⟨by simp, ?_, ?_⟩
        · simp [idxOf_append_of_notMem unknown]
        · rw [counted, if_pos rfl, count_eq_zero_of_not_mem unknown]
  refine ⟨?_, ?_, fun group mem => (each group mem).1, fun group mem => (each group mem).2.1,
    fun group mem => (each group mem).2.2⟩
  · rw [keys_add]
    split
    · exact describes.distinct
    · rename_i unknown
      exact nodup_append.mpr ⟨describes.distinct, nodup_singleton _,
        fun other old _ new same => unknown (mem_singleton.mp new ▸ same ▸ old)⟩
  · intro other mem
    rw [keys_add]
    rcases mem_append.mp mem with old | new
    · have before := describes.complete other old
      split
      · exact before
      · exact mem_append_left _ before
    · rw [mem_singleton.mp new]
      split
      · assumption
      · simp

theorem describes_collectFrom {before : List κ}
    (describes : Describes groups before) (keys : List κ) :
    Describes (collectFrom groups before.length keys) (before ++ keys) := by
  induction keys generalizing groups before with
  | nil =>
    rw [append_nil]
    exact describes
  | cons key _ ih =>
    have next := ih (describes.add key)
    rwa [length_append, length_singleton, append_assoc,
        singleton_append] at next

theorem describes_collect (keys : List κ) : Describes (collect keys) keys := by
  have empty : Describes ([] : List (Group κ)) [] := by
    constructor <;> simp
  exact describes_collectFrom empty keys

/-! ## Reading the groups back -/

/-- The positions the groups stand for, each under the key of its group. -/
def visits (groups : List (Group κ)) : List (κ × ℕ) :=
  groups.flatMap fun group =>
    (range' group.first group.count).map fun position => (group.key, position)

/-- Equal keys are adjacent. -/
def Clustered (keys : List κ) : Prop :=
  ∀ first middle last, first < middle → middle < last → last < keys.length →
    keys[first]? = keys[last]? → keys[middle]? = keys[first]?

omit [DecidableEq κ] in
/-- Adjacency depends only on which positions have equal keys. -/
theorem clustered_congr {ι : Type*} {others : List ι} (length : keys.length = others.length)
    (same : ∀ left right, left < keys.length → right < keys.length →
      (keys[left]? = keys[right]? ↔ others[left]? = others[right]?)) :
    Clustered keys ↔ Clustered others := by
  unfold Clustered
  rw [← length]
  refine forall₃_congr fun first middle last => forall₃_congr fun lower upper bound => ?_
  rw [same first last (by omega) bound, same middle first (by omega) (by omega)]

variable {position : ℕ}

omit [DecidableEq κ] in
theorem mem_visits {key : κ} :
    (key, position) ∈ visits groups ↔ ∃ group ∈ groups, group.key = key ∧
      group.first ≤ position ∧ position < group.first + group.count := by
  simp only [visits, mem_flatMap, mem_map, mem_range'_1, Prod.mk.injEq]
  constructor
  · rintro ⟨group, mem, _, ⟨lower, upper⟩, same, rfl⟩
    exact ⟨group, mem, same, lower, upper⟩
  · rintro ⟨group, mem, same, lower, upper⟩
    exact ⟨group, mem, position, ⟨lower, upper⟩, same, rfl⟩

theorem idxOf_le_of_getElem? {key : κ}
    (here : keys[position]? = some key) : keys.idxOf key ≤ position := by
  induction keys generalizing position with
  | nil => simp at here
  | cons head _ ih =>
    cases position with
    | zero =>
      obtain rfl : head = key := by simpa using here
      simp
    | succ =>
      cases decide (head == key) <;> grind

/-- The positions of a key. -/
def positions (keys : List κ) (key : κ) : Finset ℕ :=
  (Finset.range keys.length).filter fun position => keys[position]? = some key

theorem card_positions (keys : List κ) (key : κ) : (positions keys key).card = keys.count key := by
  induction keys with
  | nil => rfl
  | cons head rest ih =>
    rw [positions, Finset.card_filter] at ih ⊢
    rw [length_cons, Finset.sum_range_succ', count_cons, ← ih]
    simp

theorem mem_positions {key : κ} : position ∈ positions keys key ↔ keys[position]? = some key := by
  rw [positions, Finset.mem_filter, Finset.mem_range, and_iff_right_iff_imp]
  exact fun here => (getElem?_eq_some_iff.mp here).1

namespace Describes

variable {groups : List (Group κ)} {keys : List κ}

variable {key : κ}

section

variable (describes : Describes groups keys)
include describes

theorem ofKey (mem : key ∈ keys) : ∃ group ∈ groups, group.key = key :=
  mem_map.mp (describes.complete key mem)

theorem nodup_visits : (visits groups).Nodup := by
  refine nodup_flatMap.mpr ⟨?_, (pairwise_map.mp describes.distinct).imp ?_⟩
  · intro group _
    exact (nodup_range' 1 zero_lt_one).map fun _ _ same => (Prod.mk.inj same).2
  · intro left right apart visit inLeft inRight
    obtain ⟨_, _, rfl⟩ := mem_map.mp inLeft
    obtain ⟨_, _, same⟩ := mem_map.mp inRight
    exact apart (Prod.mk.inj same).1.symm

theorem first_le {group : Group κ} (mem : group ∈ groups)
    (here : position ∈ positions keys group.key) : group.first ≤ position := by
  rw [describes.first group mem]
  exact idxOf_le_of_getElem? (mem_positions.mp here)

theorem first_add_count_le {group : Group κ}
    (mem : group ∈ groups) : group.first + group.count ≤ keys.length := by
  have inside : positions keys group.key ⊆ Finset.Ico group.first keys.length := fun _ here =>
    Finset.mem_Ico.mpr ⟨describes.first_le mem here,
      (getElem?_eq_some_iff.mp (mem_positions.mp here)).1⟩
  have counted := Finset.card_le_card inside
  rw [card_positions, ← describes.count group mem, Nat.card_Ico] at counted
  have started := idxOf_lt_length_of_mem (describes.occurs group mem)
  rw [← describes.first group mem] at started
  omega

end

variable {position : ℕ}

variable (describes : Describes groups keys)
include describes

theorem visited_lt (visited : (key, position) ∈ visits groups) : position < keys.length := by
  obtain ⟨_, mem, rfl, _, upper⟩ := mem_visits.mp visited
  exact lt_of_lt_of_le upper (describes.first_add_count_le mem)

/-- With adjacent keys a group visits its own key only: a foreign key inside the range would
leave too few positions before it for the group's occurrences. -/
theorem own_of_clustered (clustered : Clustered keys) (visited : (key, position) ∈ visits groups) :
    keys[position]? = some key := by
  obtain ⟨group, mem, rfl, lower, upper⟩ := mem_visits.mp visited
  have opening : keys[group.first]? = some group.key := by
    rw [describes.first group mem, getElem?_eq_getElem
      (idxOf_lt_length_of_mem (describes.occurs group mem)), getElem_idxOf]
  by_contra foreign
  have before : positions keys group.key ⊆ Finset.Ico group.first position := by
    intro place there
    refine Finset.mem_Ico.mpr ⟨describes.first_le mem there, ?_⟩
    by_contra beyond
    have found := mem_positions.mp there
    have apart : position ≠ group.first ∧ position ≠ place :=
      ⟨fun same => foreign (same ▸ opening), fun same => foreign (same ▸ found)⟩
    have between := clustered group.first position place (by omega) (by omega)
      (getElem?_eq_some_iff.mp found).1 (opening.trans found.symm)
    exact foreign (between.trans opening)
  have few := Finset.card_le_card before
  rw [card_positions, ← describes.count group mem, Nat.card_Ico] at few
  omega

section

variable (own : ∀ key position, (key, position) ∈ visits groups → keys[position]? = some key)
include own

/-- If groups visit their own keys only, each range holds all occurrences of its key. -/
theorem mem_visits_of_own (here : keys[position]? = some key) :
    (key, position) ∈ visits groups := by
  obtain ⟨group, mem, rfl⟩ := describes.ofKey (mem_of_getElem? here)
  have range : Finset.Ico group.first (group.first + group.count) ⊆
      positions keys group.key := by
    intro place there
    exact mem_positions.mpr (own _ _ (mem_visits.mpr ⟨group, mem, rfl, Finset.mem_Ico.mp there⟩))
  have all := Finset.eq_of_subset_of_card_le range (by
    rw [card_positions, ← describes.count group mem, Nat.card_Ico]
    omega)
  exact mem_visits.mpr ⟨group, mem, rfl, Finset.mem_Ico.mp (all ▸ mem_positions.mpr here)⟩

theorem clustered_of_own : Clustered keys := by
  intro _ middle last _ _ bound same
  have lastHere : keys[last]? = some keys[last] := getElem?_eq_getElem bound
  obtain ⟨group, mem, groupKey, _, _⟩ := mem_visits.mp (describes.mem_visits_of_own own lastHere)
  have firstHere := same.trans lastHere
  have begins := idxOf_le_of_getElem? firstHere
  rw [← groupKey, ← describes.first group mem] at begins
  rw [firstHere]
  exact own _ middle (mem_visits.mpr ⟨group, mem, groupKey, by omega, by omega⟩)

end

/-- The one visit of a position when equal keys are adjacent and the slots distinct. -/
theorem filter_visits {σ : Type*} [DecidableEq σ] {slot : ℕ → σ} (clustered : Clustered keys)
    (distinct : Set.InjOn slot {position | position < keys.length})
    (here : keys[position]? = some key) :
    (visits groups).filter (fun visit => slot visit.2 = slot position) = [(key, position)] := by
  have own : ∀ key position, (key, position) ∈ visits groups → keys[position]? = some key :=
    fun _ _ => describes.own_of_clustered clustered
  have visited := describes.mem_visits_of_own own here
  have only : (visits groups).filter (fun visit => slot visit.2 = slot position) =
      (visits groups).filter (· == (key, position)) := by
    apply filter_congr
    rintro ⟨other, place⟩ mem
    have same : slot place = slot position ↔ (other, place) = (key, position) := by
      constructor
      · intro sameSlot
        obtain rfl := distinct (describes.visited_lt mem) (describes.visited_lt visited) sameSlot
        have otherHere := own _ _ mem
        rw [here] at otherHere
        rw [Option.some.inj otherHere]
      · intro equal
        rw [(Prod.mk.inj equal).2]
    simp only [beq_eq_decide, same]
  rw [only, filter_beq, count_eq_one_of_mem describes.nodup_visits visited,
    replicate_one]

/-- If every position has one visit of its slot, under its own key, then equal keys are
adjacent. -/
theorem clustered_of_exact {σ : Type*} [DecidableEq σ] {slot : ℕ → σ}
    (exact : ∀ position key, keys[position]? = some key → ∃ place,
      (visits groups).filter (fun visit => slot visit.2 = slot position) = [(key, place)]) :
    Clustered keys := by
  refine describes.clustered_of_own fun key position visited => ?_
  have here := getElem?_eq_getElem (describes.visited_lt visited)
  obtain ⟨place, single⟩ := exact _ _ here
  have visit : (key, position) ∈
      (visits groups).filter fun visit => slot visit.2 = slot position :=
    mem_filter.mpr ⟨visited, decide_eq_true rfl⟩
  rw [single, mem_singleton] at visit
  exact here.trans (congrArg some (Prod.mk.inj visit).1.symm)

end Describes

end Group

end RosKernel
