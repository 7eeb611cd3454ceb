import Mathlib.Data.List.Nodup

/-!
# The process table and its destroyers

The registered processes (`process.cpp`) and every way in which a thread takes a process away:
`service_kill`, the last thread of a process, `reap_exiting` and `terminate_process_tree`. A
process that none of them is aimed at stays registered.
-/

namespace RosKernel.ProcessTable

open List

inductive ProcessState
  | created
  | running
  | exiting
  | terminated
  deriving DecidableEq

/-- A registered `Process`, by its identifier. -/
structure Entry where
  id : ℕ
  parentId : ℕ
  state : ProcessState
  threadCount : ℕ
  kernel : Bool
  permanent : Bool
  deriving DecidableEq

/-- The process list. -/
structure Table where
  entries : List Entry
  nextPid : ℕ
  /-- The processes that were taken from the list and freed, latest first. -/
  destroyed : List ℕ
  deriving DecidableEq

namespace Table

/-- `find_process`. -/
def find (table : Table) (pid : ℕ) : Option Entry :=
  table.entries.find? fun entry => entry.id = pid

/-- `create_process_with_mode` for a user process. -/
def create (table : Table) : Table :=
  { table with
    entries := table.entries ++ [⟨table.nextPid, 0, .created, 0, false, false⟩]
    nextPid := table.nextPid + 1 }

/-- Change the entry of one process. -/
def update (table : Table) (pid : ℕ) (change : Entry → Entry) : Table :=
  { table with
    entries := table.entries.map fun entry => if entry.id = pid then change entry else entry }

/-- `orphan_launched_processes` of one entry. -/
def orphan (launcher : ℕ) (entry : Entry) : Entry :=
  if entry.parentId = launcher then { entry with parentId := 0 } else entry

/-- The end of `destroy_process`: the entry leaves the list and is freed. -/
def remove (table : Table) (pid : ℕ) : Table :=
  { table with
    entries := (table.entries.filter fun entry => entry.id ≠ pid).map (orphan pid)
    destroyed := pid :: table.destroyed }

/-- `destroy_process`. A thread that cannot be torn down ends it early, with so many threads
left. -/
def destroyProcess (table : Table) (pid stuck : ℕ) : Table :=
  match table.find pid with
  | none => table
  | some entry =>
    if stuck = 0 ∨ entry.threadCount < stuck then table.remove pid
    else table.update pid fun entry => { entry with state := .terminated, threadCount := stuck }

/-- The walk of `process_is_in_tree` along the parent identifiers. -/
def walksTo (table : Table) (start root : ℕ) : ℕ → ℕ → Bool
  | 0, _ => false
  | turns + 1, cursor =>
    if cursor = 0 then false
    else if cursor = root then true
    else
      match table.find cursor with
      | none => false
      | some parent =>
        if parent.id = start then false else table.walksTo start root turns parent.parentId

/-- `process_is_in_tree`. -/
def inTree (table : Table) (entry : Entry) (root : ℕ) : Bool :=
  root ≠ 0 ∧ (entry.id = root ∨
    table.walksTo entry.id root (table.entries.length + 1) entry.parentId)

/-- `mark_process_tree_for_exit`. -/
def markTree (table : Table) (root : ℕ) : Table :=
  { table with
    entries := table.entries.map fun entry =>
      if table.inTree entry root ∧ entry.permanent = false then
        { entry with state := if entry.state = .terminated then .terminated else .exiting }
      else entry }

/-- A walk over the list that destroys the processes a test picks. -/
def sweep (picked : Table → Entry → Bool) (stuck : ℕ → ℕ) : List ℕ → Table → Table
  | [], table => table
  | pid :: rest, table =>
    match table.find pid with
    | none => sweep picked stuck rest table
    | some entry =>
      if picked table entry then sweep picked stuck rest (table.destroyProcess pid (stuck pid))
      else sweep picked stuck rest table

/-- The test of `reap_exiting`, run by a thread of some process. -/
def reaped (current : ℕ) (_ : Table) (entry : Entry) : Bool :=
  entry.id ≠ current ∧ entry.state = .exiting ∧ entry.permanent = false

/-- The test of `terminate_process_tree`. -/
def doomed (root exempt : ℕ) (table : Table) (entry : Entry) : Bool :=
  table.inTree entry root ∧ entry.id ≠ exempt ∧ entry.permanent = false

end Table

/-- What other threads do. -/
inductive Outside
  | kill (caller target stuck : ℕ)
  | exit (caller : ℕ)
  /-- A finished thread of a process is torn down (`destroy_thread`). -/
  | threadGone (pid : ℕ)
  /-- `reap_exiting` by a thread of `caller`. -/
  | reap (caller : ℕ) (stuck : ℕ → ℕ)
  /-- `terminate_process_tree`. -/
  | terminateTree (root exempt : ℕ) (stuck : ℕ → ℕ)

namespace Table

/-- One step of another thread. -/
def outside (table : Table) : Outside → Table
  | .kill caller target stuck =>
    match table.find target with
    | none => table
    | some entry =>
      if target = 0 ∨ target = caller ∨ entry.kernel ∨ entry.permanent then table
      else (table.update target fun entry =>
        { entry with state := .exiting }).destroyProcess target stuck
  | .exit caller =>
    match table.find caller with
    | none => table
    | some entry =>
      if entry.threadCount = 0 then table
      else table.update caller fun entry => { entry with state := .exiting }
  | .threadGone pid =>
    match table.find pid with
    | none => table
    | some entry =>
      if entry.threadCount = 0 then table
      else
        let reduced := table.update pid fun entry =>
          { entry with threadCount := entry.threadCount - 1 }
        if entry.threadCount = 1 ∧ entry.state ≠ .terminated ∧ entry.permanent = false then
          reduced.destroyProcess pid 0
        else reduced
  | .reap caller stuck => sweep (reaped caller) stuck (table.entries.map Entry.id) table
  | .terminateTree root exempt stuck =>
    match table.find root with
    | none => table
    | some entry =>
      if entry.permanent then table
      else sweep (doomed root exempt) stuck (table.entries.map Entry.id) (table.markTree root)

/-! ## Well-formed tables -/

/-- Identifiers are given out once, and a process is destroyed once. -/
structure WellFormed (table : Table) : Prop where
  ids_nodup : (table.entries.map Entry.id).Nodup
  ids_lt : ∀ entry ∈ table.entries, entry.id < table.nextPid
  destroyed_nodup : table.destroyed.Nodup
  destroyed_lt : ∀ pid ∈ table.destroyed, pid < table.nextPid
  apart : ∀ entry ∈ table.entries, entry.id ∉ table.destroyed

/-- Some process is registered with an entry of some kind. -/
def Holds (table : Table) (pid : ℕ) (kind : Entry → Prop) : Prop :=
  ∃ entry ∈ table.entries, entry.id = pid ∧ kind entry

variable {table : Table} {pid other : ℕ} {kind : Entry → Prop}

variable {entry : Entry}

theorem find_mem (found : table.find pid = some entry) :
    entry ∈ table.entries ∧ entry.id = pid := by
  exact ⟨mem_of_find?_eq_some found, by simpa using List.find?_some found⟩

/-- The entry that is found is the one the process has. -/
theorem WellFormed.kind_of_find (wellFormed : table.WellFormed)
    (found : table.find pid = some entry) (holds : table.Holds pid kind) : kind entry := by
  obtain ⟨mem, id⟩ := find_mem found
  obtain ⟨held, heldMem, heldId, ofKind⟩ := holds
  have same : entry = held :=
    inj_on_of_nodup_map wellFormed.ids_nodup mem heldMem (id.trans heldId.symm)
  rw [same]
  exact ofKind

theorem Holds.find (holds : table.Holds pid kind) : ∃ entry, table.find pid = some entry := by
  obtain ⟨entry, mem, id, _⟩ := holds
  apply Option.isSome_iff_exists.mp
  exact List.find?_isSome.mpr ⟨entry, mem, by simpa using id⟩

theorem map_id_update {change : Entry → Entry} (id : ∀ entry, (change entry).id = entry.id) :
    (table.update pid change).entries.map Entry.id = table.entries.map Entry.id := by
  rw [update, map_map]
  apply map_congr_left
  intro entry _
  rw [Function.comp]
  split
  · exact id entry
  · rfl

/-- Entries leave or change, but not their identifiers. -/
theorem WellFormed.of_sublist (wellFormed : table.WellFormed) {entries : List Entry}
    (kept : (entries.map Entry.id).Sublist (table.entries.map Entry.id)) :
    ({ table with entries := entries } : Table).WellFormed := by
  have old (entry : Entry) (mem : entry ∈ entries) :
      ∃ previous ∈ table.entries, previous.id = entry.id :=
    mem_map.mp (kept.subset (mem_map_of_mem mem))
  refine ⟨wellFormed.ids_nodup.sublist kept, ?_, wellFormed.destroyed_nodup,
    wellFormed.destroyed_lt, ?_⟩
  · intro entry mem
    obtain ⟨previous, oldMem, id⟩ := old entry mem
    rw [← id]
    exact wellFormed.ids_lt previous oldMem
  · intro entry mem
    obtain ⟨previous, oldMem, id⟩ := old entry mem
    rw [← id]
    exact wellFormed.apart previous oldMem

theorem WellFormed.update (wellFormed : table.WellFormed) {change : Entry → Entry}
    (id : ∀ entry, (change entry).id = entry.id) : (table.update pid change).WellFormed :=
  wellFormed.of_sublist (by rw [← map_id_update id]; exact .refl _)

@[simp]
theorem orphan_id (launcher : ℕ) (entry : Entry) : (orphan launcher entry).id = entry.id := by
  unfold orphan
  split <;> rfl

theorem WellFormed.remove (wellFormed : table.WellFormed)
    (found : table.find pid = some entry) : (table.remove pid).WellFormed := by
  obtain ⟨mem, id⟩ := find_mem found
  have ids : (table.remove pid).entries.map Entry.id =
      (table.entries.filter fun entry => entry.id ≠ pid).map Entry.id := by
    rw [Table.remove, map_map]
    apply map_congr_left
    intro entry _
    exact orphan_id pid entry
  have kept := @WellFormed.of_sublist table wellFormed (table.remove pid).entries (by
    rw [ids]
    exact filter_sublist.map Entry.id)
  refine ⟨kept.ids_nodup, kept.ids_lt, ?_, ?_, ?_⟩
  · apply nodup_cons.mpr
    refine ⟨?_, wellFormed.destroyed_nodup⟩
    rw [← id]
    exact wellFormed.apart entry mem
  · refine forall_mem_cons.mpr ⟨?_, wellFormed.destroyed_lt⟩
    rw [← id]
    exact wellFormed.ids_lt entry mem
  · intro entry mem destroyed
    rcases mem_cons.mp destroyed with this | earlier
    · obtain ⟨previous, stays, rfl⟩ := mem_map.mp mem
      rw [orphan_id] at this
      exact of_decide_eq_true (mem_filter.mp stays).2 this
    · exact kept.apart entry mem earlier

theorem WellFormed.destroyProcess (wellFormed : table.WellFormed) (pid stuck : ℕ) :
    (table.destroyProcess pid stuck).WellFormed := by
  unfold Table.destroyProcess
  split
  · exact wellFormed
  · rename_i entry found
    split
    · exact wellFormed.remove found
    · exact wellFormed.update fun _ => rfl

theorem WellFormed.create (wellFormed : table.WellFormed) : table.create.WellFormed := by
  refine ⟨?_, ?_, wellFormed.destroyed_nodup, ?_, ?_⟩
  · rw [Table.create, map_append]
    refine List.Nodup.append wellFormed.ids_nodup (nodup_singleton _) ?_
    intro pid old new
    obtain ⟨entry, mem, _⟩ := mem_map.mp old
    have less := wellFormed.ids_lt entry mem
    have fresh : pid = table.nextPid := mem_singleton.mp new
    omega
  · intro entry mem
    rcases mem_append.mp mem with old | new
    · exact Nat.lt_succ_of_lt (wellFormed.ids_lt entry old)
    · rw [mem_singleton.mp new]
      exact Nat.lt_succ_self _
  · intro pid destroyed
    exact Nat.lt_succ_of_lt (wellFormed.destroyed_lt pid destroyed)
  · intro entry mem destroyed
    rcases mem_append.mp mem with old | new
    · exact wellFormed.apart entry old destroyed
    · rw [mem_singleton.mp new] at destroyed
      exact absurd (wellFormed.destroyed_lt _ destroyed) (Nat.lt_irrefl _)

/-! ## Processes that stay -/

theorem Holds.update_of_ne (holds : table.Holds pid kind) (change : Entry → Entry)
    (ne : pid ≠ other) : (table.update other change).Holds pid kind := by
  obtain ⟨entry, mem, id, ofKind⟩ := holds
  refine ⟨entry, mem_map.mpr ⟨entry, mem, if_neg ?_⟩, id, ofKind⟩
  rw [id]
  exact ne

/-- Kinds of entries that do not mind the loss of the parent. -/
def OrphanStable (kind : Entry → Prop) : Prop :=
  ∀ entry, kind entry → kind { entry with parentId := 0 }

theorem OrphanStable.orphan (stable : OrphanStable kind) (ofKind : kind entry)
    (launcher : ℕ) : kind (orphan launcher entry) := by
  unfold Table.orphan
  split
  · exact stable entry ofKind
  · exact ofKind

theorem Holds.remove_of_ne (holds : table.Holds pid kind) (stable : OrphanStable kind)
    (ne : pid ≠ other) : (table.remove other).Holds pid kind := by
  obtain ⟨entry, mem, id, ofKind⟩ := holds
  refine ⟨Table.orphan other entry, ?_, ?_, stable.orphan ofKind other⟩
  · apply mem_map_of_mem
    apply mem_filter.mpr
    refine ⟨mem, decide_eq_true ?_⟩
    rw [id]
    exact ne
  · rw [orphan_id, id]

theorem Holds.destroyProcess_of_ne (holds : table.Holds pid kind) (stable : OrphanStable kind)
    (ne : pid ≠ other) (stuck : ℕ) : (table.destroyProcess other stuck).Holds pid kind := by
  unfold Table.destroyProcess
  split
  · exact holds
  · split
    · exact holds.remove_of_ne stable ne
    · exact holds.update_of_ne _ ne

variable {picked : Table → Entry → Bool}

/-- A sweep keeps well-formed tables. -/
theorem WellFormed.sweep {stuck : ℕ → ℕ} {pids : List ℕ}
    (wellFormed : table.WellFormed) : (sweep picked stuck pids table).WellFormed := by
  induction pids generalizing table with
  | nil => exact wellFormed
  | cons first _ ih =>
    rw [Table.sweep]
    split
    · exact ih wellFormed
    · split
      · exact ih (wellFormed.destroyProcess first (stuck first))
      · exact ih wellFormed

/-- A sweep that never picks a process keeps it. -/
theorem Holds.sweep {stuck : ℕ → ℕ} {pids : List ℕ}
    (holds : table.Holds pid kind) (wellFormed : table.WellFormed) (stable : OrphanStable kind)
    (spared : ∀ table entry, entry.id = pid → kind entry → picked table entry = false) :
    (sweep picked stuck pids table).Holds pid kind := by
  induction pids generalizing table with
  | nil => exact holds
  | cons first _ ih =>
    rw [Table.sweep]
    split
    · exact ih holds wellFormed
    · rename_i entry found
      split
      · rename_i chosen
        have ne : pid ≠ first := by
          rintro rfl
          rw [spared table entry (find_mem found).2 (wellFormed.kind_of_find found holds)] at chosen
          cases chosen
        exact ih (holds.destroyProcess_of_ne stable ne (stuck first))
          (wellFormed.destroyProcess first (stuck first))
      · exact ih holds wellFormed

theorem WellFormed.markTree (wellFormed : table.WellFormed) (root : ℕ) :
    (table.markTree root).WellFormed := by
  apply wellFormed.of_sublist
  rw [map_map, map_congr_left]
  intro _ _
  rw [Function.comp]
  split <;> rfl

theorem WellFormed.outside (wellFormed : table.WellFormed) (action : Outside) :
    (table.outside action).WellFormed := by
  cases action with
  | kill _ target stuck =>
    rw [Table.outside]
    split
    · exact wellFormed
    · split
      · exact wellFormed
      · have marked : (table.update target fun entry =>
            { entry with state := .exiting }).WellFormed :=
          wellFormed.update fun _ => rfl
        exact marked.destroyProcess target stuck
  | exit =>
    rw [Table.outside]
    split
    · exact wellFormed
    · split
      · exact wellFormed
      · exact wellFormed.update fun _ => rfl
  | threadGone pid =>
    rw [Table.outside]
    split
    · exact wellFormed
    · split
      · exact wellFormed
      · have reduced : (table.update pid fun entry =>
            { entry with threadCount := entry.threadCount - 1 }).WellFormed :=
          wellFormed.update fun _ => rfl
        simp only
        split
        · exact reduced.destroyProcess pid 0
        · exact reduced
  | reap => exact wellFormed.sweep
  | terminateTree root =>
    rw [Table.outside]
    split
    · exact wellFormed
    · split
      · exact wellFormed
      · exact (wellFormed.markTree root).sweep

end Table

end RosKernel.ProcessTable
