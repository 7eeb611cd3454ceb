import RosKernel.Kernel.ProcessTable
import RosKernel.Library.Runs

/-!
# A process under construction

`Loader::spawn_user_process` registers the new process first and loads its image afterwards.
The load gives up the processor at the loader's cooperative yields, and nothing marks the object
as owned by the loader meanwhile.
-/

namespace RosKernel.Loader

open ProcessTable

/-- The spawn call. -/
inductive SpawnCall
  | idle
  /-- At a yield of the load, for a thread of `caller`. -/
  | loading (caller pid : ℕ)
  /-- The process of the calling thread is gone, and the call with it. -/
  | halted (pid : ℕ)
  | returned
  deriving DecidableEq

/-- The process table and the call. -/
structure SpawnState where
  table : Table
  call : SpawnCall
  /-- The call has used the object after it was freed. -/
  misused : Bool
  deriving DecidableEq

inductive SpawnAction
  /-- The call up to the first yield, or to its end when there is no stack. -/
  | start (caller : ℕ) (stackAllocated : Bool)
  /-- The load between two yields, which may use the object. -/
  | resume (touches : Bool)
  /-- `load_user_executable` fails. -/
  | fail (touches : Bool)
  /-- The image is loaded, and the rest of the call succeeds or fails. -/
  | complete (succeeds : Bool)
  /-- Another thread runs at a yield. -/
  | outside (action : Outside)

namespace SpawnState

/-- Use the object of a process. -/
def touch (state : SpawnState) (pid : ℕ) : SpawnState :=
  { state with misused := state.misused || (state.table.find pid).isNone }

/-- One action; `none` where it cannot be taken. -/
def perform (state : SpawnState) : SpawnAction → Option SpawnState
  | .start caller stackAllocated =>
    match state.call, state.table.find caller with
    | .idle, some _ =>
      let pid := state.table.nextPid
      some (if stackAllocated then
          { state with table := state.table.create, call := .loading caller pid }
        else
          { state with table := state.table.create.destroyProcess pid 0, call := .returned })
    | _, _ => none
  | .resume touches =>
    match state.call with
    | .loading _ pid => some (if touches then state.touch pid else state)
    | _ => none
  | .fail touches =>
    match state.call with
    | .loading _ pid =>
      let used := if touches then state.touch pid else state
      some { used with table := used.table.destroyProcess pid 0, call := .returned }
    | _ => none
  | .complete succeeds =>
    match state.call with
    | .loading _ pid =>
      let used := state.touch pid
      some { used with
        table := if succeeds then used.table.update pid fun entry =>
            { entry with threadCount := entry.threadCount + 1 }
          else used.table.destroyProcess pid 0
        call := .returned }
    | _ => none
  | .outside action =>
    let table := state.table.outside action
    some { state with
      table := table
      call := match state.call with
        | .loading caller pid =>
          if (table.find caller).isSome then .loading caller pid else .halted pid
        | call => call }

/-- A run of actions. -/
abbrev performAll := Runs.performAll perform

/-- The process the call has created and not returned. -/
def underConstruction (state : SpawnState) : Option ℕ :=
  match state.call with
  | .loading _ pid => some pid
  | .halted pid => some pid
  | _ => none

/-- What is claimed: the process stays registered until the call returns, no process is
destroyed twice, and the call has used no freed object. -/
structure Intact (state : SpawnState) : Prop where
  registered : ∀ pid, state.underConstruction = some pid →
    ∃ entry, state.table.find pid = some entry
  destroyed_once : state.table.destroyed.Nodup
  unmisused : state.misused = false

/-- No kill and no tree termination names the process under construction. -/
def Orderly (state : SpawnState) : SpawnAction → Prop
  | .outside (.kill _ target _) => state.underConstruction ≠ some target
  | .outside (.terminateTree root _ _) => state.underConstruction ≠ some root
  | _ => True

/-- The states of runs whose steps meet a condition, from any well-formed table. -/
abbrev Reachable := Runs.Reachable (fun state => ∃ table : Table, table.WellFormed ∧
  state = ⟨table, .idle, false⟩) perform

end SpawnState

/-! ## The new process stays -/

/-- The entry of a process without threads, state or parent. -/
def Fresh (entry : Entry) : Prop :=
  entry.state = .created ∧ entry.parentId = 0 ∧ entry.threadCount = 0

theorem fresh_orphanStable : Table.OrphanStable Fresh := by
  rintro _ ⟨created, _, threads⟩
  exact ⟨created, rfl, threads⟩

section

variable {table : Table} {pid : ℕ}

theorem inTree_of_fresh {entry : Entry} {root : ℕ} (fresh : Fresh entry)
    (ne : entry.id ≠ root) : table.inTree entry root = false := by
  rw [Table.inTree, fresh.2.1, Table.walksTo, if_pos rfl, decide_eq_false_iff_not]
  rintro ⟨_, same | walked⟩
  · exact ne same
  · cases walked

theorem holds_create (table : Table) : table.create.Holds table.nextPid Fresh :=
  ⟨_, List.mem_append_right _ (List.mem_singleton.mpr rfl), rfl, rfl, rfl, rfl⟩

theorem holds_markTree {root : ℕ} (holds : table.Holds pid Fresh) (ne : pid ≠ root) :
    (table.markTree root).Holds pid Fresh := by
  obtain ⟨entry, mem, id, fresh⟩ := holds
  refine ⟨entry, List.mem_map.mpr ⟨entry, mem, if_neg ?_⟩, id, fresh⟩
  rw [inTree_of_fresh fresh (by rw [id]; exact ne)]
  rintro ⟨marked, _⟩
  cases marked

/-- A step of another thread keeps a process that has no thread and is not its target. -/
theorem holds_outside (wellFormed : table.WellFormed) (holds : table.Holds pid Fresh)
    {action : Outside}
    (kill : ∀ caller target stuck, action = .kill caller target stuck → pid ≠ target)
    (tree : ∀ root exempt stuck, action = .terminateTree root exempt stuck → pid ≠ root) :
    (table.outside action).Holds pid Fresh := by
  cases action with
  | kill caller target stuck =>
    have ne := kill caller target stuck rfl
    rw [Table.outside]
    split
    · exact holds
    · split
      · exact holds
      · exact (holds.update_of_ne _ ne).destroyProcess_of_ne fresh_orphanStable ne stuck
  | exit =>
    rw [Table.outside]
    split
    · exact holds
    · rename_i entry found
      split
      · exact holds
      · rename_i threads
        apply holds.update_of_ne
        rintro rfl
        exact threads (wellFormed.kind_of_find found holds).2.2
  | threadGone other =>
    rw [Table.outside]
    split
    · exact holds
    · rename_i entry found
      split
      · exact holds
      · rename_i threads
        have ne : pid ≠ other := by
          rintro rfl
          exact threads (wellFormed.kind_of_find found holds).2.2
        have reduced := holds.update_of_ne
          (fun entry => { entry with threadCount := entry.threadCount - 1 }) ne
        simp only
        split
        · exact reduced.destroyProcess_of_ne fresh_orphanStable ne 0
        · exact reduced
  | reap =>
    apply holds.sweep wellFormed fresh_orphanStable
    rintro _ entry _ ⟨created, _⟩
    rw [Table.reaped, created, decide_eq_false_iff_not]
    rintro ⟨_, exiting, _⟩
    cases exiting
  | terminateTree root exempt stuck =>
    have ne := tree root exempt stuck rfl
    rw [Table.outside]
    split
    · exact holds
    · split
      · exact holds
      · apply (holds_markTree holds ne).sweep (wellFormed.markTree root) fresh_orphanStable
        rintro _ _ rfl fresh
        rw [Table.doomed, inTree_of_fresh fresh ne, decide_eq_false_iff_not]
        rintro ⟨inTree, _⟩
        cases inTree

end

namespace SpawnState

variable {state next : SpawnState}

/-- What every step under the conditions keeps. -/
structure Invariant (state : SpawnState) : Prop where
  wellFormed : state.table.WellFormed
  fresh : ∀ pid, state.underConstruction = some pid → state.table.Holds pid Fresh
  unmisused : state.misused = false

theorem Invariant.intact (holds : state.Invariant) : state.Intact :=
  ⟨fun pid built => (holds.fresh pid built).find, holds.wellFormed.destroyed_nodup, holds.unmisused⟩

/-- A registered process may be used. -/
theorem touch_of_holds {pid : ℕ} {kind : Entry → Prop} (holds : state.table.Holds pid kind) :
    state.touch pid = state := by
  obtain ⟨_, found⟩ := holds.find
  rw [touch, found, Option.isNone_some, Bool.or_false]

/-- The call leaves the process behind. -/
theorem Invariant.return (holds : state.Invariant) {table : Table} (wellFormed : table.WellFormed) :
    ({ state with table := table, call := .returned } : SpawnState).Invariant :=
  ⟨wellFormed, fun _ built => (by cases built), holds.unmisused⟩

theorem Invariant.step (holds : state.Invariant) {action : SpawnAction}
    (orderly : state.Orderly action) (stepped : state.perform action = some next) :
    next.Invariant := by
  cases action with
  | start =>
    simp only [perform] at stepped
    split at stepped
    · cases stepped
      split
      · refine ⟨holds.wellFormed.create, ?_, holds.unmisused⟩
        rintro pid ⟨⟩
        exact holds_create state.table
      · exact holds.return (holds.wellFormed.create.destroyProcess _ 0)
    · cases stepped
  | resume =>
    simp only [perform] at stepped
    split at stepped
    · rename_i caller pid loading
      cases stepped
      have used := touch_of_holds (holds.fresh pid (by rw [underConstruction, loading]))
      rw [used, ite_self]
      exact holds
    · cases stepped
  | fail =>
    simp only [perform] at stepped
    split at stepped
    · rename_i caller pid loading
      cases stepped
      have used := touch_of_holds (holds.fresh pid (by rw [underConstruction, loading]))
      rw [used, ite_self]
      exact holds.return (holds.wellFormed.destroyProcess pid 0)
    · cases stepped
  | complete =>
    simp only [perform] at stepped
    split at stepped
    · rename_i caller pid loading
      cases stepped
      rw [touch_of_holds (holds.fresh pid (by rw [underConstruction, loading]))]
      apply holds.return
      split
      · exact holds.wellFormed.update fun _ => rfl
      · exact holds.wellFormed.destroyProcess pid 0
    · cases stepped
  | outside action =>
    cases stepped
    refine ⟨holds.wellFormed.outside action, ?_, holds.unmisused⟩
    intro pid built
    -- the call keeps its process, halted or not
    have before : state.underConstruction = some pid := by
      rw [← built]
      unfold underConstruction
      simp only
      cases state.call with
      | loading caller =>
        dsimp only
        cases ((state.table.outside action).find caller).isSome <;> rfl
      | _ => rfl
    apply holds_outside holds.wellFormed (holds.fresh pid before)
    · rintro _ _ stuck rfl rfl
      exact orderly before
    · rintro _ _ _ rfl rfl
      exact orderly before

theorem Reachable.invariant (reachable : Reachable Orderly state) : state.Invariant := by
  refine Runs.Reachable.invariant reachable ?_ fun _ _ _ holds => holds.step
  rintro _ ⟨table, wellFormed, rfl⟩
  exact ⟨wellFormed, fun _ built => (by cases built), rfl⟩

/-- In every run in which no kill and no tree termination names it, the process under
construction stays registered, and it is destroyed once at most and not used afterwards. -/
theorem construction_intact (reachable : Reachable Orderly state) : state.Intact :=
  reachable.invariant.intact

/-- Two running processes. -/
def twoShells : Table :=
  ⟨[⟨1, 0, .running, 1, false, false⟩, ⟨2, 0, .running, 1, false, false⟩], 3, []⟩

theorem twoShells_wellFormed : twoShells.WellFormed := by
  refine ⟨by decide, by decide, by decide, by decide, by decide⟩

/-- Another process is killed in the middle of the load. -/
theorem construction_intact_otherKilled :
    ∃ state, Reachable Orderly state ∧
      state.table.destroyed = [2] ∧ state.underConstruction = some 3 ∧ state.Intact := by
  have start : Reachable Orderly ⟨twoShells, .idle, false⟩ := .start ⟨_, twoShells_wellFormed, rfl⟩
  have loading := start.step (.start 1 true) trivial rfl
  have killed := loading.step (.outside (.kill 1 2 0)) (fun same => nomatch same) rfl
  exact ⟨_, killed, rfl, rfl, construction_intact killed⟩

/-- A kill in the middle of the load frees the object, which the load then uses. -/
theorem construction_killed :
    ∃ state, (⟨twoShells, .idle, false⟩ : SpawnState).performAll
        [.start 1 true, .outside (.kill 2 3 0), .resume true] = some state ∧
      state.underConstruction = some 3 ∧ state.table.find 3 = none ∧ state.misused = true ∧
      ¬ state.Intact := by
  refine ⟨_, rfl, rfl, rfl, rfl, ?_⟩
  intro intact
  exact absurd intact.unmisused (by decide)

end SpawnState

end RosKernel.Loader
