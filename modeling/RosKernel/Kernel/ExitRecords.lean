import RosKernel.Kernel.Runs
import Mathlib.Data.List.Perm.Subperm

/-!
# Exit records

The exit codes that `destroy_process` keeps for `service_wait_pid` (`process.cpp`). Kills, exits,
reaping and the end of a process tree all take a process away by `destroy_process`.
-/

namespace RosKernel.ExitRecords

open List Registry

structure State where
  /-- The process list: the `parent_process_id` of each process. -/
  processes : Registry ℕ
  records : List ProcessExitRecord
  /-- The children that no wait has collected, each with its launcher. -/
  children : List (ℕ × ℕ)

inductive Action
  /-- `create_process_with_mode`. -/
  | create
  /-- `service_spawn` or the spawn worker sets the `parent_process_id` of the child. -/
  | launch (child launcher : ℕ)
  /-- `destroy_process` once the threads are gone; the records may find no room. -/
  | destroy (id exitCode : ℕ) (room : Bool)
  /-- A turn of `service_wait_pid` that finds its record. -/
  | wait (caller child : ℕ)

namespace State

/-- A process is in the list. -/
def Alive (state : State) (id : ℕ) : Prop := (state.processes.lookup id).isSome

instance (state : State) : DecidablePred state.Alive := fun _ => inferInstanceAs (Decidable (_ = _))

def perform (state : State) : Action → Option State
  | .create => some { state with processes := state.processes.insert 0 }
  | .launch child launcher =>
    if child ≠ launcher ∧ state.Alive child ∧ state.Alive launcher then some { state with
      processes := state.processes.modify child fun _ => launcher
      children := (child, launcher) :: state.children }
    else none
  | .destroy id exitCode room => (state.processes.lookup id).map fun parentId => { state with
      -- `orphan_launched_processes` reaches the live children only.
      processes := (state.processes.remove id).mapEntries fun _ other =>
        if other = id then 0 else other
      records := Kernel.remembered state.records id parentId exitCode room }
  | .wait caller child =>
    if state.records.any (ProcessExitRecord.isFor child caller) then some { state with
      records := state.records.eraseP (ProcessExitRecord.isFor child caller)
      children := state.children.erase (child, caller) }
    else none

/-- No process is destroyed that an exit record names as the launcher. -/
def Awaited (state : State) : Action → Prop
  | .destroy id _ _ => ∀ record ∈ state.records, record.parentProcessId ≠ id
  | _ => True

/-- Every record is for a destroyed child that its live launcher has not collected, and no
process has two. -/
structure Bounded (state : State) : Prop where
  destroyed : ∀ record ∈ state.records, record.processId < state.processes.nextId ∧
    ¬ state.Alive record.processId
  launcher : ∀ record ∈ state.records, state.Alive record.parentProcessId
  uncollected : ∀ record ∈ state.records,
    (record.processId, record.parentProcessId) ∈ state.children
  single : (state.records.map ProcessExitRecord.processId).Nodup

structure Invariant (state : State) : Prop extends Bounded state where
  launched : ∀ id parentId, state.processes.lookup id = some parentId → parentId ≠ 0 →
    parentId ≠ id ∧ state.Alive parentId ∧ (id, parentId) ∈ state.children

variable {state next : State} {action : Action}

theorem Invariant.perform (inv : state.Invariant) (awaited : state.Awaited action)
    (performed : state.perform action = some next) : next.Invariant := by
  obtain ⟨⟨destroyed, launcher, uncollected, single⟩, launched⟩ := inv
  cases action with
  | create =>
    cases performed
    refine ⟨⟨?_, ?_, uncollected, single⟩, ?_⟩
    all_goals
      simp only [Alive, lookup_insert, nextId_insert] at *
      grind
  | launch child parent =>
    obtain ⟨⟨ne, _, alive⟩, ⟨⟩⟩ := Option.ite_none_right_eq_some.mp performed
    have same (id : ℕ) : (state.processes.modify child fun _ => parent).lookup id = none ↔
        state.processes.lookup id = none := by
      rw [lookup_modify]
      split <;> simp
    refine ⟨⟨?_, ?_, fun _ mem => .tail _ (uncollected _ mem), single⟩, ?_⟩
    all_goals simp only [Alive, Option.isSome_iff_ne_none, ne_eq, same] at *
    · exact destroyed
    · exact launcher
    · intro id parentId found linked
      rw [lookup_modify] at found
      split at found
      · obtain ⟨_, _, rfl⟩ := Option.map_eq_some_iff.mp found
        grind
      · grind
  | destroy id exitCode room =>
    obtain ⟨parentId, found, rfl⟩ := Option.map_eq_some_iff.mp performed
    have absent : ∀ record ∈ state.records, record.processId ≠ id := by
      rintro record mem rfl
      exact (destroyed record mem).2 (by rw [Alive, found]; rfl)
    have unmatched : state.records.any (ProcessExitRecord.isFor id parentId) = false := by
      simpa [ProcessExitRecord.isFor] using fun record mem same _ => absent record mem same
    have bound := state.processes.lookup_lt_nextId found
    have gone (other : ℕ) : ((state.processes.remove id).mapEntries fun _ other =>
        if other = id then 0 else other).lookup other = none ↔
        other = id ∨ state.processes.lookup other = none := by
      rw [lookup_mapEntries, lookup_remove]
      split <;> simp [*]
    have kept : ((state.processes.remove id).mapEntries fun _ other =>
        if other = id then 0 else other).nextId = state.processes.nextId := rfl
    rw [Awaited] at awaited
    refine ⟨⟨?_, ?_, ?_, ?_⟩, ?_⟩
    all_goals simp only [Alive, Kernel.remembered, unmatched, Option.isSome_iff_ne_none, ne_eq,
      gone, kept] at *
    · grind
    · grind
    · grind
    · grind
    · intro other launcherId otherFound linked
      rw [lookup_mapEntries, lookup_remove] at otherFound
      split at otherFound
      · cases otherFound
      · obtain ⟨_, _, rfl⟩ := Option.map_eq_some_iff.mp otherFound
        grind
  | wait caller child =>
    obtain ⟨matched, ⟨⟩⟩ := Option.ite_none_right_eq_some.mp performed
    obtain ⟨_, mem, isFor⟩ := any_eq_true.mp matched
    obtain ⟨first, before, later, _, isFirst, split, erased⟩ := exists_of_eraseP mem isFor
    obtain rfl : first.processId = child := (of_decide_eq_true isFirst).1
    have sublist := @eraseP_sublist _ (ProcessExitRecord.isFor first.processId caller) state.records
    refine ⟨⟨fun record mem => destroyed record (sublist.mem mem), fun record mem =>
      launcher record (sublist.mem mem), ?_, single.sublist (sublist.map _)⟩, ?_⟩
    · intro record mem
      have ne : record.processId ≠ first.processId := by
        rw [erased] at mem
        rw [split, map_append, map_cons, nodup_middle, nodup_cons, ← map_append] at single
        exact fun same => single.1 (same ▸ mem_map_of_mem mem)
      exact (mem_erase_of_ne (by simp [ne])).mpr (uncollected record (sublist.mem mem))
    · intro id parentId found linked
      obtain ⟨apart, alive, mem⟩ := launched id parentId found linked
      have ne : id ≠ first.processId := by
        rintro rfl
        exact (destroyed first (by simp [split])).2 (by rw [Alive, found]; rfl)
      exact ⟨apart, alive, (mem_erase_of_ne (by simp [ne])).mpr mem⟩

/-! ## The kernel's writes as actions -/

/-- The launchers and the records of a kernel. -/
def ofKernel (kernel : Kernel) (children : List (ℕ × ℕ)) : State :=
  ⟨kernel.processes.mapEntries fun _ => Process.parentProcessId, kernel.exitRecords, children⟩

section

variable (kernel : Kernel) (children : List (ℕ × ℕ))
include kernel children

theorem perform_create (name : Text) (userProcess : Bool) (pageTableRoot : ℕ) :
    (ofKernel kernel children).perform .create = some (ofKernel { kernel with
      processes := kernel.processes.insert (Kernel.newProcess name userProcess pageTableRoot) }
      children) := by
  refine congrArg some (congrArg (State.mk · _ _) ?_)
  ext1
  · simp only [ofKernel, Registry.insert, mapEntries, map_append]
    rfl
  · rfl

theorem perform_launch {child launcher : ℕ} (allowed : child ≠ launcher ∧
      (ofKernel kernel children).Alive child ∧ (ofKernel kernel children).Alive launcher) :
    (ofKernel kernel children).perform (.launch child launcher) =
      some (ofKernel (kernel.setLauncher child launcher) ((child, launcher) :: children)) := by
  rw [State.perform, if_pos allowed]
  refine congrArg some (congrArg (State.mk · _ _) ?_)
  ext1
  · simp only [ofKernel, Kernel.setLauncher, Kernel.modifyProcess, Registry.modify, mapEntries,
      map_map]
    refine map_congr_left fun entry _ => ?_
    dsimp
    split <;> rfl
  · rfl

theorem perform_destroy {id : ℕ} {process : Process} (found : kernel.process id = some process) :
    ∃ room, (ofKernel kernel children).perform (.destroy id process.exitCode room) =
      some (ofKernel (kernel.retireProcess id process) children) := by
  have linked : (ofKernel kernel children).processes.lookup id = some process.parentProcessId :=
    (lookup_mapEntries ..).trans (congrArg (Option.map _) found)
  refine ⟨kernel.heapAlloc.1, ?_⟩
  rw [State.perform, linked]
  unfold Kernel.retireProcess Kernel.orphanLaunchedProcesses Kernel.rememberExitStatus
  dsimp only
  split_ifs
  all_goals
    refine congrArg some (congrArg (State.mk · _ _) ?_)
    ext1
    · simp [ofKernel, mapEntries, Registry.remove, Kernel.heapAlloc, filter_map, Function.comp_def]
      grind
    · rfl

theorem perform_wait {caller child : ℕ} {code : Option ℕ} {after : Kernel}
    (consumed : kernel.consumeExitStatus child caller = (.ok, code, after)) :
    (ofKernel kernel children).perform (.wait caller child) =
      some (ofKernel after (children.erase (child, caller))) := by
  simp only [Kernel.consumeExitStatus] at consumed
  split at consumed
  · cases consumed
  · rename_i found
    cases consumed
    exact if_pos (any_eq_true.mpr ⟨_, mem_of_find?_eq_some found, find?_some found⟩)

end

/-! ## Runs -/

/-- Nothing has happened yet. -/
def boot : State := ⟨.empty 1, [], []⟩

/-- In runs that destroy no process which a record names as the launcher, the records are
bounded by the uncollected children of live processes. -/
theorem exitRecords_bounded (reachable : Runs.Reachable (· = boot) State.perform Awaited state) :
    state.Bounded ∧ state.records.length ≤
      (state.children.filter fun (_, launcher) => state.Alive launcher).length := by
  have inv : state.Invariant := by
    refine reachable.invariant ?_ fun _ _ _ inv awaited performed => inv.perform awaited performed
    rintro _ rfl
    exact ⟨⟨nofun, nofun, nofun, .nil⟩, nofun⟩
  refine ⟨inv.toBounded, ?_⟩
  have distinct : (state.records.map fun record =>
      (record.processId, record.parentProcessId)).Nodup :=
    .of_map Prod.fst (by simpa [Function.comp_def] using inv.single)
  refine le_of_eq_of_le (length_map _).symm (distinct.subperm ?_).length_le
  intro _ listed
  obtain ⟨record, mem, rfl⟩ := mem_map.mp listed
  exact mem_filter.mpr ⟨inv.uncollected record mem, decide_eq_true (inv.launcher record mem)⟩

/-- A child ends while its launcher is alive. -/
theorem exitRecords_bounded_oneChild : ∃ state, Runs.performAll State.perform boot
    [.create, .create, .launch 2 1, .destroy 2 7 true] = some state ∧ state.Bounded ∧
    state.records = [⟨2, 1, 7⟩] := by
  have awaited : ∀ action ∈ [Action.create, .create, .launch 2 1],
      ∀ state, Awaited state action := by
    simp [Awaited]
  refine ⟨_, rfl, (exitRecords_bounded ?_).1, rfl⟩
  exact .step (.performAll (.start rfl) awaited rfl) (.destroy 2 7 true) nofun rfl

/-- The child ends, then its launcher, and the record stays. -/
theorem exitRecords_leftBehind : ∃ state, Runs.performAll State.perform boot
    [.create, .create, .launch 2 1, .destroy 2 7 true, .destroy 1 0 true] = some state ∧
    state.records = [⟨2, 1, 7⟩] ∧ ¬ state.Alive 1 :=
  ⟨_, rfl, rfl, by decide⟩

end State

end RosKernel.ExitRecords
