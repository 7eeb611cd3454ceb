import RosKernel.Kernel.ProcessTable
import RosKernel.Library.Runs
import RosKernel.Status

/-!
# Launches on the background worker

`async_spawn_execute_request` of `service_call.cpp`, step by step, between steps of other
threads. The worker keeps plain pointers to the new process, to its first thread and to the
process that asked for it, and the new process may run as soon as it is enqueued. The first
thread lives as long as its process.
-/

namespace RosKernel.AsyncLaunch

open ProcessTable List Option

/-- `AsyncSpawnCompletion`. -/
structure Completion where
  parentProcessId : ℕ
  requestId : ℕ
  status : Status
  pid : ℕ
  deriving DecidableEq

/-- Where the worker is with a request. -/
inductive Stage
  | idle
  /-- Inside `spawn_user_process`, with the process registered. -/
  | spawning (child : ℕ)
  /-- Before `find_process` of the requesting process. -/
  | spawned (child : ℕ)
  /-- Before the store of `child_process->parent`. -/
  | parentFound (child parent : ℕ)
  /-- Before the load of `parent_process->id`. -/
  | parentStored (child parent : ℕ)
  /-- Before the store of `child_process->parent_process_id`. -/
  | parentRead (child parent : ℕ)
  /-- Before `Scheduler::enqueue`. -/
  | linked (child : ℕ)
  /-- Before the load of `child_process->id`. -/
  | enqueued (child : ℕ)
  /-- Before `async_spawn_queue_completion`, for the process that was created, if any, and
  whether it was enqueued. -/
  | settled (created : Option ℕ) (launched : Bool) (status : Status) (pid : ℕ)
  deriving DecidableEq

/-- A queued completion, with what really happened. -/
structure Finished where
  created : Option ℕ
  launched : Bool
  completion : Completion
  deriving DecidableEq

/-- The process table and the worker. -/
structure State where
  table : Table
  stage : Stage
  /-- The request. -/
  parentProcessId : ℕ
  requestId : ℕ
  /-- The completion queue. -/
  finished : List Finished
  /-- The worker has used a process, or its first thread, after it was destroyed. -/
  misused : Bool
  deriving DecidableEq

inductive Action
  /-- `spawn_user_process` fails before it has a process. -/
  | refuse (parent request : ℕ) (status : Status)
  | begin (parent request : ℕ)
  /-- The load of the image uses the process. -/
  | load
  /-- `spawn_user_process` fails and destroys its process. -/
  | abandon (status : Status)
  /-- `spawn_user_process` succeeds with a first thread. -/
  | loaded
  | findParent
  | storeParent
  | readParent
  | storeParentId
  /-- `Scheduler::enqueue`, with its answer. -/
  | enqueue (answer : Status)
  /-- The load of the identifier, or of what a freed object holds in its place. -/
  | readPid (stale : ℕ)
  | queue (allocated : Bool)
  | outside (action : Outside)

namespace State

/-- Use a process. -/
def touch (state : State) (pid : ℕ) : State :=
  { state with misused := state.misused || (state.table.find pid).isNone }

/-- The state of the process behind `transition_thread_to_ready`. -/
def started (entry : Entry) : Entry :=
  if entry.state = .exiting ∨ entry.state = .terminated then entry
  else { entry with state := .running }

/-- One action; `none` where it cannot be taken. -/
def perform (state : State) (action : Action) : Option State :=
  match action, state.stage with
  | .refuse parent request status, .idle =>
    if status = .ok then none
    else some { state with
      parentProcessId := parent, requestId := request, stage := .settled none false status 0 }
  | .begin parent request, .idle =>
    some { state with
      parentProcessId := parent, requestId := request
      table := state.table.create, stage := .spawning state.table.nextPid }
  | .load, .spawning child => some (state.touch child)
  | .abandon status, .spawning child =>
    if status = .ok then none
    else some { state.touch child with
      table := state.table.destroyProcess child 0, stage := .settled (some child) false status 0 }
  | .loaded, .spawning child =>
    some { state.touch child with
      table := state.table.update child fun entry =>
        { entry with threadCount := entry.threadCount + 1 }
      stage := .spawned child }
  | .findParent, .spawned child =>
    -- the first thread names its process
    some { state.touch child with
      stage := if (state.table.find state.parentProcessId).isSome then
        .parentFound child state.parentProcessId else .linked child }
  | .storeParent, .parentFound child parent =>
    some { state.touch child with stage := .parentStored child parent }
  | .readParent, .parentStored child parent =>
    some { state.touch parent with stage := .parentRead child parent }
  | .storeParentId, .parentRead child parent =>
    some { state.touch child with
      table := state.table.update child fun entry => { entry with parentId := parent }
      stage := .linked child }
  | .enqueue answer, .linked child =>
    -- the first thread is read, and a process whose thread is refused is destroyed
    if answer = .ok then
      some { state.touch child with
        table := state.table.update child started, stage := .enqueued child }
    else
      some { state.touch child with
        table := state.table.destroyProcess child 0
        stage := .settled (some child) false answer 0 }
  | .readPid stale, .enqueued child =>
    some { state.touch child with
      stage := .settled (some child) true .ok
        (if (state.table.find child).isSome then child else stale) }
  | .queue allocated, .settled created launched status pid =>
    some { state with
      stage := .idle
      finished := if allocated ∧ state.parentProcessId ≠ 0 ∧
          (state.table.find state.parentProcessId).isSome then
        state.finished ++
          [⟨created, launched, ⟨state.parentProcessId, state.requestId, status, pid⟩⟩]
      else state.finished }
  | .outside action, _ => some { state with table := state.table.outside action }
  | _, _ => none

end State

/-- A result carries `StatusOK` and the new process exactly when it was created and enqueued. -/
def Truthful (created : Option ℕ) (launched : Bool) (status : Status) (pid : ℕ) : Prop :=
  (status = .ok ∧ created = some pid) ↔ (created.isSome ∧ launched = true)

/-- What is claimed of a state. -/
structure State.Sound (state : State) : Prop where
  truthful : ∀ result ∈ state.finished, Truthful result.created result.launched
    result.completion.status result.completion.pid
  unmisused : state.misused = false

/-- A process is in the list. -/
def Registered (table : Table) (pid : ℕ) : Prop :=
  table.Holds pid fun _ => True

/-- The processes the worker is about to use. -/
def Stage.held : Stage → List ℕ
  | .spawning child | .spawned child | .parentRead child _ | .linked child | .enqueued child =>
    [child]
  | .parentFound child parent | .parentStored child parent => [child, parent]
  | _ => []

/-- No step of another thread destroys a process the worker is about to use. -/
def Spares (state : State) : Action → Prop
  | .outside action => ∀ pid ∈ state.stage.held, Registered (state.table.outside action) pid
  | _ => True

/-- An idle worker. -/
def Initial (state : State) : Prop :=
  state.table.WellFormed ∧ state.stage = .idle ∧ state.finished = [] ∧ state.misused = false

/-! ## Every step keeps the pointers good -/

/-- A result on its way to the queue is truthful. -/
def Stage.Truthful : Stage → Prop
  | .settled created launched status pid => AsyncLaunch.Truthful created launched status pid
  | _ => True

/-- What every step under the condition keeps. -/
structure State.Invariant (state : State) : Prop extends state.Sound where
  wellFormed : state.table.WellFormed
  held : ∀ pid ∈ state.stage.held, Registered state.table pid
  settled : state.stage.Truthful

theorem truthful_of_ne_ok {created : Option ℕ} {status : Status} (failed : status ≠ .ok) {pid : ℕ} :
    Truthful created false status pid :=
  ⟨fun carried => absurd carried.1 failed, fun launched => by cases launched.2⟩

namespace State

variable {state next : State} {pid : ℕ}

theorem touch_of_registered (registered : Registered state.table pid) :
    state.touch pid = state := by
  obtain ⟨_, found⟩ := Table.Holds.find registered
  rw [touch, found, isNone_some, Bool.or_false]

theorem Invariant.move (holds : state.Invariant) {table : Table} {stage : Stage}
    (wellFormed : table.WellFormed) (held : ∀ pid ∈ stage.held, Registered table pid)
    (settled : stage.Truthful) :
    ({ state with table := table, stage := stage } : State).Invariant :=
  ⟨⟨holds.truthful, holds.unmisused⟩, wellFormed, held, settled⟩

theorem registered_update {change : Entry → Entry} {other : ℕ}
    (registered : Registered state.table pid) (id : ∀ entry, (change entry).id = entry.id) :
    Registered (state.table.update other change) pid := by
  obtain ⟨_, mem, isPid, _⟩ := registered
  refine ⟨_, mem_map_of_mem mem, ?_, trivial⟩
  split
  · rw [id, isPid]
  · exact isPid

theorem started_id (entry : Entry) : (started entry).id = entry.id := by
  unfold started
  split <;> rfl

theorem Invariant.step (holds : state.Invariant) {action : Action} (spares : Spares state action)
    (stepped : state.perform action = some next) : next.Invariant := by
  have held := holds.held
  unfold perform at stepped
  split at stepped
  · rename_i parent request status idle
    split at stepped
    · cases stepped
    · rename_i failed
      cases stepped
      exact ⟨⟨holds.truthful, holds.unmisused⟩, holds.wellFormed, forall_mem_nil _,
        truthful_of_ne_ok failed⟩
  · cases stepped
    refine ⟨⟨holds.truthful, holds.unmisused⟩, holds.wellFormed.create, ?_, trivial⟩
    exact forall_mem_singleton.mpr ⟨_, mem_append_right _ (mem_singleton.mpr rfl), rfl, trivial⟩
  · rename_i child spawning
    rw [spawning] at held
    cases stepped
    rw [touch_of_registered (held child (.head _))]
    exact holds
  · rename_i status child spawning
    rw [spawning] at held
    rw [touch_of_registered (held child (.head _))] at stepped
    split at stepped
    · cases stepped
    · rename_i failed
      cases stepped
      exact holds.move (holds.wellFormed.destroyProcess child 0) (forall_mem_nil _)
        (truthful_of_ne_ok failed)
  · rename_i child spawning
    rw [spawning] at held
    have registered := held child (.head _)
    cases stepped
    rw [touch_of_registered registered]
    refine holds.move (holds.wellFormed.update fun _ => rfl) ?_ trivial
    exact forall_mem_singleton.mpr (registered_update registered fun _ => rfl)
  · rename_i child spawned
    rw [spawned] at held
    have registered := held child (.head _)
    cases stepped
    rw [touch_of_registered registered]
    split
    · rename_i found
      obtain ⟨entry, isFound⟩ := isSome_iff_exists.mp found
      obtain ⟨mem, id⟩ := Table.find_mem isFound
      refine holds.move holds.wellFormed (forall_mem_cons.mpr ?_) trivial
      exact ⟨registered, forall_mem_singleton.mpr ⟨entry, mem, id, trivial⟩⟩
    · exact holds.move holds.wellFormed (forall_mem_singleton.mpr registered) trivial
  · rename_i child parent found
    rw [found] at held
    cases stepped
    rw [touch_of_registered (held child (.head _))]
    exact holds.move holds.wellFormed held trivial
  · rename_i child parent stored
    rw [stored] at held
    cases stepped
    rw [touch_of_registered (held parent (.tail _ (.head _)))]
    refine holds.move holds.wellFormed ?_ trivial
    exact forall_mem_singleton.mpr (held child (.head _))
  · rename_i child parent read
    rw [read] at held
    have registered := held child (.head _)
    cases stepped
    rw [touch_of_registered registered]
    refine holds.move (holds.wellFormed.update fun _ => rfl) ?_ trivial
    exact forall_mem_singleton.mpr (registered_update registered fun _ => rfl)
  · rename_i answer child linked
    rw [linked] at held
    have registered := held child (.head _)
    rw [touch_of_registered registered] at stepped
    split at stepped
    · cases stepped
      refine holds.move (holds.wellFormed.update started_id) ?_ trivial
      exact forall_mem_singleton.mpr (registered_update registered started_id)
    · rename_i failed
      cases stepped
      exact holds.move (holds.wellFormed.destroyProcess child 0) (forall_mem_nil _)
        (truthful_of_ne_ok failed)
  · rename_i stale child enqueued
    rw [enqueued] at held
    have registered := held child (.head _)
    obtain ⟨_, found⟩ := Table.Holds.find registered
    cases stepped
    rw [touch_of_registered registered, found, if_pos isSome_some]
    exact holds.move holds.wellFormed (forall_mem_nil _) ⟨fun _ => ⟨rfl, rfl⟩, fun _ => ⟨rfl, rfl⟩⟩
  · rename_i allocated created launched status pid settled
    have truthful := holds.settled
    rw [settled] at truthful
    cases stepped
    refine ⟨⟨?_, holds.unmisused⟩, holds.wellFormed, forall_mem_nil _, trivial⟩
    split
    · refine forall_mem_append.mpr ⟨holds.truthful, ?_⟩
      exact forall_mem_singleton.mpr truthful
    · exact holds.truthful
  · cases stepped
    refine holds.move (holds.wellFormed.outside _) ?_ holds.settled
    exact spares
  · cases stepped

/-- One running process and an idle worker. -/
def oneShell : State := ⟨⟨[⟨1, 0, .running, 1, false, false⟩], 2, []⟩, .idle, 0, 0, [], false⟩

/-- A launch for process 1 up to the enqueue of process 2. -/
def launchTwo : List Action :=
  [.begin 1 7, .load, .loaded, .findParent, .storeParent, .readParent, .storeParentId, .enqueue .ok]

end State

end RosKernel.AsyncLaunch
