import RosKernel.Kernel.Core

/-!
# What the core leaves alone

Facts that hold between the two ends of every call into the re-entrant core, and the writes
that such a call can make to one thread.
-/

namespace RosKernel.Kernel

/-- Facts that hold between the ends of every call. -/
structure CoreFrame (before after : Kernel) : Prop where
  currentThread : after.currentThread = before.currentThread
  idleThread : after.idleThread = before.idleThread
  tickCount : after.tickCount = before.tickCount
  /-- Threads are only removed; identity, parent and saved context stay. -/
  thread : ∀ id thread, after.thread id = some thread →
    ∃ old, before.thread id = some old ∧
      thread.parent = old.parent ∧ thread.name = old.name ∧
      thread.continuation = old.continuation ∧
      (thread.currentState = .waiting → old.currentState = .waiting) ∧
      (thread.currentState = .running → old.currentState = .running) ∧
      (old.currentState = .terminated → thread.currentState = .terminated)
  /-- Processes are only removed; page tables and flags stay. -/
  process : ∀ id process, after.process id = some process →
    ∃ old, before.process id = some old ∧
      process.pageTableRoot = old.pageTableRoot ∧
      process.permanent = old.permanent ∧
      process.kernelObject = old.kernelObject

variable {update : Thread → Thread}

namespace CoreFrame

theorem refl (kernel : Kernel) : CoreFrame kernel kernel :=
  ⟨rfl, rfl, rfl, fun _ thread found =>
    ⟨thread, found, rfl, rfl, rfl, id, id, id⟩,
    fun _ process found => ⟨process, found, rfl, rfl, rfl⟩⟩

theorem trans {first second third : Kernel} (earlier : CoreFrame first second)
    (later : CoreFrame second third) : CoreFrame first third where
  currentThread := later.currentThread.trans earlier.currentThread
  idleThread := later.idleThread.trans earlier.idleThread
  tickCount := later.tickCount.trans earlier.tickCount
  thread := by
    intro id thread found
    obtain ⟨middle, middleFound, parent, name, context, waiting, running,
      terminated⟩ := later.thread id thread found
    obtain ⟨old, oldFound, parent', name', context', waiting', running',
      terminated'⟩ := earlier.thread id middle middleFound
    exact ⟨old, oldFound, parent.trans parent', name.trans name',
      context.trans context', waiting' ∘ waiting, running' ∘ running,
      terminated ∘ terminated'⟩
  process := by
    intro id process found
    obtain ⟨middle, middleFound, root, permanent, kernelObject⟩ := later.process id process found
    obtain ⟨old, oldFound, root', permanent', kernelObject'⟩ :=
      earlier.process id middle middleFound
    exact ⟨old, oldFound, root.trans root', permanent.trans permanent',
      kernelObject.trans kernelObject'⟩

variable {before after : Kernel}

variable (currentThread : after.currentThread = before.currentThread)
    (idleThread : after.idleThread = before.idleThread)
    (tickCount : after.tickCount = before.tickCount)
include currentThread idleThread tickCount

/-- A step that rewrites the processes. -/
theorem of_processes (threads : after.threads = before.threads)
    (processes : ∀ id process, after.process id = some process →
      ∃ old, before.process id = some old ∧ process.pageTableRoot = old.pageTableRoot ∧
        process.permanent = old.permanent ∧ process.kernelObject = old.kernelObject) :
    CoreFrame before after where
  currentThread := currentThread
  idleThread := idleThread
  tickCount := tickCount
  thread := by
    intro _ thread found
    rw [Kernel.thread, threads] at found
    exact ⟨thread, found, rfl, rfl, rfl, fun h => h, fun h => h, fun h => h⟩
  process := processes

/-- A step that leaves the thread and process registries alone. -/
theorem of_registries (threads : after.threads = before.threads)
    (processes : after.processes = before.processes) : CoreFrame before after := by
  refine of_processes currentThread idleThread tickCount threads ?_
  intro _ process found
  rw [Kernel.process, processes] at found
  exact ⟨process, found, rfl, rfl, rfl⟩

omit currentThread idleThread tickCount in
/-- A step that rewrites one process object. -/
theorem of_modifyProcess {target : ProcessId} {update : Process → Process}
    (kept : ∀ process, (update process).pageTableRoot = process.pageTableRoot ∧
      (update process).permanent = process.permanent ∧
      (update process).kernelObject = process.kernelObject) :
    CoreFrame before (before.modifyProcess target update) := by
  refine .of_processes rfl rfl rfl rfl ?_
  intro _ process found
  rcases written_cases (process_modifyProcess ..) found with
    ⟨-, old, oldFound, rfl⟩ | ⟨-, found⟩
  · exact ⟨old, oldFound, kept old⟩
  · exact ⟨process, found, rfl, rfl, rfl⟩

/-- A step that rewrites one thread object. -/
theorem of_modifyThread {target : ThreadId} (rewritten : Rewrites before after target update)
    (kept : ∀ thread, before.thread target = some thread →
      (update thread).parent = thread.parent ∧ (update thread).name = thread.name ∧
      (update thread).continuation = thread.continuation ∧
      ((update thread).currentState = .waiting → thread.currentState = .waiting) ∧
      ((update thread).currentState = .running → thread.currentState = .running) ∧
      (thread.currentState = .terminated → (update thread).currentState = .terminated))
    (processes : after.processes = before.processes) : CoreFrame before after where
  currentThread := currentThread
  idleThread := idleThread
  tickCount := tickCount
  thread := by
    intro id thread found
    rcases written_cases (rewritten _) found with ⟨rfl, old, oldFound, rfl⟩ | ⟨-, found⟩
    · exact ⟨old, oldFound, kept old oldFound⟩
    · exact ⟨thread, found, rfl, rfl, rfl, fun h => h, fun h => h, fun h => h⟩
  process := by
    intro _ process found
    rw [Kernel.process, processes] at found
    exact ⟨process, found, rfl, rfl, rfl⟩

end CoreFrame

/-- Orphaning only rewrites launcher links. -/
theorem process_orphanLaunchedProcesses
    {kernel : Kernel} {launcher id : ProcessId} {process : Process}
    (found : (kernel.orphanLaunchedProcesses launcher).process id = some process) :
    ∃ old parent, kernel.process id = some old ∧
      process = { old with parentProcessId := parent } ∧
      (parent = old.parentProcessId ∨ parent = 0) := by
  unfold orphanLaunchedProcesses Kernel.process at found
  split at found
  · exact ⟨process, process.parentProcessId, found, rfl, .inl rfl⟩
  · rw [Registry.lookup_mapEntries] at found
    obtain ⟨old, oldFound, rfl⟩ := Option.map_eq_some_iff.mp found
    split
    · exact ⟨old, 0, oldFound, rfl, .inr rfl⟩
    · exact ⟨old, old.parentProcessId, oldFound, rfl, .inl rfl⟩

@[simp]
theorem nextId_orphanLaunchedProcesses (kernel : Kernel) (launcher : ProcessId) :
    (kernel.orphanLaunchedProcesses launcher).processes.nextId = kernel.processes.nextId := by
  unfold orphanLaunchedProcesses
  split <;> rfl

/-! ## What a call writes to one thread -/

/-- The writes of the core to one thread, which may be the current one. -/
inductive ThreadWrite (isCurrent : Prop) : Thread → Thread → Prop
  | detach (thread) : ThreadWrite isCurrent thread { thread with waitStatus := .none }
  | leaveWait (thread cause) (alive : thread.currentState ≠ .terminated)
      (guarded : ¬ isCurrent ∨ thread.currentState = .waiting) :
      ThreadWrite isCurrent thread (leaveWait cause thread)
  | link (thread) : ThreadWrite isCurrent thread { thread with inReadyQueue := true }
  | unlink (thread) : ThreadWrite isCurrent thread { thread with inReadyQueue := false }
  | terminate (thread) (notCurrent : ¬ isCurrent) :
      ThreadWrite isCurrent thread
        { thread with waitStatus := .none, wakeTick := 0, currentState := .terminated }

/-- Where a thread of the later state comes from. -/
def Written (before : Kernel) (id : ThreadId) (thread : Thread) : Prop :=
  ∃ old, before.thread id = some old ∧
    Relation.ReflTransGen (ThreadWrite (before.currentThread = some id)) old thread

variable {id : ThreadId} {thread : Thread} {before after : Kernel}

theorem Written.of_modifyThread {target : ThreadId}
    (rewritten : Rewrites before after target update)
    (writes : ∀ thread, before.thread target = some thread →
      ThreadWrite (before.currentThread = some target) thread (update thread))
    (found : after.thread id = some thread) :
    Written before id thread := by
  rcases written_cases (rewritten _) found with ⟨rfl, old, oldFound, rfl⟩ | ⟨-, found⟩
  · exact ⟨old, oldFound, .single (writes old oldFound)⟩
  · exact ⟨thread, found, .refl⟩

/-- A thread that is not waiting is never put in the waiting state. -/
theorem CoreFrame.not_waiting (frame : CoreFrame before after)
    (settled : ∀ thread, before.thread id = some thread → thread.currentState ≠ .waiting)
    (thread : Thread) (found : after.thread id = some thread) :
    thread.currentState ≠ .waiting := by
  obtain ⟨old, oldFound, -, -, -, waiting, -⟩ := frame.thread id thread found
  intro isWaiting
  exact settled old oldFound (waiting isWaiting)

theorem mem_processThreads_iff {kernel : Kernel} {process : ProcessId} :
    id ∈ kernel.processThreads process ↔
      ∃ thread, kernel.thread id = some thread ∧ thread.parent = some process := by
  simp only [processThreads, Kernel.thread, List.mem_map, List.mem_filter, decide_eq_true_eq]
  constructor
  · rintro ⟨entry, ⟨mem, parent⟩, rfl⟩
    exact ⟨entry.2, kernel.threads.lookup_of_mem mem, parent⟩
  · rintro ⟨thread, found, parent⟩
    exact ⟨(id, thread), ⟨kernel.threads.mem_of_lookup found, parent⟩, rfl⟩

/-- No thread appears below a process during a path. -/
theorem CoreFrame.processThreads_nil (frame : CoreFrame before after)
    {process : ProcessId} (empty : before.processThreads process = []) :
    after.processThreads process = [] := by
  rw [List.eq_nil_iff_forall_not_mem] at empty ⊢
  intro id mem
  obtain ⟨thread, found, parent⟩ := mem_processThreads_iff.mp mem
  obtain ⟨old, oldFound, sameParent, -⟩ := frame.thread id thread found
  exact empty id (mem_processThreads_iff.mpr ⟨old, oldFound, sameParent.symm.trans parent⟩)

end RosKernel.Kernel
