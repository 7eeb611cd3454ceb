import RosKernel.Kernel.State

/-!
# Ready queues and the sleep queue

The queue primitives of the scheduler. The intrusive links of a queue are a list
of thread identifiers; `ready_next` is shared with the retired list, so retiring a
thread that is still linked in a ready queue is outside the model
(`queueRetiredThread` has no result there).
-/

namespace RosKernel

def threadIsRunnable (thread : Thread) : Bool :=
  thread.currentState ≠ .waiting && thread.currentState ≠ .suspended &&
    thread.currentState ≠ .terminated

theorem awake_of_threadIsRunnable {thread : Thread} (runnable : threadIsRunnable thread = true) :
    thread.currentState ≠ .waiting ∧ thread.currentState ≠ .terminated := by
  simp only [threadIsRunnable, Bool.and_eq_true, decide_eq_true_eq] at runnable
  exact ⟨runnable.1.1, runnable.2⟩

def resetQuantum (thread : Thread) : Thread :=
  { thread with
    quantumTicksRemaining :=
      if thread.quantumTicks = 0 then threadDefaultQuantumTicks
      else thread.quantumTicks }

namespace Kernel

def threadCanEnterReadyQueue (kernel : Kernel) (id : ThreadId) (thread : Thread) : Bool :=
  threadIsRunnable thread && kernel.idleThread ≠ some id

/-- `highest_ready_priority`: the lowest set bit of the bitmap. -/
def highestReadyPriority (kernel : Kernel) : Option ℕ :=
  (List.range threadPriorityLevelCount).find? fun priority =>
    kernel.readyBitmap.getLsbD priority

/-- Link a thread into the queue of its priority. -/
def linkReady (kernel : Kernel) (id : ThreadId) (priority : ℕ) (atTail : Bool) : Kernel :=
  { kernel with
    readyQueues := Function.update kernel.readyQueues priority
      (if atTail then kernel.readyQueues priority ++ [id]
       else id :: kernel.readyQueues priority)
    readyBitmap := kernel.readyBitmap ||| BitVec.twoPow 32 priority
    readyCount := kernel.readyCount + 1 }.modifyThread id fun thread =>
      { thread with inReadyQueue := true }

def readyQueuePush (id : ThreadId) (atTail : Bool) (kernel : Kernel) : Status × Kernel :=
  match kernel.thread id with
  | none => (.invalidArgument, kernel)
  | some thread =>
    if !kernel.threadCanEnterReadyQueue id thread ||
        !decide (thread.currentPriority < threadPriorityLevelCount) then
      (.invalidArgument, kernel)
    else if thread.inReadyQueue then (.alreadyExists, kernel)
    else (.ok, kernel.linkReady id thread.currentPriority atTail)

/-- Unlink a thread from the queue of a priority. -/
def unlinkReady (kernel : Kernel) (id : ThreadId) (priority : ℕ) : Kernel :=
  let remaining := (kernel.readyQueues priority).erase id
  { kernel with
    readyQueues := Function.update kernel.readyQueues priority remaining
    readyCount := kernel.readyCount - 1
    readyBitmap :=
      if remaining = [] then kernel.readyBitmap &&& ~~~BitVec.twoPow 32 priority
      else kernel.readyBitmap }.modifyThread id fun thread =>
      { thread with inReadyQueue := false }

def readyQueueRemove (id : ThreadId) (kernel : Kernel) : Kernel :=
  match kernel.thread id with
  | none => kernel
  | some thread =>
    if !thread.inReadyQueue ||
        !decide (thread.currentPriority < threadPriorityLevelCount) then kernel
    else kernel.unlinkReady id thread.currentPriority

def sleepQueueRemove (id : ThreadId) (kernel : Kernel) : Kernel :=
  { kernel with sleepQueue := kernel.sleepQueue.erase id }

/-- The tick at which a thread wants to be woken. -/
def wakeTickOf (kernel : Kernel) (id : ThreadId) : ℕ :=
  ((kernel.thread id).map Thread.wakeTick).getD 0

/-- `sleep_queue_insert_sorted`: behind every thread that wakes no later. -/
def sleepQueueInsertSorted (id : ThreadId) (kernel : Kernel) : Kernel :=
  let others := kernel.sleepQueue.erase id
  let notLater := fun other => decide (kernel.wakeTickOf other ≤ kernel.wakeTickOf id)
  { kernel with
    sleepQueue := others.takeWhile notLater ++ id :: others.dropWhile notLater }

/-- `ready_queue_pop_best`: unlink heads of the best queues until one is ready.
The first argument bounds the rounds of the loop. -/
def readyQueuePopBest : ℕ → Kernel → Option (Option ThreadId × Kernel)
  | 0, _ => none
  | rounds + 1, kernel =>
    match kernel.highestReadyPriority with
    | none => some (none, kernel)
    | some priority =>
      match kernel.readyQueues priority with
      | [] =>
        readyQueuePopBest rounds
          { kernel with
            readyBitmap :=
              kernel.readyBitmap &&& ~~~BitVec.twoPow 32 priority }
      | id :: _ =>
        match kernel.thread id with
        | none => none
        | some thread =>
          let unlinked := kernel.readyQueueRemove id
          if kernel.threadCanEnterReadyQueue id thread &&
              thread.currentState = .ready then
            some (some id, unlinked)
          else readyQueuePopBest rounds unlinked

def pickNextThread (rounds : ℕ) (keepCurrentIfRunnable : Bool) (kernel : Kernel) :
    Option (Option ThreadId × Kernel) := do
  let (next, kernel) ← kernel.readyQueuePopBest rounds
  match next with
  | some id => some (some id, kernel)
  | none =>
    let currentRunnable := (kernel.currentThread.bind kernel.thread).any threadIsRunnable
    if keepCurrentIfRunnable && currentRunnable &&
        kernel.currentThread ≠ kernel.idleThread then
      some (kernel.currentThread, kernel)
    else if kernel.idleThread.isSome then some (kernel.idleThread, kernel)
    else some (kernel.currentThread, kernel)

def queueRetiredThread (id : ThreadId) (kernel : Kernel) : Option Kernel := do
  let thread ← kernel.thread id
  if thread.inReadyQueue then none
  else some { kernel with retiredThreads := kernel.retiredThreads ++ [id] }

def forget (id : ThreadId) (kernel : Kernel) : Kernel :=
  let kernel := (kernel.readyQueueRemove id).sleepQueueRemove id
  let kernel :=
    if kernel.currentThread = some id then { kernel with currentThread := none }
    else kernel
  kernel.modifyThread id fun thread =>
    { thread with waitStatus := .none, wakeTick := 0 }

/-! ## What the queue primitives change -/

section

variable (kernel : Kernel) (id : ThreadId) (priority : ℕ)
include kernel id priority

theorem thread_linkReady (atTail : Bool) (other : ThreadId) :
    (kernel.linkReady id priority atTail).thread other =
      if other = id then
        (kernel.thread other).map fun thread => { thread with inReadyQueue := true }
      else kernel.thread other :=
  thread_modifyThread _ _ _ _

theorem thread_unlinkReady (other : ThreadId) :
    (kernel.unlinkReady id priority).thread other =
      if other = id then
        (kernel.thread other).map fun thread => { thread with inReadyQueue := false }
      else kernel.thread other :=
  thread_modifyThread _ _ _ _

theorem readyQueues_linkReady (atTail : Bool) :
    (kernel.linkReady id priority atTail).readyQueues = Function.update kernel.readyQueues priority
        (if atTail then kernel.readyQueues priority ++ [id]
         else id :: kernel.readyQueues priority) :=
  rfl

theorem readyBitmap_linkReady (atTail : Bool) :
    (kernel.linkReady id priority atTail).readyBitmap =
      kernel.readyBitmap ||| BitVec.twoPow 32 priority :=
  rfl

theorem readyQueues_unlinkReady :
    (kernel.unlinkReady id priority).readyQueues =
      Function.update kernel.readyQueues priority ((kernel.readyQueues priority).erase id) :=
  rfl

theorem readyBitmap_unlinkReady :
    (kernel.unlinkReady id priority).readyBitmap =
      if (kernel.readyQueues priority).erase id = [] then
        kernel.readyBitmap &&& ~~~BitVec.twoPow 32 priority
      else kernel.readyBitmap :=
  rfl

end

/-- A push either refuses and changes nothing, or links an eligible thread. -/
theorem readyQueuePush_cases
    {kernel pushed : Kernel} {id : ThreadId} {atTail : Bool} {status : Status}
    (push : kernel.readyQueuePush id atTail = (status, pushed)) :
    (status ≠ .ok ∧ pushed = kernel) ∨ ∃ thread, kernel.thread id = some thread ∧
        kernel.threadCanEnterReadyQueue id thread = true ∧
        thread.currentPriority < threadPriorityLevelCount ∧
        thread.inReadyQueue = false ∧ status = .ok ∧
        pushed = kernel.linkReady id thread.currentPriority atTail := by
  unfold readyQueuePush at push
  cases found : kernel.thread id with
  | none =>
    rw [found] at push
    cases push
    exact .inl ⟨by decide, rfl⟩
  | some thread =>
    rw [found] at push
    dsimp only at push
    split at push
    · cases push
      exact .inl ⟨by decide, rfl⟩
    · split at push
      · cases push
        exact .inl ⟨by decide, rfl⟩
      · rename_i eligible notQueued
        cases push
        simp only [Bool.or_eq_true, Bool.not_eq_true', decide_eq_false_iff_not,
          not_or, Bool.not_eq_false, not_not] at eligible
        exact .inr ⟨thread, rfl, eligible.1, eligible.2, by simpa using notQueued, rfl, rfl⟩

/-- A removal either finds nothing to unlink or unlinks a queued thread. -/
theorem readyQueueRemove_cases (kernel : Kernel) (id : ThreadId) :
    (kernel.readyQueueRemove id = kernel ∧
      ∀ thread, kernel.thread id = some thread → thread.inReadyQueue = true →
        ¬ thread.currentPriority < threadPriorityLevelCount) ∨
      ∃ thread, kernel.thread id = some thread ∧ thread.inReadyQueue = true ∧
        thread.currentPriority < threadPriorityLevelCount ∧
        kernel.readyQueueRemove id = kernel.unlinkReady id thread.currentPriority := by
  unfold readyQueueRemove
  cases found : kernel.thread id with
  | none => exact .inl ⟨rfl, by simp⟩
  | some thread =>
    by_cases queued : thread.inReadyQueue = true
    · by_cases valid : thread.currentPriority < threadPriorityLevelCount
      · exact .inr ⟨thread, rfl, queued, valid, by simp [queued, valid]⟩
      · refine .inl ⟨by simp [valid], ?_⟩
        rintro _ ⟨⟩ _
        exact valid
    · refine .inl ⟨by simp [queued], ?_⟩
      rintro _ ⟨⟩ isQueued
      exact absurd isQueued queued

/-- A removal writes the ready queues and the flag of the thread only. -/
theorem readyQueueRemove_eq (kernel : Kernel) (id : ThreadId) :
    kernel.readyQueueRemove id = { kernel with
      threads := (kernel.readyQueueRemove id).threads
      readyQueues := (kernel.readyQueueRemove id).readyQueues
      readyCount := (kernel.readyQueueRemove id).readyCount
      readyBitmap := (kernel.readyQueueRemove id).readyBitmap } := by
  rcases readyQueueRemove_cases kernel id with ⟨same, -⟩ | ⟨_, -, -, -, removal⟩
  · rw [same]
  · rw [removal]
    rfl

theorem thread_readyQueueRemove (kernel : Kernel) (id other : ThreadId) :
    (kernel.readyQueueRemove id).thread other =
      if other = id then
        (kernel.thread other).map fun thread => { thread with
          inReadyQueue := thread.inReadyQueue &&
            !decide (thread.currentPriority < threadPriorityLevelCount) }
      else kernel.thread other := by
  rcases readyQueueRemove_cases kernel id with
    ⟨same, unqueued⟩ | ⟨thread, found, queued, valid, removal⟩
  · rw [same]
    split
    · rename_i isTarget
      subst isTarget
      cases found : kernel.thread other with
      | none => rfl
      | some thread =>
        have kept : (thread.inReadyQueue &&
            !decide (thread.currentPriority < threadPriorityLevelCount)) =
            thread.inReadyQueue := by
          cases flag : thread.inReadyQueue with
          | false => rfl
          | true => simp [unqueued thread found flag]
        rw [Option.map_some, kept]
    · rfl
  · rw [removal, thread_unlinkReady]
    split
    · rename_i isTarget
      subst isTarget
      simp [found, valid]
    · rfl

end Kernel

end RosKernel
