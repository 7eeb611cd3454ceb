import Mathlib.Data.List.Nodup
import Mathlib.Logic.Relation

/-!
# The window thread's event queue

`gwes_window_queue_push_entry` and `gwes_window_queue_pop_entry` in `window_thread.cpp`. A
thread that takes the lock reads the queue and makes its stores one by one, between steps of
other threads. The wake sequence is left out.
-/

namespace RosKernel.WindowQueue

open List Function Relation

/-- `GwesWindowQueueEntry` without its link, with the bytes of the packet or event. -/
inductive Entry
  | protocolPacket (packet : List UInt8)
  | inputEvent (type : ℕ) (event : List UInt8)

/-- `ROS_KERNEL_GUI_INPUT_EVENT_POINTER_MOVE`. -/
def pointerMove : ℕ := 1

def Entry.isMove : Entry → Bool
  | protocolPacket _ => false
  | inputEvent type _ => type = pointerMove

/-- `g_gwes_window_queue_head`, `g_gwes_window_queue_tail` and the nodes. -/
structure Queue where
  head : Option ℕ
  tail : Option ℕ
  next : ℕ → Option ℕ
  entry : ℕ → Entry

/-- One assignment to the queue or to a node. -/
inductive Store
  | head (node : Option ℕ)
  | tail (node : Option ℕ)
  | next (node : ℕ) (target : Option ℕ)
  | entry (node : ℕ) (value : Entry)

namespace Queue

@[simp]
def apply (queue : Queue) : Store → Queue
  | .head node => { queue with head := node }
  | .tail node => { queue with tail := node }
  | .next node target => { queue with next := update queue.next node target }
  | .entry node value => { queue with entry := update queue.entry node value }

/-- The tail is a pointer move and so is the new entry. -/
def coalesces (queue : Queue) (entry : Entry) : Bool :=
  entry.isMove && queue.tail.any fun last => (queue.entry last).isMove

/-- What `gwes_window_queue_push_entry` does with the lock held. The node is filled earlier in
the source, when only the pushing thread knows it. -/
def pushStores (queue : Queue) (node : ℕ) (entry : Entry) : List Store :=
  match queue.tail with
  | none => [.entry node entry, .next node none, .head (some node), .tail (some node)]
  | some last =>
    if queue.coalesces entry then [.entry last entry]
    else [.entry node entry, .next node none, .next last (some node), .tail (some node)]

/-- What `gwes_window_queue_pop_entry` does with the lock held and the first node found. -/
def popStores (queue : Queue) (first : ℕ) : List Store :=
  .head (queue.next first) :: if queue.next first = none then [.tail none] else []

end Queue

/-- The nodes from one on up to the last. -/
def Chain (next : ℕ → Option ℕ) : Option ℕ → List ℕ → Prop
  | start, [] => start = none
  | start, node :: rest => start = some node ∧ Chain next (next node) rest

/-- The queue holds these nodes, in this order. -/
structure Queue.Lists (queue : Queue) (nodes : List ℕ) : Prop where
  chain : Chain queue.next queue.head nodes
  tail : queue.tail = nodes.getLast?
  distinct : nodes.Nodup

/-- How far the call that allocated a node is with it. -/
inductive Place
  | free
  /-- Filled by a push that has not taken the lock yet. -/
  | allocated (entry : Entry)
  | queued
  /-- Popped or coalesced, and freed once the lock is released. -/
  | released

structure State where
  queue : Queue
  /-- The node of the call that has taken the lock, and the stores it has yet to make. -/
  lock : Option (ℕ × List Store)
  place : ℕ → Place
  /-- The pushes that were accepted, in lock order, without the moves that were replaced. -/
  accepted : List Entry
  popped : List Entry

/-- A push is accepted: a move replaces a move at the end of what is still queued. -/
def accept (popped accepted : List Entry) (entry : Entry) : List Entry :=
  if entry.isMove && (accepted.drop popped.length).getLast?.any Entry.isMove then
    accepted.dropLast ++ [entry]
  else accepted ++ [entry]

namespace State

def setPlace (state : State) (node : ℕ) (place : Place) : State :=
  { state with place := update state.place node place }

/-- A push has taken the lock. -/
def enterPush (state : State) (node : ℕ) (entry : Entry) : State :=
  { state.setPlace node (if state.queue.coalesces entry then .released else .queued) with
    lock := some (node, state.queue.pushStores node entry)
    accepted := accept state.popped state.accepted entry }

/-- A pop has taken the lock and found a node. -/
def enterPop (state : State) (first : ℕ) : State :=
  { state.setPlace first .released with
    lock := some (first, state.queue.popStores first)
    popped := state.popped ++ [state.queue.entry first] }

/-- One step of one of any number of calls in any threads. A call waits for the lock by trying
again, and a pop that finds no node changes nothing. -/
inductive Step (state : State) : State → Prop
  | malloc (node : ℕ) (entry : Entry) :
      state.place node = .free → Step state (state.setPlace node (.allocated entry))
  | push (node : ℕ) (entry : Entry) : state.lock = none →
      state.place node = .allocated entry → Step state (state.enterPush node entry)
  | pop (first : ℕ) :
      state.lock = none → state.queue.head = some first → Step state (state.enterPop first)
  | store (node : ℕ) (store : Store) (rest : List Store) :
      state.lock = some (node, store :: rest) →
      Step state { state with queue := state.queue.apply store, lock := some (node, rest) }
  | unlock (node : ℕ) : state.lock = some (node, []) → Step state { state with lock := none }
  | free (node : ℕ) : state.place node = .released → (∀ call ∈ state.lock, call.1 ≠ node) →
      Step state (state.setPlace node .free)

/-- The queue as the call that holds the lock leaves it. -/
def settled (state : State) : Queue :=
  (state.lock.elim [] Prod.snd).foldl Queue.apply state.queue

/-- No node is allocated. -/
structure Initial (state : State) : Prop where
  queue : state.queue.Lists []
  unlocked : state.lock = none
  place : ∀ node, state.place node = .free
  logs : state.accepted = [] ∧ state.popped = []

/-- The states of all interleavings. -/
def Reachable (state : State) : Prop :=
  ∃ initial : State, initial.Initial ∧ ReflTransGen Step initial state

end State

/-! ## The list of nodes -/

section

variable {next changed : ℕ → Option ℕ} {start : Option ℕ} {nodes : List ℕ} {node : ℕ}

theorem Chain.start_eq (chain : Chain next start nodes) : start = nodes.head? := by
  cases nodes with
  | nil => exact chain
  | cons => exact chain.1

/-- Only the last node has no successor. -/
theorem Chain.next_eq_none_iff (chain : Chain next start nodes) (distinct : nodes.Nodup)
    (mem : node ∈ nodes) : next node = none ↔ nodes.getLast? = some node := by
  induction nodes generalizing start with
  | nil => cases mem
  | cons first rest ih =>
    obtain ⟨notLater, distinct⟩ := nodup_cons.mp distinct
    obtain ⟨-, chain⟩ := chain
    cases rest with
    | nil =>
      rw [mem_singleton.mp mem]
      exact iff_of_true chain rfl
    | cons =>
      rcases mem_cons.mp mem with rfl | later
      · refine iff_of_false (by simp [chain.1]) fun isLast => ?_
        exact notLater (mem_of_getLast? isLast)
      · exact ih chain distinct later

/-- Linking a node behind the last one. -/
theorem Chain.concat (chain : Chain next start nodes) (new : changed node = none)
    (linked : ∀ other ∈ nodes, changed other = (next other).or (some node)) :
    Chain changed (start.or (some node)) (nodes ++ [node]) := by
  induction nodes generalizing start with
  | nil =>
    cases chain
    exact ⟨rfl, new⟩
  | cons first _ ih =>
    obtain ⟨rfl, chain⟩ := chain
    refine ⟨rfl, ?_⟩
    rw [linked first (.head _)]
    exact ih chain fun other later => linked other (.tail _ later)

end

section

variable {queue : Queue} {nodes : List ℕ} {node : ℕ} {entry : Entry}

theorem map_update_of_notMem (fresh : node ∉ nodes) :
    nodes.map (update queue.entry node entry) = nodes.map queue.entry :=
  map_congr_left fun _ mem => update_of_ne (ne_of_mem_of_not_mem mem fresh) ..

/-- A move takes the place of the move at the end. -/
theorem Queue.Lists.coalesce (lists : queue.Lists nodes) (coalesces : queue.coalesces entry)
    (node : ℕ) : let after := (queue.pushStores node entry).foldl apply queue
    after.Lists nodes ∧ nodes ≠ [] ∧
      nodes.map after.entry = (nodes.map queue.entry).dropLast ++ [entry] := by
  obtain ⟨chain, tail, distinct⟩ := lists
  rcases eq_nil_or_concat nodes with rfl | ⟨front, last, rfl⟩
  · rw [Queue.coalesces, tail] at coalesces
    simp at coalesces
  have notFront : last ∉ front := ((nodup_concat _ _).mp (by simpa using distinct)).1
  have isTail : queue.tail = some last := by simpa using tail
  simp only [pushStores, isTail, coalesces]
  exact ⟨⟨chain, tail, distinct⟩, by simp, by simp [map_update_of_notMem notFront]⟩

/-- Any other entry goes behind the end. -/
theorem Queue.Lists.push (lists : queue.Lists nodes) (fresh : node ∉ nodes)
    (new : queue.coalesces entry = false) :
    let after := (queue.pushStores node entry).foldl apply queue
    after.Lists (nodes ++ [node]) ∧
      (nodes ++ [node]).map after.entry = nodes.map queue.entry ++ [entry] := by
  obtain ⟨chain, tail, distinct⟩ := lists
  have head := chain.start_eq
  have grown : (nodes ++ [node]).Nodup := by simpa using distinct.concat fresh
  cases isTail : queue.tail with
  | none =>
    obtain rfl : nodes = [] := getLast?_eq_none_iff.mp (tail.symm.trans isTail)
    simp only [pushStores, isTail]
    exact ⟨⟨⟨rfl, update_self ..⟩, rfl, grown⟩, by simp⟩
  | some last =>
    have isLast : nodes.getLast? = some last := tail.symm.trans isTail
    have lastMember : last ∈ nodes := mem_of_getLast? isLast
    simp only [pushStores, isTail, new]
    refine ⟨⟨?_, by simp, grown⟩, by simp [map_update_of_notMem fresh]⟩
    have started : queue.head.or (some node) = queue.head := by
      cases nodes <;> simp_all
    refine started ▸ chain.concat ?_ fun other mem => ?_
    · simp [(ne_of_mem_of_not_mem lastMember fresh).symm]
    · have ends := chain.next_eq_none_iff distinct mem
      have ne := ne_of_mem_of_not_mem mem fresh
      by_cases same : other = last
      · subst same
        simp [ends.mpr isLast]
      · cases after : queue.next other <;> simp_all

/-- The first node is taken out. -/
theorem Queue.Lists.pop (lists : queue.Lists (node :: nodes)) :
    let after := (queue.popStores node).foldl apply queue
    after.Lists nodes ∧ after.entry = queue.entry := by
  obtain ⟨⟨-, chain⟩, tail, distinct⟩ := lists
  have distinct := distinct.of_cons
  cases nodes with
  | nil =>
    have ends : queue.next node = none := chain
    simp only [popStores, ends]
    exact ⟨⟨rfl, rfl, distinct⟩, rfl⟩
  | cons second =>
    have follows : queue.next node = some second := chain.1
    rw [follows] at chain
    simp only [popStores, follows]
    exact ⟨⟨chain, tail, distinct⟩, rfl⟩

end

/-! ## Runs -/

namespace State

/-- What is popped and what is queued make up what was accepted, and the nodes of the queue are
nobody else's. -/
structure Invariant (state : State) (nodes : List ℕ) : Prop where
  lists : state.settled.Lists nodes
  kept : state.popped ++ nodes.map state.settled.entry = state.accepted
  queued : ∀ node ∈ nodes, state.place node = .queued

variable {state next : State} {nodes : List ℕ} {node : ℕ}

/-- A node that is not queued changes hands. -/
theorem Invariant.setPlace (invariant : state.Invariant nodes)
    (notQueued : state.place node ≠ .queued) (place : Place) :
    (state.setPlace node place).Invariant nodes := by
  refine ⟨invariant.lists, invariant.kept, fun other mem => ?_⟩
  have queued := invariant.queued other mem
  have ne : other ≠ node := by
    rintro rfl
    exact notQueued queued
  exact (update_of_ne ne ..).trans queued

theorem Invariant.enterPush (invariant : state.Invariant nodes) (unlocked : state.lock = none)
    {entry : Entry} (allocated : state.place node = .allocated entry) :
    ∃ nodes, (state.enterPush node entry).Invariant nodes := by
  have moved := @invariant.setPlace _ _ node (by simp [allocated])
  obtain ⟨lists, kept, queued⟩ := invariant
  have fresh : node ∉ nodes := fun mem => by cases allocated.symm.trans (queued node mem)
  rw [show state.settled = state.queue by simp [settled, unlocked]] at lists kept
  have decided : accept state.popped state.accepted entry =
      if state.queue.coalesces entry then state.accepted.dropLast ++ [entry]
      else state.accepted ++ [entry] := by
    rw [accept, ← kept, drop_left, getLast?_map, ← lists.tail, Option.any_map]
    rfl
  unfold State.enterPush
  rw [decided, ← kept]
  cases coalesces : state.queue.coalesces entry with
  | true =>
    obtain ⟨same, nonempty, replaced⟩ := lists.coalesce coalesces node
    refine ⟨nodes, same, ?_, (moved _).queued⟩
    rw [if_pos rfl, dropLast_append_of_ne_nil (by simpa using nonempty), append_assoc, ← replaced]
    rfl
  | false =>
    obtain ⟨longer, added⟩ := lists.push fresh coalesces
    refine ⟨nodes ++ [node], longer, ?_, fun other mem => ?_⟩
    · rw [if_neg nofun, append_assoc, ← added]
      rfl
    · rcases mem_append.mp mem with old | isNode
      · exact (moved _).queued other old
      · rw [mem_singleton.mp isNode]
        exact update_self ..

theorem Invariant.enterPop (invariant : state.Invariant nodes) (unlocked : state.lock = none)
    (first : state.queue.head = some node) :
    ∃ nodes, (state.enterPop node).Invariant nodes := by
  obtain ⟨lists, kept, queued⟩ := invariant
  rw [show state.settled = state.queue by simp [settled, unlocked]] at lists kept
  obtain ⟨rest, rfl⟩ := head?_eq_some_iff.mp (lists.chain.start_eq.symm.trans first)
  obtain ⟨shorter, same⟩ := lists.pop
  refine ⟨rest, shorter, ?_, fun other mem => ?_⟩
  · refine Eq.trans ?_ kept
    have popped := append_cons state.popped (state.queue.entry node) (rest.map state.queue.entry)
    rw [map_cons, popped]
    exact congrArg (_ ++ rest.map ·) same
  · have ne : other ≠ node := ne_of_mem_of_not_mem mem (nodup_cons.mp lists.distinct).1
    exact (update_of_ne ne ..).trans (queued other (.tail _ mem))

theorem Invariant.step (invariant : state.Invariant nodes) (step : state.Step next) :
    ∃ nodes, next.Invariant nodes := by
  cases step with
  | malloc _ _ isFree => exact ⟨nodes, invariant.setPlace (by simp [isFree]) _⟩
  | push _ _ unlocked allocated => exact invariant.enterPush unlocked allocated
  | pop _ unlocked first => exact invariant.enterPop unlocked first
  | store _ _ _ locked | unlock _ locked =>
    obtain ⟨lists, kept, queued⟩ := invariant
    rw [settled, locked] at lists kept
    exact ⟨nodes, lists, kept, queued⟩
  | free _ released => exact ⟨nodes, invariant.setPlace (by simp [released]) _⟩

end State

/-- In every run, whatever the interleaving, what was popped and what is queued once the call in
its critical section is through make up the accepted pushes. -/
theorem windowQueue_keepsOrder {state : State} (reachable : state.Reachable) :
    ∃ nodes, state.settled.Lists nodes ∧
      state.popped ++ nodes.map state.settled.entry = state.accepted ∧
      (state.settled.head = none ↔ nodes = []) ∧ (state.settled.tail = none ↔ nodes = []) := by
  obtain ⟨initial, isInitial, run⟩ := reachable
  obtain ⟨nodes, lists, kept, -⟩ : ∃ nodes, state.Invariant nodes := by
    induction run with
    | refl =>
      refine ⟨[], ?_, by simp [isInitial.logs], nofun⟩
      rw [State.settled, isInitial.unlocked]
      exact isInitial.queue
    | tail _ step ih =>
      obtain ⟨_, invariant⟩ := ih
      exact invariant.step step
  refine ⟨nodes, lists, kept, ?_, ?_⟩
  · rw [lists.chain.start_eq, head?_eq_none_iff]
  · rw [lists.tail, getLast?_eq_none_iff]

/-- Before the first call. -/
def State.empty : State where
  queue := ⟨none, none, fun _ => none, fun _ => .protocolPacket []⟩
  lock := none
  place _ := .free
  accepted := []
  popped := []

/-- The second of two moves finds the first one queued and takes its place. -/
theorem windowQueue_keepsOrder_twoMoves :
    ∃ state : State, state.accepted = [.inputEvent pointerMove [2]] ∧
      ∃ nodes, state.settled.Lists nodes ∧
        state.popped ++ nodes.map state.settled.entry = state.accepted ∧
        (state.settled.head = none ↔ nodes = []) ∧ (state.settled.tail = none ↔ nodes = []) := by
  have start : State.empty.Initial := ⟨⟨rfl, rfl, nodup_nil⟩, rfl, fun _ => rfl, rfl, rfl⟩
  have allocated := (ReflTransGen.single
    (@State.Step.malloc State.empty 0 (.inputEvent pointerMove [1]) rfl)).tail
    (.malloc 1 (.inputEvent pointerMove [2]) rfl)
  have stored := ((((allocated.tail (.push 0 _ rfl rfl)).tail (.store _ _ _ rfl)).tail
    (.store _ _ _ rfl)).tail (.store _ _ _ rfl)).tail (.store _ _ _ rfl)
  have second := (stored.tail (.unlock _ rfl)).tail (.push 1 _ rfl rfl)
  exact ⟨_, rfl, windowQueue_keepsOrder ⟨State.empty, start, second⟩⟩

end RosKernel.WindowQueue
