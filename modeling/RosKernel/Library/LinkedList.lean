import Mathlib.Data.List.Chain
import Mathlib.Data.List.Nodup

/-!
# Doubly linked lists

Intrusive lists whose nodes carry both links, with a head, a tail and a counter.
`Represents` names the list that a set of links stands for; each primitive of the linked
list is an operation on that list.
-/

universe u

/-- Links of the nodes, and the anchor of the list. -/
structure Links (α : Type u) where
  next : α → Option α
  prev : α → Option α
  head : Option α
  tail : Option α
  size : ℕ

namespace Links

open List Function

variable {α : Type u} [DecidableEq α]

/-- No node is linked. -/
def empty : Links α where
  next := fun _ => none
  prev := fun _ => none
  head := none
  tail := none
  size := 0

/-- Set the successor of a node, if there is one to set. -/
def setNext (links : Links α) (node : α) (value : Option α) : Links α :=
  { links with next := Function.update links.next node value }

/-- Set the predecessor of a node. -/
def setPrev (links : Links α) (node : α) (value : Option α) : Links α :=
  { links with prev := Function.update links.prev node value }

/-- Unlink a node from wherever it is. -/
def remove (links : Links α) (node : α) : Links α :=
  let before := links.prev node
  let after := links.next node
  let bypassed := match before with
    | some previous => links.setNext previous after
    | none => { links with head := after }
  let unlinked := match after with
    | some following => bypassed.setPrev following before
    | none => { bypassed with tail := before }
  let counted := { unlinked with size := unlinked.size - 1 }
  (counted.setNext node none).setPrev node none

/-- Link a node behind the tail. -/
def append (links : Links α) (node : α) : Links α :=
  let detached := links.setNext node none
  let attached := match detached.tail with
    | some last => (detached.setNext last (some node)).setPrev node (some last)
    | none => { detached.setPrev node none with head := some node }
  { attached with tail := some node, size := attached.size + 1 }

/-- Link a node before the head. -/
def prepend (links : Links α) (node : α) : Links α :=
  let detached := links.setPrev node none
  let attached := match detached.head with
    | some first => (detached.setNext node (some first)).setPrev first (some node)
    | none => { detached.setNext node none with tail := some node }
  { attached with head := some node, size := attached.size + 1 }

/-- Unlink the head. -/
def popHead (links : Links α) : Option α × Links α :=
  match links.head with
  | none => (none, links)
  | some first =>
    let advanced := { links with head := links.next first }
    let detached := match advanced.head with
      | some following => advanced.setPrev following none
      | none => { advanced with tail := none }
    let counted := { detached with size := detached.size - 1 }
    (some first, (counted.setNext first none).setPrev first none)

/-- Unlink the tail. -/
def popTail (links : Links α) : Option α × Links α :=
  match links.tail with
  | none => (none, links)
  | some last =>
    let retreated := { links with tail := links.prev last }
    let detached := match retreated.tail with
      | some previous => retreated.setNext previous none
      | none => { retreated with head := none }
    let counted := { detached with size := detached.size - 1 }
    (some last, (counted.setNext last none).setPrev last none)

/-- Two nodes that follow each other. -/
def Adjacent (links : Links α) (left right : α) : Prop :=
  links.next left = some right ∧ links.prev right = some left

/-- The links stand for a list of nodes. -/
structure Represents (links : Links α) (nodes : List α) : Prop where
  distinct : nodes.Nodup
  head : links.head = nodes.head?
  tail : links.tail = nodes.getLast?
  size : links.size = nodes.length
  adjacent : nodes.IsChain links.Adjacent
  first : ∀ node ∈ nodes.head?, links.prev node = none
  last : ∀ node ∈ nodes.getLast?, links.next node = none

variable {links changed : Links α} {nodes : List α} {node : α}

omit [DecidableEq α] in
theorem represents_empty : (empty : Links α).Represents [] :=
  ⟨nodup_nil, rfl, rfl, rfl, .nil, nofun, nofun⟩

omit [DecidableEq α] in
/-- Links that name the neighbours of every node stand for the list. -/
theorem Represents.of_neighbours (distinct : nodes.Nodup) (head : links.head = nodes.head?)
    (tail : links.tail = nodes.getLast?) (size : links.size = nodes.length)
    (neighbours : ∀ front node back, nodes = front ++ node :: back →
      links.prev node = front.getLast? ∧ links.next node = back.head?) :
    links.Represents nodes := by
  refine ⟨distinct, head, tail, size, ?_, ?_, ?_⟩
  · refine isChain_iff_forall_rel_of_append_cons_cons.mpr ?_
    rintro left right front back rfl
    have after := (neighbours front left (right :: back) rfl).2
    have before := (neighbours (front ++ [left]) right back (by simp)).1
    exact ⟨after, by simpa using before⟩
  · intro node isFirst
    obtain ⟨back, rfl⟩ := List.head?_eq_some_iff.mp isFirst
    exact (neighbours [] node back rfl).1
  · intro node isLast
    obtain ⟨front, rfl⟩ := List.getLast?_eq_some_iff.mp isLast
    exact (neighbours front node [] rfl).2

omit [DecidableEq α] in
/-- Links stand for one list. -/
theorem Represents.unique {others : List α} (represents : links.Represents nodes)
    (alternative : links.Represents others) : nodes = others := by
  have sameHead : nodes.head? = others.head? := represents.head.symm.trans alternative.head
  have sameLength : nodes.length = others.length := represents.size.symm.trans alternative.size
  have chained := represents.adjacent
  have otherChained := alternative.adjacent
  clear represents alternative
  induction nodes generalizing others with
  | nil => exact (length_eq_zero_iff.mp sameLength.symm).symm
  | cons first rest ih =>
    cases others with
    | nil => cases sameHead
    | cons otherFirst otherRest =>
      obtain rfl : first = otherFirst := by simpa using sameHead
      refine congrArg (first :: ·) (ih ?_ ?_ chained.tail otherChained.tail)
      · cases rest with
        | nil => cases otherRest with
          | nil => rfl
          | cons => simp at sameLength
        | cons => cases otherRest with
          | nil => simp at sameLength
          | cons =>
            have left := (isChain_cons_cons.mp chained).1.1
            have right := (isChain_cons_cons.mp otherChained).1.1
            simpa using left.symm.trans right
      · simpa using sameLength

variable {front back : List α}

omit [DecidableEq α] in
/-- The neighbours of a node of the list. -/
theorem Represents.neighbours (represents : links.Represents (front ++ node :: back)) :
    links.prev node = front.getLast? ∧ links.next node = back.head? := by
  obtain ⟨-, chained, joined⟩ := isChain_append.mp represents.adjacent
  constructor
  · rcases eq_nil_or_concat front with rfl | ⟨_, previous, rfl⟩
    · exact represents.first node rfl
    · simpa using (joined previous (by simp) node (by simp)).2
  · cases back with
    | nil => exact represents.last node (by simp)
    | cons => exact (isChain_cons_cons.mp chained).1.1

variable {other : α}

theorem next_remove (ne : other ≠ node) :
    (links.remove node).next other =
      if links.prev node = some other then links.next node else links.next other := by
  cases before : links.prev node <;> cases after : links.next node <;>
    simp [remove, setNext, setPrev, before, after, ne, update_apply, eq_comm]

theorem prev_remove (ne : other ≠ node) :
    (links.remove node).prev other =
      if links.next node = some other then links.prev node else links.prev other := by
  cases before : links.prev node <;> cases after : links.next node <;>
    simp [remove, setNext, setPrev, before, after, ne, update_apply, eq_comm]

theorem head_remove :
    (links.remove node).head = if links.prev node = none then links.next node else links.head := by
  cases before : links.prev node <;> cases after : links.next node <;>
    simp [remove, setNext, setPrev, before, after]

theorem tail_remove :
    (links.remove node).tail = if links.next node = none then links.prev node else links.tail := by
  cases before : links.prev node <;> cases after : links.next node <;>
    simp [remove, setNext, setPrev, before, after]

theorem size_remove : (links.remove node).size = links.size - 1 := by
  cases before : links.prev node <;> cases after : links.next node <;>
    simp [remove, setNext, setPrev, before, after]

omit [DecidableEq α] in
/-- A node of a list without repetitions is not among the nodes before it. -/
theorem notMem_of_nodup_append (distinct : (front ++ node :: back).Nodup) : node ∉ front :=
  fun mem => (nodup_append.mp distinct).2.2 node mem node (by simp) rfl

omit [DecidableEq α] in
/-- A node of two joined lists lies in the second or in the first. -/
theorem split_append {front back left right : List α}
    (split : front ++ back = left ++ node :: right) :
    (∃ middle, left = front ++ middle ∧ back = middle ++ node :: right) ∨
      ∃ middle, front = left ++ node :: middle ∧ right = middle ++ back := by
  rcases append_eq_append_iff.mp split with behind | ⟨middle, rfl, rest⟩
  · exact .inl behind
  · cases middle with
    | nil => exact .inl ⟨[], by simp, rest.symm⟩
    | cons =>
      obtain ⟨rfl, rfl⟩ := cons_eq_cons.mp rest
      exact .inr ⟨_, rfl, rfl⟩

/-- Removing a node takes it out of the middle of the list. -/
theorem Represents.remove (represents : links.Represents (front ++ node :: back)) :
    (links.remove node).Represents (front ++ back) := by
  obtain ⟨before, after⟩ := represents.neighbours
  refine .of_neighbours (represents.distinct.sublist (by simp)) ?_ ?_ ?_ ?_
  · rw [head_remove, before, after, represents.head]
    cases front <;> simp
  · rw [tail_remove, before, after, represents.tail]
    cases back <;> simp
  · rw [size_remove, represents.size]
    simp
  intro left other right split
  rcases split_append split with ⟨middle, rfl, rfl⟩ | ⟨middle, rfl, rfl⟩
  · rw [← cons_append, ← append_assoc] at represents
    obtain ⟨otherBefore, otherAfter⟩ := represents.neighbours
    have apart := notMem_of_nodup_append represents.distinct
    simp only [mem_append, mem_cons, not_or] at apart
    have notLast : front.getLast? ≠ some other := fun isLast =>
      apart.1 (mem_of_mem_getLast? isLast)
    rw [prev_remove apart.2.1, next_remove apart.2.1, before, after, otherBefore, otherAfter,
      if_neg notLast]
    cases middle with
    | nil => simp
    | cons next =>
      have ne : next ≠ other := fun same => apart.2.2 (by simp [same])
      simp [ne, getLast?_append]
  · rw [append_assoc, cons_append] at represents
    obtain ⟨otherBefore, otherAfter⟩ := represents.neighbours
    have apart := (nodup_cons.mp (nodup_append.mp represents.distinct).2.1).1
    simp only [mem_append, mem_cons, not_or] at apart
    have notFirst : back.head? ≠ some other := fun isFirst =>
      apart.2.2 (mem_of_mem_head? isFirst)
    rw [prev_remove apart.2.1, next_remove apart.2.1, before, after, otherBefore, otherAfter,
      if_neg notFirst]
    rcases eq_nil_or_concat middle with rfl | ⟨_, last, rfl⟩
    · simp
    · have ne : last ≠ other := fun same => apart.1 (by simp [same])
      simp [ne, getLast?_append, getLast?_cons]

/-- Popping the head yields the first node and leaves the rest. -/
theorem Represents.popHead (represents : links.Represents (node :: nodes)) :
    links.popHead.1 = some node ∧ links.popHead.2.Represents nodes := by
  have found : links.head = some node := represents.head
  have starts : links.prev node = none := represents.first node rfl
  have popped : links.popHead = (some node, links.remove node) := by
    cases after : links.next node <;> simp [Links.popHead, Links.remove, found, starts, after]
  rw [popped]
  exact ⟨rfl, @Represents.remove _ _ _ _ [] nodes represents⟩

/-- Popping the tail yields the last node and leaves the list before it. -/
theorem Represents.popTail (represents : links.Represents (nodes ++ [node])) :
    links.popTail.1 = some node ∧ links.popTail.2.Represents nodes := by
  have found : links.tail = some node := by simpa using represents.tail
  have ends : links.next node = none := represents.last node (by simp)
  have popped : links.popTail = (some node, links.remove node) := by
    cases before : links.prev node <;>
      simp [Links.popTail, Links.remove, setNext, found, ends, before]
  rw [popped]
  exact ⟨rfl, by simpa using represents.remove⟩

theorem next_prepend (ne : other ≠ node) : (links.prepend node).next other = links.next other := by
  cases first : links.head <;> simp [prepend, setNext, setPrev, first, ne]

theorem prev_prepend (ne : other ≠ node) :
    (links.prepend node).prev other =
      if links.head = some other then some node else links.prev other := by
  cases first : links.head <;> simp [prepend, setNext, setPrev, first, ne, update_apply, eq_comm]

/-- Prepending a node puts it before the list. -/
theorem Represents.prepend (represents : links.Represents nodes) (fresh : node ∉ nodes) :
    (links.prepend node).Represents (node :: nodes) := by
  have head := represents.head
  have tail := represents.tail
  refine .of_neighbours (nodup_cons.mpr ⟨fresh, represents.distinct⟩) rfl ?_ ?_ ?_
  · cases nodes <;> simp_all [Links.prepend, setNext, setPrev]
  · cases first : links.head <;> simp [Links.prepend, setNext, setPrev, first, represents.size]
  rintro (_ | ⟨_, left⟩) other right split
  · obtain ⟨rfl, rfl⟩ := cons_eq_cons.mp split
    cases nodes <;> simp_all [Links.prepend, setNext, setPrev]
  · obtain ⟨rfl, rfl⟩ := cons_eq_cons.mp split
    obtain ⟨before, after⟩ := represents.neighbours
    have ne : other ≠ node := fun same => fresh (by simp [same])
    rw [next_prepend ne, prev_prepend ne, head, before, after]
    cases left with
    | nil => simp
    | cons first =>
      have ne : first ≠ other := fun same =>
        notMem_of_nodup_append represents.distinct (by simp [same])
      simp [ne]

theorem next_append (ne : other ≠ node) :
    (links.append node).next other =
      if links.tail = some other then some node else links.next other := by
  cases last : links.tail <;> simp [append, setNext, setPrev, last, ne, update_apply, eq_comm]

theorem prev_append (ne : other ≠ node) : (links.append node).prev other = links.prev other := by
  cases last : links.tail <;> simp [append, setNext, setPrev, last, ne]

/-- Appending a node puts it behind the list. -/
theorem Represents.append (represents : links.Represents nodes) (fresh : node ∉ nodes) :
    (links.append node).Represents (nodes ++ [node]) := by
  have head := represents.head
  have tail := represents.tail
  refine .of_neighbours (by simpa using represents.distinct.concat fresh) ?_
    (by simp [Links.append]) ?_ ?_
  · rcases eq_nil_or_concat nodes with rfl | ⟨_, _, rfl⟩ <;>
      simp_all [Links.append, setNext, setPrev]
  · cases last : links.tail <;> simp [Links.append, setNext, setPrev, last, represents.size]
  intro left other right split
  rcases split_append split with ⟨middle, rfl, isNode⟩ | ⟨middle, rfl, rfl⟩
  · obtain ⟨rfl, rfl, rfl⟩ : middle = [] ∧ node = other ∧ right = [] := by
      cases middle <;> simp_all
    rcases eq_nil_or_concat nodes with rfl | ⟨_, _, rfl⟩ <;>
      simp_all [Links.append, setNext, setPrev]
  · obtain ⟨before, after⟩ := represents.neighbours
    have ne : other ≠ node := fun same => fresh (by simp [same])
    rw [next_append ne, prev_append ne, tail, before, after]
    rcases eq_nil_or_concat middle with rfl | ⟨_, last, rfl⟩
    · simp
    · have ne : last ≠ other := fun same =>
        (nodup_cons.mp (nodup_append.mp represents.distinct).2.1).1 (by simp [same])
      simp [ne, getLast?_cons, getLast?_append]

end Links
