import RosKernel.Library.Runs
import RosKernel.Library.WordMemory

/-!
# The shared user heap

The allocator of `user_runtime.h`, on the bytes of the heap reservation: a state header at the
base, then blocks with intrusive headers. Every operation runs under the heap lock.
Names drop `user_shared_heap_`.
-/

namespace RosKernel.SharedHeap

open WordMemory

/-! ## Layout -/

def heapBase : ℕ := 0x20000000

def heapLimit : ℕ := 0x40000000

def heapBytes : ℕ := heapLimit - heapBase

/-- `sizeof(UserSharedHeapState)`: `magic`, `lock_word` and `head`. -/
def stateBytes : ℕ := 24

/-- `sizeof(UserSharedHeapBlock)`: `payload_bytes`, `flags`, `next` and `prev`. -/
def blockBytes : ℕ := 32

/-- `USER_SHARED_HEAP_MAGIC`. -/
def heapMagic : ℕ := 0x554845415031

/-- Addition of 64-bit words. -/
def addWord (left right : ℕ) : ℕ := (left + right) % 2 ^ 64

/-- Subtraction of 64-bit words. -/
def subWord (left right : ℕ) : ℕ := (left + (2 ^ 64 - right)) % 2 ^ 64

def alignUp (value : ℕ) : ℕ := addWord value 15 / 16 * 16

def firstBlock : ℕ := heapBase + alignUp stateBytes

def containsPointer (pointer : ℕ) : Bool := heapBase ≤ pointer ∧ pointer < heapLimit

section

variable (memory : Memory) (block : ℕ)

def payloadBytes : ℕ := load memory block

def flags : ℕ := load memory (block + 8)

def next : ℕ := load memory (block + 16)

def prev : ℕ := load memory (block + 24)

/-- Store to `block->payload_bytes`. -/
def setPayloadBytes (value : ℕ) : Memory := store memory block value

/-- Store to `block->flags`. -/
def setFlags (value : ℕ) : Memory := store memory (block + 8) value

/-- Store to `block->next`. -/
def setNext (value : ℕ) : Memory := store memory (block + 16) value

/-- Store to `block->prev`. -/
def setPrev (value : ℕ) : Memory := store memory (block + 24) value

def blockIsFree : Bool := block ≠ 0 ∧ flags memory block &&& 1 ≠ 0

end

def magic (memory : Memory) : ℕ := load memory heapBase

def lockWord (memory : Memory) : ℕ := load memory (heapBase + 8)

def head (memory : Memory) : ℕ := load memory (heapBase + 16)

/-! ## The lock -/

/-- `user_shared_heap_try_lock_once`, with a store that does not fail. -/
def tryLockOnce (memory : Memory) : Option Memory :=
  if lockWord memory = 0 then some (store memory (heapBase + 8) 1) else none

def initializeLocked (memory : Memory) : Memory :=
  if magic memory = heapMagic ∧ head memory ≠ 0 then memory
  else
    let memory := store memory heapBase heapMagic
    let memory := store memory (heapBase + 16) firstBlock
    let memory := setPayloadBytes memory (head memory) (heapBytes - alignUp stateBytes - blockBytes)
    let memory := setFlags memory (head memory) 1
    let memory := setNext memory (head memory) 0
    setPrev memory (head memory) 0

/-- `user_shared_heap_lock`; `none` while another caller holds the lock. -/
def lock (memory : Memory) : Option Memory := (tryLockOnce memory).map initializeLocked

def unlock (memory : Memory) : Memory := store memory (heapBase + 8) 0

/-! ## Blocks -/

def splitBlock (memory : Memory) (block payload : ℕ) : Memory :=
  if block = 0 then memory
  else if payloadBytes memory block ≤ addWord (addWord payload blockBytes) 16 then memory
  else
    let remainder := addWord (block + blockBytes) payload
    let memory := setPayloadBytes memory remainder
      (subWord (subWord (payloadBytes memory block) payload) blockBytes)
    let memory := setFlags memory remainder 1
    let memory := setNext memory remainder (next memory block)
    let memory := setPrev memory remainder block
    let memory := if next memory remainder ≠ 0 then
        setPrev memory (next memory remainder) remainder
      else memory
    let memory := setPayloadBytes memory block payload
    setNext memory block remainder

/-- A block takes over its successor; the statements that `user_shared_heap_coalesce` has twice
and `user_shared_heap_realloc` once. -/
def absorb (memory : Memory) (block successor : ℕ) : Memory :=
  let memory := setPayloadBytes memory block
    (addWord (payloadBytes memory block) (addWord blockBytes (payloadBytes memory successor)))
  let memory := setNext memory block (next memory successor)
  if next memory block ≠ 0 then setPrev memory (next memory block) block else memory

def coalesce (memory : Memory) (block : ℕ) : Memory :=
  if block = 0 then memory
  else
    let memory := if next memory block ≠ 0 ∧ blockIsFree memory (next memory block) then
        absorb memory block (next memory block)
      else memory
    if prev memory block ≠ 0 ∧ blockIsFree memory (prev memory block) then
      absorb memory (prev memory block) block
    else memory

/-- The loop of `user_shared_heap_malloc_locked` from one block on; `none` if it does not end
within the given number of blocks. -/
def mallocFrom (payload : ℕ) : ℕ → Memory → ℕ → Option (ℕ × Memory)
  | 0, _, _ => none
  | fuel + 1, memory, block =>
    if block = 0 then some (0, memory)
    else if !blockIsFree memory block ∨ payloadBytes memory block < payload then
      mallocFrom payload fuel memory (next memory block)
    else
      let memory := splitBlock memory block payload
      some (block + blockBytes, setFlags memory block (flags memory block &&& (2 ^ 64 - 2)))

/-- More blocks than the reservation has room for. -/
def walkFuel : ℕ := heapBytes / blockBytes

def mallocLocked (memory : Memory) (payload : ℕ) : Option (ℕ × Memory) :=
  mallocFrom payload walkFuel memory (head memory)

def freeLocked (memory : Memory) (pointer : ℕ) : Memory :=
  if pointer = 0 ∨ !containsPointer pointer then memory
  else
    let block := pointer - blockBytes
    coalesce (setFlags memory block (flags memory block ||| 1)) block

/-- The copy loop of `user_shared_heap_realloc`. -/
def copyBytes (memory : Memory) (destination source : ℕ) : ℕ → Memory
  | 0 => memory
  | count + 1 =>
    let memory := copyBytes memory destination source count
    Function.update memory (destination + count) (memory (source + count))

/-! ## The interface -/

def malloc (memory : Memory) (size : ℕ) : Option (ℕ × Memory) :=
  let payload := alignUp (if size ≠ 0 then size else 1)
  (lock memory).bind fun memory =>
    (mallocLocked memory payload).map fun (allocation, memory) => (allocation, unlock memory)

/-- `user_shared_heap_free`. -/
def free (memory : Memory) (pointer : ℕ) : Option Memory :=
  if pointer = 0 ∨ !containsPointer pointer then some memory
  else (lock memory).map fun memory => unlock (freeLocked memory pointer)

def realloc (memory : Memory) (pointer size : ℕ) : Option (ℕ × Memory) :=
  if pointer = 0 then malloc memory size
  else if size = 0 then (free memory pointer).map fun memory => (0, memory)
  else if !containsPointer pointer then some (0, memory)
  else
    (lock memory).bind fun memory =>
      let block := pointer - blockBytes
      let payload := alignUp size
      if payload ≤ payloadBytes memory block then
        some (pointer, unlock (splitBlock memory block payload))
      else if next memory block ≠ 0 ∧ blockIsFree memory (next memory block) ∧
          payload ≤ addWord (addWord (payloadBytes memory block) blockBytes)
            (payloadBytes memory (next memory block)) then
        let memory := absorb memory block (next memory block)
        some (pointer, unlock (splitBlock memory block payload))
      else
        (mallocLocked memory payload).map fun (replacement, memory) =>
          if replacement = 0 then (0, unlock memory)
          else
            let count := if payloadBytes memory block < size then payloadBytes memory block
              else size
            let memory := copyBytes memory replacement pointer count
            (replacement, unlock (freeLocked memory pointer))

/-! ## Programs -/

/-- A pointer a program holds, with the size it asked for. -/
structure Allocation where
  pointer : ℕ
  size : ℕ
  deriving DecidableEq

/-- The bytes of the process and the allocations its modules hold. -/
structure State where
  memory : Memory
  live : List Allocation

/-- Demand-zero pages, nothing allocated. -/
def State.boot : State := ⟨fun _ => 0, []⟩

/-- What the modules of a process do. -/
inductive Operation
  | malloc (size : ℕ)
  | free (pointer : ℕ)
  | realloc (pointer size : ℕ)
  /-- A store into an allocation. -/
  | write (pointer offset : ℕ) (byte : UInt8)

/-- Sizes that `align_up` does not wrap, pointers that are `NULL` or live, stores inside
allocations. -/
def Permitted (state : State) : Operation → Prop
  | .malloc size => size ≤ 2 ^ 64 - 17
  | .free pointer => pointer = 0 ∨ ∃ allocation ∈ state.live, allocation.pointer = pointer
  | .realloc pointer size => size ≤ 2 ^ 64 - 17 ∧
      (pointer = 0 ∨ ∃ allocation ∈ state.live, allocation.pointer = pointer)
  | .write pointer offset _ => ∃ allocation ∈ state.live,
      allocation.pointer = pointer ∧ offset < allocation.size

instance (state : State) (operation : Operation) : Decidable (Permitted state operation) := by
  cases operation <;> unfold Permitted <;> infer_instance

/-- The live allocations without one pointer. -/
def State.without (state : State) (pointer : ℕ) : List Allocation :=
  state.live.filter (·.pointer ≠ pointer)

/-- One operation, with the pointer it returns; `none` if the call does not return. -/
def run (state : State) : Operation → Option (ℕ × State)
  | .malloc size => (malloc state.memory size).map fun (pointer, memory) =>
    (pointer, ⟨memory, if pointer = 0 then state.live else ⟨pointer, size⟩ :: state.live⟩)
  | .free pointer => (free state.memory pointer).map fun memory =>
    (0, ⟨memory, state.without pointer⟩)
  | .realloc pointer size => (realloc state.memory pointer size).map fun (result, memory) =>
    (result, ⟨memory,
      if result ≠ 0 then ⟨result, size⟩ :: state.without pointer
      else if size = 0 then state.without pointer else state.live⟩)
  | .write pointer offset byte =>
    some (0, ⟨Function.update state.memory (pointer + offset) byte, state.live⟩)

/-- States that permitted operations lead to. -/
abbrev Reachable : State → Prop :=
  Runs.Reachable (· = .boot) (fun state operation => (run state operation).map Prod.snd) Permitted

end RosKernel.SharedHeap
