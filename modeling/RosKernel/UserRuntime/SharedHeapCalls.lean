import RosKernel.UserRuntime.SharedHeapOperations

/-!
# Calls into the shared user heap

The lock with its first-touch setup, the blocks of live allocations, and what `malloc`, `free`
and `realloc` do to them.
-/

namespace RosKernel.SharedHeap

open WordMemory Tiling List

/-! ## The lock and the first use -/

/-- A heap that has been used before. -/
def Initialized (memory : Memory) : Prop := magic memory = heapMagic ∧ head memory ≠ 0

variable {tiles : List Tile} {memory : Memory}

theorem Heap.initialized (heap : Heap memory tiles) : Initialized memory := by
  refine ⟨heap.magic, ?_⟩
  rw [heap.head, firstBlock_eq]
  decide

theorem Heap.initializeLocked_eq (heap : Heap memory tiles) : initializeLocked memory = memory :=
  if_pos heap.initialized

/-- The lock word is no part of the blocks. -/
theorem Heap.store_lockWord (heap : Heap memory tiles)
    (value : ℕ) : Heap (store memory (heapBase + 8) value) tiles := by
  refine ⟨?_, ?_, ?_, heap.full⟩
  · exact (load_store_of_apart (by omega)).trans heap.magic
  · exact (load_store_of_apart (by omega)).trans heap.head
  · apply heap.segment.congr_interval
    intro _ lower _
    rw [firstBlock_eq] at lower
    exact store_of_outside (by rw [heapBase_eq]; omega)

/-- The one free block of a new heap. -/
def wholeHeap : Tile := ⟨heapBytes - 64, true⟩

/-- The first use makes the whole reservation one free block. -/
theorem heap_initializeLocked (fresh : ¬ Initialized memory) :
    Heap (initializeLocked memory) [wholeHeap] := by
  have headLoaded : ∀ memory : Memory, head (store memory (heapBase + 16) firstBlock) =
      firstBlock := fun memory => load_store_same (by rw [firstBlock_eq]; decide)
  have headKept : ∀ (memory : Memory) (address value : ℕ), firstBlock ≤ address →
      head (store memory address value) = head memory := by
    intro memory _ _ above
    apply load_store_of_apart
    rw [firstBlock_eq] at above
    rw [heapBase_eq]
    omega
  have unfolded : initializeLocked memory =
      store (store (store (store (store (store memory heapBase heapMagic) (heapBase + 16)
        firstBlock) firstBlock (heapBytes - 64)) (firstBlock + 8) 1) (firstBlock + 16) 0)
        (firstBlock + 24) 0 := by
    have skipped : ¬ (magic memory = heapMagic ∧ head memory ≠ 0) := fresh
    rw [initializeLocked, if_neg skipped]
    simp only [setPayloadBytes, setFlags, setNext, setPrev, headLoaded,
      headKept _ firstBlock _ (Nat.le_refl _), headKept _ (firstBlock + 8) _ (Nat.le_add_right _ _),
      headKept _ (firstBlock + 16) _ (Nat.le_add_right _ _)]
    rfl
  have base : firstBlock = heapBase + 32 := by decide
  have sizes : heapBytes - 64 < 2 ^ 64 := by decide
  rw [unfolded]
  refine ⟨?_, ?_, ⟨⟨?_, ?_, ?_, ?_, by decide⟩, trivial⟩, by decide⟩
  · rw [magic, load_store_of_apart (by omega), load_store_of_apart (by omega),
      load_store_of_apart (by omega), load_store_of_apart (by omega),
      load_store_of_apart (by omega), load_store_same (by decide)]
  · rw [headKept _ _ _ (by omega), headKept _ _ _ (by omega), headKept _ _ _ (by omega),
      headKept _ _ _ (by omega), headLoaded]
  · rw [payloadBytes, load_store_of_apart (by omega), load_store_of_apart (by omega),
      load_store_of_apart (by omega), load_store_same sizes]
    rfl
  · rw [flags, load_store_of_apart (by omega), load_store_of_apart (by omega),
      load_store_same (by decide)]
    rfl
  · rw [next, load_store_of_apart (by omega), load_store_same (by decide)]
    decide
  · rw [prev, load_store_same (by decide)]

/-! ## Live allocations -/

/-- The block of a live allocation. -/
def Holds (tiles : List Tile) (allocation : Allocation) (address : ℕ) (tile : Tile) : Prop :=
  (address, tile) ∈ placed 32 firstBlock tiles ∧ tile.free = false ∧
    allocation.pointer = address + 32 ∧ allocation.size ≤ tile.payload ∧ 0 < tile.payload

/-- Every live allocation has its own block in use. -/
structure Live (tiles : List Tile) (live : List Allocation) : Prop where
  blocks : ∀ allocation ∈ live, ∃ address tile, Holds tiles allocation address tile
  distinct : (live.map Allocation.pointer).Nodup

/-- Blocks at one address are one block. -/
theorem placed_unique {address : ℕ} {first second : Tile}
    (firstMember : (address, first) ∈ placed 32 firstBlock tiles)
    (secondMember : (address, second) ∈ placed 32 firstBlock tiles) : first = second := by
  rcases placed_apart firstMember secondMember with same | before | after
  · exact (Prod.mk.inj same).2
  · simp only at before
    omega
  · simp only at after
    omega

variable {memory later : Memory} {tiles new : List Tile} {live : List Allocation} {address : ℕ}

/-- Allocations away from the block an operation concerns stay live. -/
theorem Live.evolves (isLive : Live tiles live) (evolves : Evolves address memory later tiles new)
    {others : List Allocation} (sublist : others.Sublist live)
    (away : ∀ allocation ∈ others, allocation.pointer ≠ address + 32) : Live new others := by
  refine ⟨?_, isLive.distinct.sublist (sublist.map _)⟩
  intro allocation mem
  obtain ⟨place, tile, placed, used, pointer, sizes⟩ :=
    isLive.blocks allocation (sublist.subset mem)
  refine ⟨place, tile, evolves.keeps _ placed used ?_, used, pointer, sizes⟩
  rintro rfl
  exact away allocation mem pointer

variable {allocation : Allocation}

/-- Their bytes stay as well. -/
theorem Live.bytes (isLive : Live tiles live) (evolves : Evolves address memory later tiles new)
    (mem : allocation ∈ live)
    (away : allocation.pointer ≠ address + 32) {offset : ℕ} (bound : offset < allocation.size) :
    later (allocation.pointer + offset) = memory (allocation.pointer + offset) := by
  obtain ⟨_, _, placed, used, pointer, _, -⟩ := isLive.blocks allocation mem
  rw [pointer] at away ⊢
  exact evolves.bytes _ placed used (fun same => away (by simp only at same; omega)) offset
    (by simp only; omega)

variable {tile : Tile}

/-- A block in use becomes the block of one more allocation. -/
theorem Live.cons (isLive : Live tiles live) (holds : Holds tiles allocation address tile)
    (unused : ∀ other ∈ live, other.pointer ≠ allocation.pointer) :
    Live tiles (allocation :: live) := by
  constructor
  · intro other mem
    rcases mem_cons.mp mem with rfl | old
    · exact ⟨address, tile, holds⟩
    · exact isLive.blocks other old
  · rw [map_cons, nodup_cons]
    refine ⟨?_, isLive.distinct⟩
    intro mem
    obtain ⟨other, otherMem, same⟩ := mem_map.mp mem
    exact unused other otherMem same

theorem Live.nil (tiles : List Tile) : Live tiles [] := ⟨nofun, nodup_nil⟩

/-- No live allocation has its payload at a free block. -/
theorem Live.pointer_ne (isLive : Live tiles live)
    (placed : (address, tile) ∈ placed 32 firstBlock tiles) (free : tile.free = true)
    (mem : allocation ∈ live) :
    allocation.pointer ≠ address + 32 := by
  intro _
  obtain ⟨place, _, otherPlaced, used, _, -⟩ := isLive.blocks allocation mem
  obtain rfl : place = address := by omega
  rw [placed_unique placed otherPlaced, used] at free
  cases free

variable {state : State}

/-- The allocations other than one. -/
theorem Live.pointer_ne_of_mem_without {pointer : ℕ}
    (mem : allocation ∈ state.without pointer) : allocation.pointer ≠ pointer := by
  simpa using (mem_filter.mp mem).2

/-! ## The invariant -/

/-- Between calls the lock is free, and the heap is in order or has not been used. -/
structure Invariant (state : State) : Prop where
  unlocked : lockWord state.memory = 0
  heap : (∃ tiles, Heap state.memory tiles ∧ Live tiles state.live) ∨
    ¬ Initialized state.memory ∧ state.live = []

variable {locked : Memory}

/-- The heap a call finds once it has the lock. -/
structure Locked (state : State) (locked : Memory) (tiles : List Tile) : Prop where
  heap : Heap locked tiles
  live : Live tiles state.live
  same : ∀ allocation ∈ state.live, ∀ place, firstBlock ≤ place → locked place = state.memory place

/-- Taking the lock. -/
theorem Invariant.lock (inv : Invariant state) :
    ∃ locked tiles, lock state.memory = some locked ∧ Locked state locked tiles := by
  have taken : SharedHeap.lock state.memory =
      some (initializeLocked (store state.memory (heapBase + 8) 1)) := by
    rw [SharedHeap.lock, tryLockOnce, if_pos inv.unlocked]
    rfl
  rcases inv.heap with ⟨tiles, heap, isLive⟩ | ⟨fresh, none⟩
  · have stored := heap.store_lockWord 1
    refine ⟨_, tiles, taken, ⟨?_, isLive, ?_⟩⟩
    · rw [stored.initializeLocked_eq]
      exact stored
    · intro _ _ _ above
      rw [stored.initializeLocked_eq]
      rw [firstBlock_eq] at above
      exact store_of_outside (by rw [heapBase_eq]; omega)
  · refine ⟨_, [wholeHeap], taken, ⟨heap_initializeLocked ?_, ?_, ?_⟩⟩
    · intro initialized
      apply fresh
      have magicKept : magic (store state.memory (heapBase + 8) 1) = magic state.memory :=
        load_store_of_apart (by omega)
      have headKept : head (store state.memory (heapBase + 8) 1) = head state.memory :=
        load_store_of_apart (by omega)
      rwa [Initialized, magicKept, headKept] at initialized
    · rw [none]
      exact .nil _
    · rw [none]
      exact nofun

/-- Giving the lock back. -/
theorem invariant_unlock (heap : Heap memory tiles) (isLive : Live tiles live) :
    Invariant ⟨unlock memory, live⟩ :=
  ⟨load_store_same (by decide), .inl ⟨tiles, heap.store_lockWord 0, isLive⟩⟩

theorem unlock_apply {place : ℕ} (above : firstBlock ≤ place) :
    unlock memory place = memory place := by
  rw [firstBlock_eq] at above
  exact store_of_outside (by rw [heapBase_eq]; omega)

theorem Live.firstBlock_le (isLive : Live tiles live)
    (mem : allocation ∈ live) (offset : ℕ) : firstBlock ≤ allocation.pointer + offset := by
  obtain ⟨_, _, placed, -, _, -⟩ := isLive.blocks allocation mem
  have bounds := placed_bounds placed
  simp only at bounds
  omega

/-- Bytes of a live allocation that the call has kept are there after it. -/
theorem Locked.unlock_eq (held : Locked state locked tiles) (mem : allocation ∈ state.live)
    {offset : ℕ}
    (kept : later (allocation.pointer + offset) = locked (allocation.pointer + offset)) :
    unlock later (allocation.pointer + offset) = state.memory (allocation.pointer + offset) := by
  have above := held.live.firstBlock_le mem offset
  rw [unlock_apply above, kept, held.same allocation mem _ above]

/-! ## The calls -/

variable {size : ℕ}

theorem Invariant.malloc (inv : Invariant state) (small : size ≤ 2 ^ 64 - 17) :
    ∃ pointer later, malloc state.memory size = some (pointer, later) ∧
      Invariant ⟨later, if pointer = 0 then state.live else ⟨pointer, size⟩ :: state.live⟩ ∧
      ∀ allocation ∈ state.live, ∀ offset < allocation.size,
        later (allocation.pointer + offset) = state.memory (allocation.pointer + offset) := by
  obtain ⟨_, _, taken, held⟩ := inv.lock
  have asked : (if size ≠ 0 then size else 1) ≤ 2 ^ 64 - 17 ∧ 0 < (if size ≠ 0 then size else 1) ∧
      size ≤ if size ≠ 0 then size else 1 := by
    split <;> omega
  have enough := le_alignUp asked.1
  obtain ⟨pointer, later, returned, allocates⟩ :=
    held.heap.mallocLocked (alignUp_aligned (if size ≠ 0 then size else 1))
  refine ⟨pointer, unlock later, ?_, ?_⟩
  · rw [SharedHeap.malloc, taken, Option.bind_some, returned]
    rfl
  cases allocates with
  | exhausted =>
    refine ⟨invariant_unlock held.heap held.live, ?_⟩
    intro _ mem _ _
    exact held.unlock_eq mem rfl
  | served wasFree free inUse _ evolves =>
    have away : ∀ allocation ∈ state.live, _ := fun allocation mem =>
      held.live.pointer_ne wasFree free mem
    refine ⟨?_, ?_⟩
    · rw [if_neg (by omega)]
      apply invariant_unlock evolves.heap
      apply (held.live.evolves evolves (List.Sublist.refl _) away).cons
        ⟨inUse, rfl, rfl, by simp only; omega, by simp only; omega⟩
      exact away
    · intro allocation mem _ bound
      exact held.unlock_eq mem (held.live.bytes evolves mem (away allocation mem) bound)

theorem Invariant.free (inv : Invariant state) (mem : allocation ∈ state.live) :
    ∃ later, free state.memory allocation.pointer = some later ∧
      Invariant ⟨later, state.without allocation.pointer⟩ ∧
      ∀ other ∈ state.live, other.pointer ≠ allocation.pointer → ∀ offset < other.size,
        later (other.pointer + offset) = state.memory (other.pointer + offset) := by
  obtain ⟨locked, _, taken, held⟩ := inv.lock
  obtain ⟨_, _, placed, _, pointer, _, positive⟩ := held.live.blocks allocation mem
  obtain ⟨_, _, rfl, place⟩ := exists_split placed
  simp only at place
  rw [place] at pointer
  obtain ⟨_, evolves⟩ := held.heap.evolves_freeLocked positive
  rw [← pointer] at evolves
  have inside : ¬ (allocation.pointer = 0 ∨ (!containsPointer allocation.pointer) = true) := by
    rw [pointer, held.heap.containsPointer positive]
    simp
  refine ⟨unlock (freeLocked locked allocation.pointer), ?_, ?_, ?_⟩
  · rw [SharedHeap.free, if_neg inside, taken]
    rfl
  · apply invariant_unlock evolves.heap
    apply held.live.evolves evolves filter_sublist
    intro other otherMem
    rw [← pointer]
    exact Live.pointer_ne_of_mem_without otherMem
  · intro _ otherMem ne _ bound
    exact held.unlock_eq otherMem (held.live.bytes evolves otherMem (pointer ▸ ne) bound)

/-- What a reallocation of a live allocation to a nonzero size has done. -/
structure Reallocates (state : State) (allocation : Allocation) (size result : ℕ)
    (later : Memory) : Prop where
  invariant : Invariant ⟨later, if result ≠ 0 then
    ⟨result, size⟩ :: state.without allocation.pointer else state.live⟩
  others : ∀ other ∈ state.live, other.pointer ≠ allocation.pointer → ∀ offset < other.size,
    later (other.pointer + offset) = state.memory (other.pointer + offset)
  common : result ≠ 0 → ∀ offset < min allocation.size size,
    later (result + offset) = state.memory (allocation.pointer + offset)
  failed : result = 0 → ∀ offset < allocation.size,
    later (allocation.pointer + offset) = state.memory (allocation.pointer + offset)

section

variable (held : Locked state locked tiles) (mem : allocation ∈ state.live) (positive : 0 < size)
include held mem positive

/-- A reallocation that stays in its block. -/
theorem Locked.reallocates_inPlace {kept : ℕ} {resized : Memory}
    (pointer : allocation.pointer = address + 32)
    (evolves : Evolves address locked resized tiles new)
    (inUse : (address, ⟨kept, false⟩) ∈ placed 32 firstBlock new) (fits : size ≤ kept)
    (own : ∀ offset < min allocation.size size,
      resized (address + 32 + offset) = locked (address + 32 + offset)) :
    Reallocates state allocation size allocation.pointer (unlock resized) := by
  have away : ∀ other ∈ state.without allocation.pointer, other.pointer ≠ address + 32 := by
    intro other otherMem
    rw [← pointer]
    exact Live.pointer_ne_of_mem_without otherMem
  have nonzero : allocation.pointer ≠ 0 := by omega
  refine ⟨?_, ?_, ?_, fun zero => absurd zero nonzero⟩
  · rw [if_pos nonzero]
    apply invariant_unlock evolves.heap
    have holds : Holds new ⟨allocation.pointer, size⟩ address ⟨kept, false⟩ :=
      ⟨inUse, rfl, pointer, fits, by simp only; omega⟩
    apply (held.live.evolves evolves filter_sublist away).cons holds
    intro other otherMem
    exact Live.pointer_ne_of_mem_without otherMem
  · intro _ otherMem ne _ bound
    exact held.unlock_eq otherMem (held.live.bytes evolves otherMem (pointer ▸ ne) bound)
  · intro _ offset bound
    apply held.unlock_eq mem
    rw [pointer]
    exact own offset bound

/-- A reallocation that moves: the bytes are copied before the old block is freed. -/
theorem Locked.reallocates_moved {kept destination : ℕ} {chosen : Tile} {allocated : Memory}
    (holds : Holds tiles allocation address tile)
    (wasFree : (destination, chosen) ∈ placed 32 firstBlock tiles) (free : chosen.free = true)
    (inUse : (destination, ⟨kept, false⟩) ∈ placed 32 firstBlock new)
    (evolves : Evolves destination locked allocated tiles new) (fits : size ≤ kept) :
    Reallocates state allocation size (destination + 32)
      (unlock (freeLocked (copyBytes allocated (destination + 32) allocation.pointer
        (if payloadBytes allocated address < size then payloadBytes allocated address else size))
        allocation.pointer)) := by
  obtain ⟨placed, used, pointer, _, nonempty⟩ := holds
  have ne : address ≠ destination := by
    rintro rfl
    rw [placed_unique placed wasFree, free] at used
    cases used
  have keptOwn := evolves.keeps _ placed used ne
  -- the old block's header still tells its size
  obtain ⟨_, _, split, place⟩ := exists_split keptOwn
  simp only at split place
  have ownHeader : payloadBytes allocated address = tile.payload := by
    have heap := evolves.heap
    rw [split] at heap
    rw [place]
    exact heap.header.1.payload
  rw [ownHeader]
  generalize counted : (if tile.payload < size then tile.payload else size) = count
  have countLe : count ≤ size ∧ count ≤ tile.payload ∧ min allocation.size size ≤ count := by
    rw [← counted]
    split <;> omega
  have apart := placed_apart keptOwn inUse
  simp only [Prod.mk.injEq, ne, false_and, false_or] at apart
  generalize copied : copyBytes allocated (destination + 32) allocation.pointer count = copy
  have copyEvolves : Evolves destination allocated copy new new := by
    apply evolves.heap.evolves_payload inUse
    intro place outside
    rw [← copied]
    apply copyBytes_outside
    simp only at outside
    omega
  have moved := evolves.trans copyEvolves
  have heap := copyEvolves.heap
  rw [split] at heap
  obtain ⟨_, freed⟩ := heap.evolves_freeLocked nonempty
  rw [← split, ← place, ← pointer] at freed
  have awayDestination : ∀ other ∈ state.live, other.pointer ≠ destination + 32 :=
    fun other otherMem => held.live.pointer_ne wasFree free otherMem
  have movedLive := held.live.evolves moved (List.Sublist.refl _) awayDestination
  have inFinal := freed.keeps _ inUse rfl ne.symm
  refine ⟨?_, ?_, ?_, fun zero => absurd zero (by omega)⟩
  · rw [if_pos (by omega)]
    apply invariant_unlock freed.heap
    have away : ∀ other ∈ state.without allocation.pointer, other.pointer ≠ address + 32 := by
      intro other otherMem
      rw [← pointer]
      exact Live.pointer_ne_of_mem_without otherMem
    apply (movedLive.evolves freed filter_sublist away).cons
      ⟨inFinal, rfl, rfl, fits, by simp only; omega⟩
    intro other otherMem
    exact awayDestination other (mem_of_mem_filter otherMem)
  · intro other otherMem elsewhere _ bound
    apply held.unlock_eq otherMem
    rw [movedLive.bytes freed otherMem (pointer ▸ elsewhere) bound,
      held.live.bytes moved otherMem (awayDestination other otherMem) bound]
  · intro _ offset _
    have above := held.live.firstBlock_le mem offset
    have aboveResult : firstBlock ≤ destination + 32 + offset := by
      have bounds := placed_bounds inUse
      simp only at bounds
      omega
    have fromOwn : allocated (allocation.pointer + offset) =
        locked (allocation.pointer + offset) := by
      rw [pointer]
      exact evolves.bytes _ placed used ne offset (by simp only; omega)
    rw [unlock_apply aboveResult,
      freed.bytes _ inUse rfl ne.symm offset (by simp only; omega), ← copied,
      copyBytes_inside (by omega) (by omega), fromOwn, held.same allocation mem _ above]

/-- The last branch of `realloc`. -/
theorem Locked.reallocates_replaced (holds : Holds tiles allocation address tile)
    (small : size ≤ 2 ^ 64 - 17) :
    ∃ result later, ((mallocLocked locked (alignUp size)).map fun (replacement, memory) =>
        if replacement = 0 then (0, unlock memory)
        else
          (replacement, unlock (freeLocked (copyBytes memory replacement allocation.pointer
            (if payloadBytes memory address < size then payloadBytes memory address else size))
            allocation.pointer))) = some (result, later) ∧
      Reallocates state allocation size result later := by
  obtain ⟨_, _, returned, allocates⟩ := held.heap.mallocLocked (alignUp_aligned size)
  rw [returned]
  cases allocates with
  | exhausted =>
    refine ⟨0, unlock locked, rfl, ?_, ?_, fun nonzero => absurd rfl nonzero, ?_⟩
    · exact invariant_unlock held.heap held.live
    · intro _ otherMem _ _ _
      exact held.unlock_eq otherMem rfl
    · intro _ _ _
      exact held.unlock_eq mem rfl
  | served wasFree free inUse _ evolves =>
    have enough := le_alignUp small
    rw [Option.map_some]
    simp only [if_neg (Nat.succ_ne_zero _)]
    exact ⟨_, _, rfl, held.reallocates_moved mem positive holds wasFree free inUse evolves
      (by omega)⟩

end

/-- The block grows into the free one behind it. -/
theorem Locked.reallocates_grown {front back : List Tile} {second : Tile}
    (held : Locked state locked (front ++ tile :: second :: back)) (mem : allocation ∈ state.live)
    (holds : Holds (front ++ tile :: second :: back) allocation (firstBlock + extent 32 front) tile)
    (small : size ≤ 2 ^ 64 - 17) (positive : 0 < size) (free : second.free = true)
    (grows : alignUp size ≤ tile.payload + 32 + second.payload) :
    Reallocates state allocation size allocation.pointer
      (unlock (splitBlock (absorb locked (firstBlock + extent 32 front)
        (firstBlock + extent 32 front + 32 + tile.payload)) (firstBlock + extent 32 front)
        (alignUp size))) := by
  have enough := le_alignUp small
  obtain ⟨_, used, pointer, _, _⟩ := holds
  have absorbed := @Heap.evolves_absorb (firstBlock + extent 32 front) _ _ _ _ _ held.heap
    (fun _ => rfl) (by rw [free]; exact nofun)
  obtain ⟨_, _, _, split, own⟩ := absorbed.heap.evolves_splitBlock grows (alignUp_aligned size)
  have evolves := absorbed.trans split
  simp only [used] at evolves
  apply held.reallocates_inPlace mem positive pointer evolves (mem_placed_middle _ _ _ _) (by omega)
  intro offset _
  rw [own offset (by omega)]
  apply held.heap.absorb.bytes (mem_placed_middle firstBlock front _ _)
  simp only
  omega

theorem Invariant.realloc (inv : Invariant state) (mem : allocation ∈ state.live)
    (small : size ≤ 2 ^ 64 - 17) (positive : 0 < size) :
    ∃ result later, realloc state.memory allocation.pointer size = some (result, later) ∧
      Reallocates state allocation size result later := by
  obtain ⟨locked, _, taken, held⟩ := inv.lock
  obtain ⟨_, tile, holds⟩ := held.live.blocks allocation mem
  obtain ⟨placed, used, pointer, _, nonempty⟩ := id holds
  obtain ⟨front, back, split, place⟩ := exists_split placed
  simp only at split place
  subst split place
  have heap := held.heap
  obtain ⟨header, behind, full⟩ := heap.header
  rw [heapLimit_eq] at full
  have enough := le_alignUp small
  have block : allocation.pointer - blockBytes = firstBlock + extent 32 front := by
    rw [pointer, blockBytes, Nat.add_sub_cancel]
  have inside : (!containsPointer allocation.pointer) = false := by
    rw [pointer, heap.containsPointer nonempty]
    rfl
  rw [SharedHeap.realloc, if_neg (by omega), if_neg (by omega), inside,
    if_neg Bool.false_ne_true, taken, Option.bind_some, block]
  simp only [header.payload]
  by_cases shrinks : alignUp size ≤ tile.payload
  · rw [if_pos shrinks]
    obtain ⟨_, _, fits, evolves, own⟩ := heap.evolves_splitBlock shrinks (alignUp_aligned size)
    rw [used] at evolves
    refine ⟨_, _, rfl, held.reallocates_inPlace mem positive pointer evolves
      (mem_placed_middle _ _ _ _) (by omega) ?_⟩
    intro offset _
    exact own offset (by omega)
  rw [if_neg shrinks]
  have replaced := held.reallocates_replaced mem positive holds small
  split
  · rename_i grows
    cases back with
    | nil => exact absurd (by rw [heap.next, if_pos rfl]) grows.1
    | cons second others =>
      obtain ⟨-, isFree, fits⟩ := grows
      have link := heap.next
      rw [if_neg (cons_ne_nil second others)] at link
      rw [link] at isFree fits ⊢
      rw [heap.blockIsFree_second] at isFree
      rw [extent_cons] at full
      have sum : addWord (addWord tile.payload blockBytes) (payloadBytes locked
          (firstBlock + extent 32 front + 32 + tile.payload)) =
          tile.payload + 32 + second.payload := by
        rw [behind.1.payload]
        unfold addWord blockBytes
        omega
      rw [sum] at fits
      exact ⟨_, _, rfl, held.reallocates_grown mem holds small positive isFree fits⟩
  · exact replaced

end RosKernel.SharedHeap
