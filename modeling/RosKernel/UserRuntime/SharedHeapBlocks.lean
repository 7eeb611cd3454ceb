import RosKernel.Library.Tiling
import RosKernel.UserRuntime.SharedHeap

/-!
# The block list of the shared user heap

The intrusive headers stand for a tiling of the reservation. Splitting a block, absorbing the
next one and changing a block's flag are operations on the tiling that write header bytes only.
-/

namespace RosKernel.SharedHeap

open WordMemory Tiling

theorem firstBlock_eq : firstBlock = 0x20000020 := by decide

theorem heapLimit_eq : heapLimit = 0x40000000 := rfl

theorem heapBase_eq : heapBase = 0x20000000 := rfl

/-- The link to a block that would start at an address: none at the end of the reservation. -/
def linkTo (address : ℕ) : ℕ := if address = heapLimit then 0 else address

theorem linkTo_lt {address : ℕ} (inside : address ≤ heapLimit) : linkTo address < 2 ^ 64 := by
  unfold linkTo
  rw [heapLimit_eq] at *
  split <;> omega

/-- The header of one block. -/
structure Header (memory : Memory) (address before : ℕ) (tile : Tile) : Prop where
  payload : payloadBytes memory address = tile.payload
  flags : flags memory address = if tile.free then 1 else 0
  next : next memory address = linkTo (address + 32 + tile.payload)
  prev : prev memory address = before
  aligned : 16 ∣ tile.payload

/-- Consecutive blocks, whose first has a given predecessor. -/
def Segment (memory : Memory) : ℕ → ℕ → List Tile → Prop
  | _, _, [] => True
  | start, before, tile :: rest =>
    Header memory start before tile ∧ Segment memory (start + 32 + tile.payload) start rest

/-- The predecessor of what follows. -/
def lastBlock : ℕ → ℕ → List Tile → ℕ
  | _, before, [] => before
  | start, _, tile :: rest => lastBlock (start + 32 + tile.payload) start rest

/-- The memory holds an initialized heap whose blocks tile the reservation. -/
structure Heap (memory : Memory) (tiles : List Tile) : Prop where
  magic : magic memory = heapMagic
  head : head memory = firstBlock
  segment : Segment memory firstBlock 0 tiles
  full : firstBlock + extent 32 tiles = heapLimit

/-! ## Segments -/

section

variable {memory other : Memory} {start before : ℕ} {tiles front back : List Tile} {tile : Tile}

theorem segment_append : Segment memory start before (front ++ back) ↔
    Segment memory start before front ∧
      Segment memory (start + extent 32 front) (lastBlock start before front) back := by
  induction front generalizing start before with
  | nil => simp [Segment, lastBlock]
  | cons _ _ ih =>
    rw [List.cons_append, Segment, Segment, ih, lastBlock, extent_cons, and_assoc,
      ← Nat.add_assoc, ← Nat.add_assoc]

theorem Header.congr (header : Header memory start before tile)
    (same : ∀ place, start ≤ place → place < start + 32 → other place = memory place) :
    Header other start before tile := by
  have loads : ∀ offset ≤ 24, load other (start + offset) = load memory (start + offset) := by
    intro _ _
    apply load_congr
    intro place _ _
    exact same place (by omega) (by omega)
  exact ⟨(loads 0 (by omega)).trans header.payload, (loads 8 (by omega)).trans header.flags,
    (loads 16 (by omega)).trans header.next, (loads 24 (by omega)).trans header.prev,
    header.aligned⟩

section

variable (segment : Segment memory start before tiles)
include segment

/-- Only header bytes matter. -/
theorem Segment.congr
    (same : ∀ place, HeaderByte 32 start tiles place → other place = memory place) :
    Segment other start before tiles := by
  induction tiles generalizing start before with
  | nil => trivial
  | cons tile _ ih =>
    obtain ⟨header, later⟩ := segment
    constructor
    · apply header.congr
      intro place lower upper
      exact same place ⟨(start, tile), .head _, lower, upper⟩
    · apply ih later
      rintro place ⟨entry, mem, inside⟩
      exact same place ⟨entry, .tail _ mem, inside⟩

theorem Segment.congr_interval
    (same : ∀ place, start ≤ place → place < start + extent 32 tiles → other place = memory place) :
    Segment other start before tiles := by
  apply segment.congr
  rintro place ⟨_, mem, _, _⟩
  have bounds := placed_bounds mem
  exact same place (by omega) (by omega)

theorem Segment.aligned
    (startAligned : 16 ∣ start) {entry : ℕ × Tile} (mem : entry ∈ placed 32 start tiles) :
    16 ∣ entry.1 := by
  induction tiles generalizing start before with
  | nil => cases mem
  | cons _ _ ih =>
    obtain ⟨header, later⟩ := segment
    rcases List.mem_cons.mp mem with rfl | laterMember
    · exact startAligned
    · have payloadAligned := header.aligned
      exact ih later (by omega) laterMember

end

/-- The block at an address, if there is one, gets a predecessor. -/
def relink (memory : Memory) (address before : ℕ) : Memory :=
  if linkTo address ≠ 0 then setPrev memory (linkTo address) before else memory

variable {address place : ℕ}

theorem relink_of_outside
    (outside : address = heapLimit ∨ place < address + 24 ∨ address + 32 ≤ place) :
    relink memory address before place = memory place := by
  unfold relink linkTo
  by_cases inside : address = heapLimit
  · simp [inside]
  · rw [if_neg inside]
    split
    · exact store_of_outside (by omega)
    · rfl

theorem load_relink_of_apart (apart : place + 8 ≤ address + 24 ∨ address + 32 ≤ place) :
    load (relink memory address before) place = load memory place :=
  load_congr fun _ _ _ => relink_of_outside (by omega)

theorem prev_relink (inside : address ≠ heapLimit) (positive : 0 < address)
    (small : before < 2 ^ 64) : prev (relink memory address before) address = before := by
  rw [relink, linkTo, if_neg inside, if_pos positive.ne']
  exact load_store_same small

/-- The blocks behind an address are linked to a new predecessor. -/
theorem Segment.relinked (segment : Segment memory start before back)
    (full : start + extent 32 back = heapLimit)
    (same : ∀ place, start ≤ place → place < start + 24 ∨ start + 32 ≤ place →
      other place = memory place) (linked : start ≠ heapLimit → prev other start = address) :
    Segment other start address back := by
  cases back with
  | nil => trivial
  | cons =>
    obtain ⟨header, later⟩ := segment
    rw [extent_cons] at full
    have loads : ∀ offset ≤ 16, load other (start + offset) = load memory (start + offset) :=
      fun _ _ => load_congr fun place _ _ => same place (by omega) (by omega)
    refine ⟨⟨(loads 0 (by omega)).trans header.payload, (loads 8 (by omega)).trans header.flags,
      (loads 16 (by omega)).trans header.next, linked (by omega), header.aligned⟩, ?_⟩
    apply later.congr_interval
    intro place _ _
    exact same place (by omega) (by omega)

theorem headerByte_first (full : start + extent 32 back = heapLimit) (inside : start ≠ heapLimit)
    (lower : start ≤ place) (upper : place < start + 32) : HeaderByte 32 start back place := by
  cases back with
  | nil => exact absurd full inside
  | cons => exact ⟨_, .head _, lower, upper⟩

end

/-! ## Rewriting the tiling -/

/-- The later memory holds a heap with these tiles, and differs in header bytes only. -/
structure Rewrites (memory later : Memory) (tiles : List Tile) : Prop where
  heap : Heap later tiles
  below : ∀ place < firstBlock, later place = memory place
  frame : ∀ place, firstBlock ≤ place → later place ≠ memory place →
    HeaderByte 32 firstBlock tiles place

/-- Tiles in the middle are exchanged for others of the same extent. -/
theorem Heap.exchange {memory later : Memory} {front old new back : List Tile}
    (heap : Heap memory (front ++ (old ++ back))) (same : extent 32 new = extent 32 old)
    (before : ∀ place < firstBlock + extent 32 front, later place = memory place)
    (middle : Segment later (firstBlock + extent 32 front) (lastBlock firstBlock 0 front)
      (new ++ back))
    (frame : ∀ place, firstBlock + extent 32 front ≤ place → later place ≠ memory place →
      HeaderByte 32 (firstBlock + extent 32 front) (new ++ back) place) :
    Rewrites memory later (front ++ (new ++ back)) := by
  have below : ∀ place < firstBlock, later place = memory place := fun place _ =>
    before place (by omega)
  have loads : ∀ address, address + 8 ≤ firstBlock → load later address = load memory address := by
    intro _ _
    apply load_congr
    intro place _ upper
    exact below place (by omega)
  have frontSegment := (segment_append.mp heap.segment).1
  refine ⟨⟨?_, ?_, segment_append.mpr ⟨?_, middle⟩, ?_⟩, below, ?_⟩
  · exact (loads heapBase (by decide)).trans heap.magic
  · exact (loads (heapBase + 16) (by decide)).trans heap.head
  · apply frontSegment.congr_interval
    intro place _ upper
    exact before place upper
  · have full := heap.full
    simp only [extent_append, same] at full ⊢
    exact full
  · intro place _ changed
    by_cases inFront : place < firstBlock + extent 32 front
    · exact absurd (before place inFront) changed
    · obtain ⟨entry, mem, inside⟩ := frame place (by omega) changed
      refine ⟨entry, ?_, inside⟩
      rw [placed_append]
      exact List.mem_append_right _ mem

variable {memory : Memory} {front back : List Tile} {tile second : Tile}

/-- The header of a block in the middle, and its bounds. -/
theorem Heap.header (heap : Heap memory (front ++ tile :: back)) :
    Header memory (firstBlock + extent 32 front) (lastBlock firstBlock 0 front) tile ∧
      Segment memory (firstBlock + extent 32 front + 32 + tile.payload)
        (firstBlock + extent 32 front) back ∧
      firstBlock + extent 32 front + 32 + tile.payload + extent 32 back = heapLimit := by
  obtain ⟨-, header, later⟩ := segment_append.mp heap.segment
  have full := heap.full
  simp only [extent_append, extent_cons] at full
  exact ⟨header, later, by omega⟩

/-- Changing the flag of a block. -/
theorem Heap.setFlags (heap : Heap memory (front ++ tile :: back)) (free : Bool) :
    Rewrites memory (SharedHeap.setFlags memory (firstBlock + extent 32 front)
      (if free then 1 else 0)) (front ++ ⟨tile.payload, free⟩ :: back) := by
  obtain ⟨header, later, _⟩ := heap.header
  have small : (if free then 1 else 0) < 2 ^ 64 := by split <;> decide
  refine @Heap.exchange _ _ front [tile] [⟨tile.payload, free⟩] back heap rfl ?_ ?_ ?_
  · intro place _
    exact store_of_outside (by omega)
  · refine ⟨⟨?_, load_store_same small, ?_, ?_, header.aligned⟩, ?_⟩
    · exact (load_store_of_apart (by omega)).trans header.payload
    · exact (load_store_of_apart (by omega)).trans header.next
    · exact (load_store_of_apart (by omega)).trans header.prev
    · apply later.congr_interval
      intro place lower _
      exact store_of_outside (by omega)
  · intro place lower changed
    refine ⟨_, .head _, lower, ?_⟩
    by_contra above
    exact changed (store_of_outside (by simp only at above; omega))

/-- The stores of `absorb`, with the values they have. -/
theorem Heap.absorb_eq (heap : Heap memory (front ++ tile :: second :: back)) {start : ℕ}
    (address : firstBlock + extent 32 front = start) :
    absorb memory start (start + 32 + tile.payload) =
      relink (store (store memory start (tile.payload + 32 + second.payload)) (start + 16)
          (linkTo (start + 32 + tile.payload + 32 + second.payload)))
        (start + 32 + tile.payload + 32 + second.payload) start := by
  obtain ⟨header, ⟨secondHeader, -⟩, full⟩ := heap.header
  rw [address, extent_cons, heapLimit_eq] at full
  rw [address] at header secondHeader
  have sum : addWord tile.payload (addWord 32 second.payload) =
      tile.payload + 32 + second.payload := by
    unfold addWord
    omega
  have small := @linkTo_lt (start + 32 + tile.payload + 32 + second.payload)
    (by rw [heapLimit_eq]; omega)
  have link : next (store memory start (tile.payload + 32 + second.payload))
      (start + 32 + tile.payload) = linkTo (start + 32 + tile.payload + 32 + second.payload) :=
    (load_store_of_apart (by omega)).trans secondHeader.next
  have stored (middle : Memory) : next (SharedHeap.setNext middle start
      (linkTo (start + 32 + tile.payload + 32 + second.payload))) start =
      linkTo (start + 32 + tile.payload + 32 + second.payload) := load_store_same small
  unfold absorb
  simp only [blockBytes, header.payload, secondHeader.payload, sum, setPayloadBytes, link, stored]
  rfl

/-- A block absorbs the next one. -/
theorem Heap.absorb (heap : Heap memory (front ++ tile :: second :: back)) :
    Rewrites memory (absorb memory (firstBlock + extent 32 front)
        (firstBlock + extent 32 front + 32 + tile.payload))
      (front ++ ⟨tile.payload + 32 + second.payload, tile.free⟩ :: back) := by
  obtain ⟨header, ⟨secondHeader, later⟩, full⟩ := heap.header
  rw [heap.absorb_eq rfl]
  generalize address : firstBlock + extent 32 front = start at *
  have positive : 0x20000020 ≤ start := by
    rw [← address, firstBlock_eq]
    omega
  have ends : start + 32 + tile.payload + 32 + second.payload =
      start + 32 + (tile.payload + 32 + second.payload) := by omega
  rw [ends] at later ⊢
  rw [extent_cons] at full
  have full : start + 32 + (tile.payload + 32 + second.payload) + extent 32 back = heapLimit := by
    omega
  generalize joined : tile.payload + 32 + second.payload = payload at *
  have limit := full
  rw [heapLimit_eq] at limit
  have small := @linkTo_lt (start + 32 + payload) (by rw [heapLimit_eq]; omega)
  have aligned : 16 ∣ payload := by
    have first := header.aligned
    have next := secondHeader.aligned
    omega
  have outside : ∀ place, place < start ∨ start + 32 ≤ place →
      start + 32 + payload = heapLimit ∨ place < start + 32 + payload + 24 ∨
        start + 32 + payload + 32 ≤ place →
      relink (store (store memory start payload) (start + 16) (linkTo (start + 32 + payload)))
        (start + 32 + payload) start place = memory place := by
    intro place _ _
    simp (disch := omega) only [relink_of_outside, store_of_outside]
  refine @Heap.exchange _ _ front [tile, second] [⟨payload, tile.free⟩] back heap ?_ ?_ ?_ ?_
  · simp only [extent_cons, extent_nil]
    omega
  · intro place _
    exact outside place (by omega) (by omega)
  · rw [address]
    refine ⟨⟨?_, ?_, ?_, ?_, aligned⟩, later.relinked full ?_ ?_⟩
    · simp (disch := omega) only [payloadBytes, load_relink_of_apart, load_store_of_apart,
        load_store_same]
    · simp (disch := omega) only [flags, load_relink_of_apart, load_store_of_apart]
      exact header.flags
    · simp (disch := omega) only [SharedHeap.next, load_relink_of_apart, load_store_same]
    · simp (disch := omega) only [prev, load_relink_of_apart, load_store_of_apart]
      exact header.prev
    · intro place _ _
      exact outside place (by omega) (by omega)
    · intro inside
      exact prev_relink inside (by omega) (by omega)
  · intro place lower changed
    rw [address] at lower ⊢
    by_cases own : place < start + 32
    · exact ⟨_, .head _, lower, own⟩
    · have behind : start + 32 + payload ≠ heapLimit ∧ start + 32 + payload + 24 ≤ place ∧
          place < start + 32 + payload + 32 := by
        by_contra unaffected
        exact changed (outside place (by omega) (by omega))
      obtain ⟨entry, mem, bounds⟩ := headerByte_first full behind.1 (by omega) behind.2.2
      exact ⟨entry, .tail _ mem, bounds⟩

/-- The stores of `splitBlock` when it splits, with the values they have. -/
theorem Heap.splitBlock_eq (heap : Heap memory (front ++ tile :: back)) {start payload : ℕ}
    (address : firstBlock + extent 32 front = start) (large : payload + 48 < tile.payload) :
    splitBlock memory start payload =
      let remainder := start + 32 + payload
      let memory := store memory remainder (tile.payload - payload - 32)
      let memory := store memory (remainder + 8) 1
      let memory := store memory (remainder + 16) (linkTo (start + 32 + tile.payload))
      let memory := store memory (remainder + 24) start
      let memory := relink memory (start + 32 + tile.payload) remainder
      store (store memory start payload) (start + 16) remainder := by
  obtain ⟨header, -, full⟩ := heap.header
  rw [address, heapLimit_eq] at full
  rw [address] at header
  have nonzero : start ≠ 0 := by
    rw [← address, firstBlock_eq]
    omega
  have threshold : addWord (addWord payload 32) 16 = payload + 48 := by
    unfold addWord
    omega
  have place : addWord (start + 32) payload = start + 32 + payload := by
    unfold addWord
    omega
  have left : subWord (subWord tile.payload payload) 32 = tile.payload - payload - 32 := by
    unfold subWord
    omega
  have small := @linkTo_lt (start + 32 + tile.payload) (by rw [heapLimit_eq]; omega)
  have link : ∀ value, next (SharedHeap.setFlags (setPayloadBytes memory (start + 32 + payload)
      value) (start + 32 + payload) 1) start = linkTo (start + 32 + tile.payload) := by
    intro _
    exact (load_store_of_apart (by omega)).trans
      ((load_store_of_apart (by omega)).trans header.next)
  have copied : ∀ middle : Memory, next (setPrev (setNext middle (start + 32 + payload)
      (linkTo (start + 32 + tile.payload))) (start + 32 + payload) start) (start + 32 + payload) =
      linkTo (start + 32 + tile.payload) := by
    intro _
    exact (load_store_of_apart (by omega)).trans (load_store_same small)
  unfold splitBlock
  simp only [if_neg nonzero, blockBytes, header.payload, threshold, if_neg (Nat.not_le.mpr large),
    place, left, link, copied]
  rfl

/-- A large block is split, its rear part free. -/
theorem Heap.splitBlock (heap : Heap memory (front ++ tile :: back)) {payload : ℕ}
    (large : payload + 48 < tile.payload) (aligned : 16 ∣ payload) :
    Rewrites memory (splitBlock memory (firstBlock + extent 32 front) payload)
      (front ++ ⟨payload, tile.free⟩ :: ⟨tile.payload - payload - 32, true⟩ :: back) := by
  obtain ⟨header, later, full⟩ := heap.header
  rw [heap.splitBlock_eq rfl large]
  generalize address : firstBlock + extent 32 front = start at *
  have positive : 0x20000020 ≤ start := by
    rw [← address, firstBlock_eq]
    omega
  have whole := header.aligned
  obtain ⟨rear, total⟩ : ∃ rear, tile.payload = payload + 32 + rear :=
    ⟨tile.payload - payload - 32, by omega⟩
  have rest : tile.payload - payload - 32 = rear := by omega
  have ends : start + 32 + tile.payload = start + 32 + payload + 32 + rear := by omega
  rw [ends] at later full
  simp only [ends, rest]
  have limit := full
  rw [heapLimit_eq] at limit
  have small := @linkTo_lt (start + 32 + payload + 32 + rear) (by rw [heapLimit_eq]; omega)
  generalize written : store (store (relink _ _ _) _ _) _ _ = final
  have outside : ∀ place, place < start ∨ start + 32 ≤ place →
      place < start + 32 + payload ∨ start + 32 + payload + 32 ≤ place →
      start + 32 + payload + 32 + rear = heapLimit ∨
        place < start + 32 + payload + 32 + rear + 24 ∨
        start + 32 + payload + 32 + rear + 32 ≤ place → final place = memory place := by
    intro place _ _ _
    rw [← written]
    simp (disch := omega) only [relink_of_outside, store_of_outside]
  refine @Heap.exchange _ _ front [tile] [⟨payload, tile.free⟩, ⟨rear, true⟩] back heap ?_ ?_ ?_ ?_
  · simp only [extent_cons, extent_nil]
    omega
  · intro place _
    exact outside place (by omega) (by omega) (by omega)
  · rw [address]
    refine ⟨⟨?_, ?_, ?_, ?_, aligned⟩, ⟨?_, ?_, ?_, ?_, ?_⟩, later.relinked full ?_ ?_⟩
    · simp (disch := omega) only [payloadBytes, ← written, load_store_of_apart, load_store_same]
    · simp (disch := omega) only [flags, ← written, load_relink_of_apart, load_store_of_apart]
      exact header.flags
    · simp (disch := omega) only [SharedHeap.next, ← written, load_store_same]
      exact (if_neg (by omega)).symm
    · simp (disch := omega) only [prev, ← written, load_relink_of_apart, load_store_of_apart]
      exact header.prev
    · simp (disch := omega) only [payloadBytes, ← written, load_relink_of_apart,
        load_store_of_apart, load_store_same]
    · simp (disch := omega) only [flags, ← written, load_relink_of_apart, load_store_of_apart,
        load_store_same, if_true]
    · simp (disch := omega) only [SharedHeap.next, ← written, load_relink_of_apart,
        load_store_of_apart, load_store_same]
    · simp (disch := omega) only [prev, ← written, load_relink_of_apart, load_store_of_apart,
        load_store_same]
    · simp only
      omega
    · intro place _ _
      exact outside place (by omega) (by omega) (by omega)
    · intro inside
      simp (disch := omega) only [prev, ← written, load_store_of_apart]
      exact prev_relink inside (by omega) (by omega)
  · intro place lower changed
    rw [address] at lower ⊢
    by_cases own : place < start + 32
    · exact ⟨_, .head _, lower, own⟩
    by_cases inRemainder : start + 32 + payload ≤ place ∧ place < start + 32 + payload + 32
    · exact ⟨_, .tail _ (.head _), inRemainder⟩
    have behind : start + 32 + payload + 32 + rear ≠ heapLimit ∧
        start + 32 + payload + 32 + rear + 24 ≤ place ∧
        place < start + 32 + payload + 32 + rear + 32 := by
      by_contra unaffected
      exact changed (outside place (by omega) (by omega) (by omega))
    obtain ⟨entry, mem, bounds⟩ := headerByte_first full behind.1 (by omega) behind.2.2
    exact ⟨entry, .tail _ (.tail _ mem), bounds⟩

end RosKernel.SharedHeap
