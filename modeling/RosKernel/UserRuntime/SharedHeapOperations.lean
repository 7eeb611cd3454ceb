import RosKernel.UserRuntime.SharedHeapBlocks

/-!
# Operations of the shared user heap

What each locked operation does to the tiling: it concerns one block, and every other block in
use stays where it is with its bytes.
-/

namespace RosKernel.SharedHeap

open WordMemory Tiling List

/-- A heap goes over into another that has every block in use but, at most, the one at an
address, with its payload. -/
structure Evolves (address : ℕ) (memory later : Memory) (old new : List Tile) : Prop where
  heap : Heap later new
  below : ∀ place < firstBlock, later place = memory place
  keeps : ∀ entry ∈ placed 32 firstBlock old, entry.2.free = false → entry.1 ≠ address →
    entry ∈ placed 32 firstBlock new
  bytes : ∀ entry ∈ placed 32 firstBlock old, entry.2.free = false → entry.1 ≠ address →
    ∀ offset < entry.2.payload, later (entry.1 + 32 + offset) = memory (entry.1 + 32 + offset)

namespace Evolves

variable {address : ℕ} {memory middle later : Memory} {old between new : List Tile}

theorem refl (heap : Heap memory old) : Evolves address memory memory old old :=
  ⟨heap, fun _ _ => rfl, fun _ mem _ _ => mem, fun _ _ _ _ _ _ => rfl⟩

theorem trans (first : Evolves address memory middle old between)
    (second : Evolves address middle later between new) : Evolves address memory later old new := by
  refine ⟨second.heap, ?_, ?_, ?_⟩
  · intro place under
    rw [second.below place under, first.below place under]
  · intro entry mem used ne
    exact second.keeps entry (first.keeps entry mem used ne) used ne
  · intro entry mem used ne offset bound
    rw [second.bytes entry (first.keeps entry mem used ne) used ne offset bound,
      first.bytes entry mem used ne offset bound]

end Evolves

variable {tiles : List Tile} {memory later : Memory}

/-- Header bytes are no payload bytes. -/
theorem Rewrites.bytes (rewrites : Rewrites memory later tiles) {entry : ℕ × Tile}
    (mem : entry ∈ placed 32 firstBlock tiles) {offset : ℕ} (bound : offset < entry.2.payload) :
    later (entry.1 + 32 + offset) = memory (entry.1 + 32 + offset) := by
  by_contra changed
  have bounds := placed_bounds mem
  exact not_headerByte mem (by omega) (by omega)
    (rewrites.frame (entry.1 + 32 + offset) (by omega) changed)

variable {address : ℕ}

/-- An exchange of tiles of which at most the one at the address is in use. -/
theorem Rewrites.evolves {front old new back : List Tile}
    (rewrites : Rewrites memory later (front ++ (new ++ back)))
    (same : extent 32 new = extent 32 old)
    (concerns : ∀ entry ∈ placed 32 (firstBlock + extent 32 front) old, entry.2.free = false →
      entry.1 = address) :
    Evolves address memory later (front ++ (old ++ back)) (front ++ (new ++ back)) := by
  have keeps : ∀ entry ∈ placed 32 firstBlock (front ++ (old ++ back)), entry.2.free = false →
      entry.1 ≠ address → entry ∈ placed 32 firstBlock (front ++ (new ++ back)) := by
    intro entry mem used ne
    rw [← append_assoc] at mem ⊢
    rcases mem_placed_replace same mem with kept | inOld
    · exact kept
    · exact absurd (concerns entry inOld used) ne
  refine ⟨rewrites.heap, rewrites.below, keeps, ?_⟩
  intro entry mem used ne _ bound
  exact rewrites.bytes (keeps entry mem used ne) bound

section

variable {memory : Memory} {front back : List Tile} {tile second : Tile}

/-- The block at an address becomes free or used. -/
theorem Heap.evolves_setFlags (heap : Heap memory (front ++ tile :: back)) (free : Bool) :
    Evolves (firstBlock + extent 32 front) memory
      (SharedHeap.setFlags memory (firstBlock + extent 32 front) (if free then 1 else 0))
      (front ++ tile :: back) (front ++ ⟨tile.payload, free⟩ :: back) := by
  apply @Rewrites.evolves _ _ _ front [tile] [⟨tile.payload, free⟩] back (heap.setFlags free) rfl
  intro _ mem _
  rw [mem_singleton.mp mem]

/-- A block absorbs a free one. -/
theorem Heap.evolves_absorb (heap : Heap memory (front ++ tile :: second :: back))
    (concerns : tile.free = false → firstBlock + extent 32 front = address)
    (alsoConcerns : second.free = false →
      firstBlock + extent 32 front + 32 + tile.payload = address) :
    Evolves address memory (SharedHeap.absorb memory (firstBlock + extent 32 front)
        (firstBlock + extent 32 front + 32 + tile.payload))
      (front ++ tile :: second :: back)
      (front ++ ⟨tile.payload + 32 + second.payload, tile.free⟩ :: back) := by
  refine @Rewrites.evolves _ _ _ front [tile, second]
    [⟨tile.payload + 32 + second.payload, tile.free⟩] back heap.absorb ?_ ?_
  · simp only [extent_cons, extent_nil]
    omega
  · intro _ mem used
    rcases mem_cons.mp mem with rfl | later
    · exact concerns used
    · rw [mem_singleton.mp later] at used ⊢
      exact alsoConcerns used

/-- `splitBlock` leaves at least the payload asked for. -/
theorem Heap.evolves_splitBlock {payload : ℕ} (heap : Heap memory (front ++ tile :: back))
    (fits : payload ≤ tile.payload) (aligned : 16 ∣ payload) :
    ∃ kept rest, payload ≤ kept ∧ Evolves (firstBlock + extent 32 front) memory
        (SharedHeap.splitBlock memory (firstBlock + extent 32 front) payload)
        (front ++ tile :: back) (front ++ ⟨kept, tile.free⟩ :: (rest ++ back)) ∧
      ∀ offset < kept, SharedHeap.splitBlock memory (firstBlock + extent 32 front) payload
          (firstBlock + extent 32 front + 32 + offset) =
        memory (firstBlock + extent 32 front + 32 + offset) := by
  obtain ⟨header, -, full⟩ := heap.header
  rw [heapLimit_eq] at full
  by_cases large : payload + 48 < tile.payload
  · have rewrites := heap.splitBlock large aligned
    refine ⟨payload, [⟨tile.payload - payload - 32, true⟩], Nat.le_refl _, ?_, ?_⟩
    · refine @Rewrites.evolves _ _ _ front [tile]
        [⟨payload, tile.free⟩, ⟨tile.payload - payload - 32, true⟩] back rewrites ?_ ?_
      · simp only [extent_cons, extent_nil]
        omega
      · intro _ mem _
        rw [mem_singleton.mp mem]
    · intro _ bound
      exact rewrites.bytes (mem_placed_middle _ _ _ _) bound
  · have unsplit : SharedHeap.splitBlock memory (firstBlock + extent 32 front) payload =
        memory := by
      have threshold : addWord (addWord payload 32) 16 = payload + 48 := by
        unfold addWord
        omega
      unfold SharedHeap.splitBlock
      rw [header.payload, blockBytes, threshold, if_pos (show tile.payload ≤ payload + 48 by omega)]
      exact ite_self _
    rw [unsplit]
    exact ⟨tile.payload, [], fits, .refl heap, fun _ _ => rfl⟩

theorem lastBlock_concat (start before : ℕ) (front : List Tile) (tile : Tile) :
    lastBlock start before (front ++ [tile]) = start + extent 32 front := by
  induction front generalizing start before with
  | nil => rfl
  | cons _ _ ih =>
    rw [cons_append, lastBlock, ih, extent_cons]
    omega

section

variable (heap : Heap memory (front ++ tile :: back))
include heap

/-- The flag that `blockIsFree` reads. -/
theorem Heap.blockIsFree : blockIsFree memory (firstBlock + extent 32 front) = tile.free := by
  unfold SharedHeap.blockIsFree
  rw [heap.header.1.flags]
  cases tile.free <;> simp [firstBlock_eq]

/-- The successor of a block. -/
theorem Heap.next :
    next memory (firstBlock + extent 32 front) =
      if back = [] then 0 else firstBlock + extent 32 front + 32 + tile.payload := by
  obtain ⟨header, -, full⟩ := heap.header
  rw [header.next, linkTo]
  cases back with
  | nil => rw [if_pos (by simpa using full), if_pos rfl]
  | cons =>
    rw [extent_cons] at full
    rw [if_neg (by omega), if_neg (cons_ne_nil _ _)]

/-- The predecessor of a block. -/
theorem Heap.prev : prev memory (firstBlock + extent 32 front) = lastBlock firstBlock 0 front :=
  heap.header.1.prev

end

theorem start_ne_zero (front : List Tile) : firstBlock + extent 32 front ≠ 0 := by
  rw [firstBlock_eq]
  omega

/-- The flag of the block behind. -/
theorem Heap.blockIsFree_second (heap : Heap memory (front ++ tile :: second :: back)) :
    SharedHeap.blockIsFree memory (firstBlock + extent 32 front + 32 + tile.payload) =
      second.free := by
  rw [append_cons] at heap
  have flag := heap.blockIsFree
  rwa [extent_append, extent_cons, extent_nil, Nat.add_zero, ← Nat.add_assoc,
    ← Nat.add_assoc] at flag

variable (heap : Heap memory (front ++ tile :: back))
include heap

/-- The first half of `coalesce`. -/
theorem Heap.coalesce_next :
    ∃ merged rest, Evolves (firstBlock + extent 32 front) memory
      (if SharedHeap.next memory (firstBlock + extent 32 front) ≠ 0 ∧
          SharedHeap.blockIsFree memory (SharedHeap.next memory (firstBlock + extent 32 front)) then
        SharedHeap.absorb memory (firstBlock + extent 32 front)
          (SharedHeap.next memory (firstBlock + extent 32 front))
      else memory) (front ++ tile :: back) (front ++ merged :: rest) := by
  rw [heap.next]
  cases back with
  | nil => exact ⟨tile, [], by simpa using Evolves.refl heap⟩
  | cons second rest =>
    rw [if_neg (cons_ne_nil second rest), heap.blockIsFree_second]
    by_cases secondFree : second.free = true
    · rw [if_pos ⟨by rw [firstBlock_eq]; omega, secondFree⟩]
      refine ⟨_, rest, heap.evolves_absorb (fun _ => rfl) ?_⟩
      rw [secondFree]
      exact nofun
    · rw [if_neg fun both => secondFree both.2]
      exact ⟨tile, second :: rest, .refl heap⟩

/-- The second half of `coalesce`. -/
theorem Heap.coalesce_prev :
    ∃ new, Evolves (firstBlock + extent 32 front) memory
      (if SharedHeap.prev memory (firstBlock + extent 32 front) ≠ 0 ∧
          SharedHeap.blockIsFree memory (SharedHeap.prev memory (firstBlock + extent 32 front)) then
        SharedHeap.absorb memory (SharedHeap.prev memory (firstBlock + extent 32 front))
          (firstBlock + extent 32 front)
      else memory) (front ++ tile :: back) new := by
  rw [heap.prev]
  rcases eq_nil_or_concat front with rfl | ⟨initial, before, rfl⟩
  · exact ⟨_, by simpa [lastBlock] using Evolves.refl heap⟩
  · rw [concat_eq_append, lastBlock_concat]
    rw [concat_eq_append, append_assoc, singleton_append] at heap
    rw [append_assoc, singleton_append, heap.blockIsFree]
    by_cases beforeFree : before.free = true
    · rw [if_pos ⟨start_ne_zero initial, beforeFree⟩]
      have place : firstBlock + extent 32 (initial ++ [before]) =
          firstBlock + extent 32 initial + 32 + before.payload := by
        rw [extent_append, extent_cons, extent_nil]
        omega
      rw [place]
      refine ⟨_, heap.evolves_absorb ?_ ?_⟩
      · intro used
        cases beforeFree.symm.trans used
      · exact fun _ => rfl
    · rw [if_neg fun both => beforeFree both.2]
      exact ⟨_, .refl heap⟩

theorem Heap.evolves_coalesce :
    ∃ new, Evolves (firstBlock + extent 32 front) memory
      (coalesce memory (firstBlock + extent 32 front)) (front ++ tile :: back) new := by
  obtain ⟨_, _, first⟩ := heap.coalesce_next
  obtain ⟨new, second⟩ := first.heap.coalesce_prev
  refine ⟨new, ?_⟩
  rw [coalesce, if_neg (start_ne_zero front)]
  exact first.trans second

/-- A payload starts inside the reservation. -/
theorem Heap.containsPointer (positive : 0 < tile.payload) :
    containsPointer (firstBlock + extent 32 front + 32) = true := by
  obtain ⟨-, -, full⟩ := heap.header
  rw [firstBlock_eq, heapLimit_eq] at full
  unfold SharedHeap.containsPointer
  rw [firstBlock_eq, heapLimit_eq, heapBase_eq]
  simp only [decide_eq_true_eq]
  omega

/-- `freeLocked` of a payload. -/
theorem Heap.evolves_freeLocked (positive : 0 < tile.payload) :
    ∃ new, Evolves (firstBlock + extent 32 front) memory
      (freeLocked memory (firstBlock + extent 32 front + 32)) (front ++ tile :: back) new := by
  have marked := heap.evolves_setFlags true
  obtain ⟨new, coalesced⟩ := marked.heap.evolves_coalesce
  refine ⟨new, ?_⟩
  have flagged : flags memory (firstBlock + extent 32 front) ||| 1 = if true then 1 else 0 := by
    rw [heap.header.1.flags]
    cases tile.free <;> rfl
  have inside : ¬ (firstBlock + extent 32 front + 32 = 0 ∨
      (!SharedHeap.containsPointer (firstBlock + extent 32 front + 32)) = true) := by
    rw [heap.containsPointer positive]
    simp
  rw [freeLocked, if_neg inside]
  simp only [blockBytes, Nat.add_sub_cancel, flagged]
  exact marked.trans coalesced

end

/-! ## Allocation -/

/-- What `mallocLocked` returns: nothing, or the payload of a block that was free. -/
inductive Allocates (payload : ℕ) (memory : Memory) (tiles : List Tile) : ℕ → Memory → Prop
  | exhausted : Allocates payload memory tiles 0 memory
  | served {later : Memory} {new : List Tile} {address kept : ℕ} {tile : Tile}
      (wasFree : (address, tile) ∈ placed 32 firstBlock tiles) (free : tile.free = true)
      (inUse : (address, ⟨kept, false⟩) ∈ placed 32 firstBlock new) (fits : payload ≤ kept)
      (evolves : Evolves address memory later tiles new) :
      Allocates payload memory tiles (address + 32) later

variable {memory : Memory}

/-- The loop from one block on. -/
theorem Heap.mallocFrom {seen rest : List Tile} {payload fuel : ℕ}
    (heap : Heap memory (seen ++ rest)) (aligned : 16 ∣ payload) (enough : rest.length < fuel) :
    ∃ pointer later, mallocFrom payload fuel memory
        (if rest = [] then 0 else firstBlock + extent 32 seen) = some (pointer, later) ∧
      Allocates payload memory (seen ++ rest) pointer later := by
  induction rest generalizing seen fuel with
  | nil =>
    cases fuel with
    | zero => cases enough
    | succ => exact ⟨0, memory, rfl, .exhausted⟩
  | cons tile rest ih =>
    cases fuel with
    | zero => cases enough
    | succ =>
      rw [if_neg (cons_ne_nil tile rest), SharedHeap.mallocFrom,
        if_neg (start_ne_zero seen), heap.blockIsFree, heap.next, heap.header.1.payload]
      split
      · rename_i skipped
        have later := heap
        rw [append_cons] at later
        have walked := ih later (Nat.lt_of_succ_lt_succ enough)
        rw [← append_cons, extent_append, extent_cons, extent_nil, Nat.add_zero,
          ← Nat.add_assoc, ← Nat.add_assoc] at walked
        exact walked
      · rename_i chosen
        rw [not_or] at chosen
        have free : tile.free = true := by simpa using chosen.1
        obtain ⟨_, _, fits, split, -⟩ := heap.evolves_splitBlock (Nat.le_of_not_lt chosen.2) aligned
        have cleared := split.heap.evolves_setFlags false
        have flag : flags (SharedHeap.splitBlock memory (firstBlock + extent 32 seen) payload)
            (firstBlock + extent 32 seen) &&& (2 ^ 64 - 2) = if false then 1 else 0 := by
          rw [split.heap.header.1.flags]
          cases tile.free <;> rfl
        refine ⟨_, _, rfl, ?_⟩
        rw [flag]
        exact .served (mem_placed_middle _ _ _ _) free (mem_placed_middle _ _ _ _) fits
          (split.trans cleared)

theorem length_le_extent (tiles : List Tile) : 32 * tiles.length ≤ extent 32 tiles := by
  induction tiles with
  | nil => exact Nat.zero_le _
  | cons =>
    rw [length_cons, extent_cons]
    omega

/-- `mallocLocked` returns. -/
theorem Heap.mallocLocked {payload : ℕ} (heap : Heap memory tiles) (aligned : 16 ∣ payload) :
    ∃ pointer later, mallocLocked memory payload = some (pointer, later) ∧
      Allocates payload memory tiles pointer later := by
  have full := heap.full
  rw [firstBlock_eq, heapLimit_eq] at full
  have enough : tiles.length < walkFuel := by
    have short := length_le_extent tiles
    have fuel : walkFuel = 2 ^ 24 := by decide
    omega
  have nonempty : tiles ≠ [] := by
    rintro rfl
    cases full
  obtain ⟨pointer, later, returned, allocates⟩ :=
    @Heap.mallocFrom memory [] tiles payload walkFuel heap aligned enough
  rw [if_neg nonempty, extent_nil, Nat.add_zero, ← heap.head] at returned
  exact ⟨pointer, later, returned, allocates⟩

/-! ## Payload bytes -/

/-- A change inside one payload. -/
theorem Heap.evolves_payload {tile : Tile}
    (heap : Heap memory tiles) (mem : (address, tile) ∈ placed 32 firstBlock tiles)
    (same : ∀ place, place < address + 32 ∨ address + 32 + tile.payload ≤ place →
      later place = memory place) :
    Evolves address memory later tiles tiles := by
  have bounds := placed_bounds mem
  simp only at bounds
  have below : ∀ place < firstBlock, later place = memory place := fun place _ =>
    same place (by omega)
  have loads : ∀ place, place + 8 ≤ firstBlock → load later place = load memory place := by
    intro place bound
    apply load_congr
    intro byte _ _
    exact below byte (by omega)
  refine ⟨⟨?_, ?_, ?_, heap.full⟩, below, fun _ kept _ _ => kept, ?_⟩
  · exact (loads heapBase (by decide)).trans heap.magic
  · exact (loads (heapBase + 16) (by decide)).trans heap.head
  · apply heap.segment.congr
    intro _ isHeader
    apply same
    by_contra inside
    rw [not_or] at inside
    exact not_headerByte mem (by simp only; omega) (by simp only; omega) isHeader
  · intro _ entryMember _ ne _ _
    apply same
    rcases placed_apart entryMember mem with rfl | before | after
    · exact absurd rfl ne
    · simp only at before
      omega
    · simp only at after
      omega

theorem copyBytes_outside {destination source count place : ℕ}
    (outside : place < destination ∨ destination + count ≤ place) :
    copyBytes memory destination source count place = memory place := by
  induction count with
  | zero => rfl
  | succ _ ih =>
    rw [copyBytes, Function.update_of_ne (by omega)]
    exact ih (by omega)

/-- The copy loop between ranges that do not overlap. -/
theorem copyBytes_inside {destination source count offset : ℕ}
    (apart : source + count ≤ destination ∨ destination + count ≤ source) (bound : offset < count) :
    copyBytes memory destination source count (destination + offset) =
      memory (source + offset) := by
  induction count with
  | zero => cases bound
  | succ count ih =>
    rw [copyBytes]
    by_cases last : offset = count
    · subst last
      rw [Function.update_self, copyBytes_outside (by omega)]
    · rw [Function.update_of_ne (by omega)]
      exact ih (by omega) (by omega)

/-! ## Sizes -/

theorem alignUp_eq {size : ℕ} (small : size ≤ 2 ^ 64 - 17) :
    alignUp size = (size + 15) / 16 * 16 := by
  unfold alignUp addWord
  rw [Nat.mod_eq_of_lt (by omega)]

theorem alignUp_aligned (size : ℕ) : 16 ∣ alignUp size := Nat.dvd_mul_left 16 _

theorem le_alignUp {size : ℕ} (small : size ≤ 2 ^ 64 - 17) : size ≤ alignUp size := by
  rw [alignUp_eq small]
  omega

end RosKernel.SharedHeap
