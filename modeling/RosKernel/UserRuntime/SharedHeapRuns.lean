import RosKernel.UserRuntime.SharedHeapCalls

/-!
# Runs of the shared user heap

Every sequence of permitted calls keeps the blocks a tiling of the reservation and the live
allocations apart inside it; every call returns, and leaves the bytes of other allocations and,
for a reallocation, the common part of its own.
-/

namespace RosKernel.SharedHeap

open WordMemory Tiling

variable {memory : Memory} {tiles : List Tile} {live : List Allocation} {address : ℕ}

/-- The allocation an operation concerns. -/
def Operation.pointer : Operation → ℕ
  | .malloc _ => 0
  | .free pointer => pointer
  | .realloc pointer _ => pointer
  | .write pointer _ _ => pointer

/-- A call has returned, with the bytes of other allocations as they were, and after a
reallocation with the common part of its own. -/
structure Preserves (state : State) (operation : Operation) (result : ℕ) (later : State) :
    Prop where
  others : ∀ other ∈ state.live, other.pointer ≠ operation.pointer → ∀ offset < other.size,
    later.memory (other.pointer + offset) = state.memory (other.pointer + offset)
  common : ∀ size, operation = .realloc operation.pointer size → result ≠ 0 →
    ∀ allocation ∈ state.live, allocation.pointer = operation.pointer →
      ∀ offset < min allocation.size size,
        later.memory (result + offset) = state.memory (allocation.pointer + offset)
  failed : ∀ size, operation = .realloc operation.pointer size → result = 0 → size ≠ 0 →
    later.live = state.live ∧ ∀ allocation ∈ state.live, ∀ offset < allocation.size,
      later.memory (allocation.pointer + offset) = state.memory (allocation.pointer + offset)

variable {allocation : Allocation}

theorem Live.pointer_ne_zero (isLive : Live tiles live)
    (mem : allocation ∈ live) : allocation.pointer ≠ 0 := by
  obtain ⟨_, _, -, -, _, -⟩ := isLive.blocks allocation mem
  omega

variable {state : State}

section

variable (inv : Invariant state)
include inv

theorem Invariant.pointer_ne_zero (mem : allocation ∈ state.live) : allocation.pointer ≠ 0 := by
  obtain ⟨_, _, _, _, isLive, _⟩ := inv.lock
  exact isLive.pointer_ne_zero mem

/-- Live allocations are told apart by their pointers. -/
theorem Invariant.unique {first second : Allocation} (firstMember : first ∈ state.live)
    (secondMember : second ∈ state.live) (same : first.pointer = second.pointer) :
    first = second := by
  obtain ⟨_, _, _, _, isLive, _⟩ := inv.lock
  exact List.inj_on_of_nodup_map isLive.distinct firstMember secondMember same

theorem Invariant.without_zero : state.without 0 = state.live := by
  apply List.filter_eq_self.mpr
  intro _ mem
  simpa using inv.pointer_ne_zero mem

/-- A store into a live allocation. -/
theorem Invariant.write
    (mem : allocation ∈ state.live) {offset : ℕ} (bound : offset < allocation.size) (byte : UInt8) :
    Invariant ⟨Function.update state.memory (allocation.pointer + offset) byte, state.live⟩ ∧
      ∀ other ∈ state.live, other.pointer ≠ allocation.pointer → ∀ place < other.size,
        Function.update state.memory (allocation.pointer + offset) byte (other.pointer + place) =
          state.memory (other.pointer + place) := by
  rcases inv.heap with ⟨tiles, heap, isLive⟩ | ⟨-, none⟩
  · obtain ⟨address, tile, placed, _, pointer, _, _⟩ := isLive.blocks allocation mem
    have outside : ∀ place, place < address + 32 ∨ address + 32 + tile.payload ≤ place →
        Function.update state.memory (allocation.pointer + offset) byte place =
          state.memory place := by
      intro place _
      exact Function.update_of_ne (by omega) _ _
    have evolves := heap.evolves_payload placed outside
    have bounds := placed_bounds placed
    refine ⟨⟨?_, .inl ⟨tiles, evolves.heap, isLive⟩⟩, ?_⟩
    · rw [← inv.unlocked]
      apply load_congr
      intro place _ upper
      rw [heapBase_eq] at upper
      rw [firstBlock_eq] at bounds
      exact outside place (by omega)
    · intro _ otherMem ne _ inside
      exact isLive.bytes evolves otherMem (pointer ▸ ne) inside
  · rw [none] at mem
    cases mem

/-- Every permitted operation returns and keeps the invariant. -/
theorem Invariant.run {operation : Operation} (permitted : Permitted state operation) :
    ∃ result later, run state operation = some (result, later) ∧ Invariant later ∧
      Preserves state operation result later := by
  cases operation with
  | malloc =>
    obtain ⟨pointer, later, returned, kept, bytes⟩ := inv.malloc permitted
    refine ⟨pointer, _, ?_, kept, ⟨?_, nofun, nofun⟩⟩
    · rw [SharedHeap.run, returned]
      rfl
    · exact fun other mem _ => bytes other mem
  | free =>
    rcases permitted with rfl | ⟨allocation, mem, rfl⟩
    · have returned : SharedHeap.free state.memory 0 = some state.memory := if_pos (.inl rfl)
      refine ⟨0, state, ?_, inv, ⟨fun _ _ _ _ _ => rfl, nofun, nofun⟩⟩
      rw [SharedHeap.run, returned, inv.without_zero]
      rfl
    · obtain ⟨later, returned, kept, bytes⟩ := inv.free mem
      refine ⟨0, _, ?_, kept, ⟨bytes, nofun, nofun⟩⟩
      rw [SharedHeap.run, returned]
      rfl
  | write _ _ byte =>
    obtain ⟨allocation, mem, rfl, bound⟩ := permitted
    obtain ⟨kept, bytes⟩ := inv.write mem bound byte
    exact ⟨0, _, rfl, kept, ⟨bytes, nofun, nofun⟩⟩
  | realloc _ size =>
    obtain ⟨small, rfl | ⟨allocation, mem, rfl⟩⟩ := permitted
    · obtain ⟨result, later, returned, kept, bytes⟩ := inv.malloc small
      have sameLive : (if result ≠ 0 then ⟨result, size⟩ :: state.without 0
          else if size = 0 then state.without 0 else state.live) =
          if result = 0 then state.live else ⟨result, size⟩ :: state.live := by
        rw [inv.without_zero]
        by_cases zero : result = 0 <;> simp [zero]
      refine ⟨result, ⟨later, _⟩, ?_, kept, ⟨fun other otherMem _ => bytes other otherMem, ?_, ?_⟩⟩
      · rw [SharedHeap.run, SharedHeap.realloc, if_pos rfl, returned, ← sameLive]
        rfl
      · intro _ _ _ allocation mem zero
        exact absurd zero (inv.pointer_ne_zero mem)
      · intro _ _ zero _
        exact ⟨if_pos zero, bytes⟩
    · by_cases zero : size = 0
      · subst zero
        obtain ⟨later, returned, kept, bytes⟩ := inv.free mem
        refine ⟨0, _, ?_, kept, ⟨bytes, fun _ _ nonzero => absurd rfl nonzero, ?_⟩⟩
        · rw [SharedHeap.run, SharedHeap.realloc, if_neg (inv.pointer_ne_zero mem),
            if_pos rfl, returned]
          rfl
        · intro size same _ nonzero
          exact absurd (Operation.realloc.inj same).2.symm nonzero
      · obtain ⟨result, later, returned, done⟩ := inv.realloc mem small (Nat.pos_of_ne_zero zero)
        have sameLive : (if result ≠ 0 then ⟨result, size⟩ :: state.without allocation.pointer
            else if size = 0 then state.without allocation.pointer else state.live) =
            if result ≠ 0 then ⟨result, size⟩ :: state.without allocation.pointer
              else state.live := by
          rw [if_neg zero]
        refine ⟨result, ⟨later, _⟩, ?_, done.invariant, ⟨done.others, ?_, ?_⟩⟩
        · rw [SharedHeap.run, returned, ← sameLive]
          rfl
        · intro _ same nonzero other otherMem otherPointer offset bound
          obtain rfl := (Operation.realloc.inj same).2
          obtain rfl := inv.unique otherMem mem otherPointer
          exact done.common nonzero offset bound
        · intro _ _ failed _
          refine ⟨if_neg (not_not.mpr failed), ?_⟩
          intro other otherMem offset bound
          by_cases own : other.pointer = allocation.pointer
          · obtain rfl := inv.unique otherMem mem own
            exact done.failed failed offset bound
          · exact done.others other otherMem own offset bound

end

theorem invariant_boot : Invariant .boot :=
  ⟨by decide +kernel, .inr ⟨by unfold Initialized; decide +kernel, rfl⟩⟩

/-- The invariant along a run. -/
theorem Reachable.invariant (reachable : Reachable state) : Invariant state := by
  induction reachable with
  | start isBoot => exact isBoot ▸ invariant_boot
  | step _ _ permitted ran ih =>
    obtain ⟨_, _, returned, kept, -⟩ := ih.run permitted
    rw [returned] at ran
    cases ran
    exact kept

/-- The blocks from the head tile the reservation, live pointers are aligned payloads of blocks
in use that are large enough, and their payloads are apart. The list is the one a caller finds
under the lock, which the first call sets up. -/
structure Sound (state : State) : Prop where
  blocks : ∃ tiles, Heap (initializeLocked state.memory) tiles ∧
    ∀ allocation ∈ state.live, ∃ address tile, (address, tile) ∈ placed 32 firstBlock tiles ∧
      tile.free = false ∧ allocation.pointer = address + 32 ∧ 16 ∣ allocation.pointer ∧
      allocation.size ≤ tile.payload
  disjoint : state.live.Pairwise fun first second =>
    first.pointer + payloadBytes state.memory (first.pointer - 32) ≤ second.pointer ∨
      second.pointer + payloadBytes state.memory (second.pointer - 32) ≤ first.pointer

theorem Heap.payloadBytes_eq (heap : Heap memory tiles) {tile : Tile}
    (mem : (address, tile) ∈ placed 32 firstBlock tiles) :
    payloadBytes memory address = tile.payload := by
  obtain ⟨_, _, split, place⟩ := exists_split mem
  subst split place
  exact heap.header.1.payload

theorem Invariant.sound (inv : Invariant state) : Sound state := by
  rcases inv.heap with ⟨tiles, heap, isLive⟩ | ⟨fresh, none⟩
  · refine ⟨⟨tiles, ?_, ?_⟩, ?_⟩
    · rw [heap.initializeLocked_eq]
      exact heap
    · intro allocation mem
      obtain ⟨address, tile, placed, used, pointer, size, -⟩ := isLive.blocks allocation mem
      have aligned := heap.segment.aligned (by decide) placed
      exact ⟨address, tile, placed, used, pointer, by simp only at aligned; omega, size⟩
    · apply (List.pairwise_map.mp isLive.distinct).imp_of_mem
      intro first second firstMember secondMember ne
      obtain ⟨_, _, placed, -, pointer, -⟩ := isLive.blocks first firstMember
      obtain ⟨_, _, otherPlaced, -, otherPointer, -⟩ := isLive.blocks second secondMember
      rw [pointer, otherPointer, Nat.add_sub_cancel, Nat.add_sub_cancel,
        heap.payloadBytes_eq placed, heap.payloadBytes_eq otherPlaced]
      rcases placed_apart placed otherPlaced with same | before | after
      · rw [pointer, otherPointer, (Prod.mk.inj same).1] at ne
        exact absurd rfl ne
      · simp only at before
        omega
      · simp only at after
        omega
  · refine ⟨⟨[wholeHeap], heap_initializeLocked fresh, ?_⟩, ?_⟩
    · rw [none]
      exact nofun
    · rw [none]
      exact .nil

/-- Every sequence of permitted calls leaves a sound heap, in which every permitted call returns
and preserves the bytes it should. -/
theorem sharedHeap_sound {state : State} (reachable : Reachable state) :
    Sound state ∧ ∀ operation, Permitted state operation →
      ∃ result later, run state operation = some (result, later) ∧
        Preserves state operation result later := by
  refine ⟨reachable.invariant.sound, ?_⟩
  intro _ permitted
  obtain ⟨result, later, returned, -, preserves⟩ := reachable.invariant.run permitted
  exact ⟨result, later, returned, preserves⟩

/-- A program that takes 24 bytes, then 100, and shrinks the second allocation. -/
theorem sharedHeap_sound_twoAllocations :
    ∃ state, Reachable state ∧ state.live = [⟨0x20000080, 40⟩, ⟨0x20000040, 24⟩] ∧ Sound state := by
  have ends : (Runs.performAll (Runs.checked (fun state operation => Permitted state operation)
      fun state operation => (run state operation).map Prod.snd) .boot
        [.malloc 24, .malloc 100, .realloc 0x20000080 40]).map State.live =
      some [⟨0x20000080, 40⟩, ⟨0x20000040, 24⟩] := by
    decide +kernel
  obtain ⟨state, ran, live⟩ := Option.map_eq_some_iff.mp ends
  have reachable : Reachable state :=
    ((@Runs.Reachable.start _ _ (· = State.boot) _ _ _ rfl).performAll (fun _ _ _ => trivial)
      ran).of_checked fun _ _ => of_decide_eq_true
  exact ⟨state, reachable, live, (sharedHeap_sound reachable).1⟩

end RosKernel.SharedHeap
