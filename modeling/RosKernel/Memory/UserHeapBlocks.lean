import RosKernel.Memory.FileMappingOwnership
import RosKernel.Memory.UserHeap

/-!
# Raw blocks of the user heap

As long as no sum in the gap search leaves 64 bits, the search is first fit between the
blocks of the process, so blocks never overlap and stay inside the upper half of the
heap window. The search adds the size to the end of the highest block at most.
-/

namespace RosKernel.Memory

open List

open FileMappings (eightPages servedCall)

/-- The addresses of a block. -/
def HeapAllocation.span (allocation : HeapAllocation) : Span :=
  ⟨allocation.userBase, allocation.size⟩

namespace UserHeap

open KernelHeap (wrap)

variable {state : UserHeap} {process size : ℕ}

/-- The blocks of one process, in address order. -/
def blocksOf (allocations : List HeapAllocation) (process : ℕ) : List Span :=
  (allocations.filter fun allocation => allocation.process = process).map HeapAllocation.span

/-- The end of the highest block of the process. -/
def heapTop (state : UserHeap) (process : ℕ) : ℕ :=
  ((blocksOf state.allocations process).map Span.limit).foldr max heapCompatBase

/-- The bytes `alloc_raw` reserves for a request. -/
def reservedSize (size : ℕ) : ℕ := alignUpSize (if size = 0 then 1 else size)

variable {value : ℕ}

theorem le_foldr_max {values : List ℕ} (start : ℕ) (mem : value ∈ values) :
    value ≤ values.foldr max start := by
  induction values with
  | nil => cases mem
  | cons _ _ ih =>
    rcases mem_cons.mp mem with rfl | later
    · exact Nat.le_max_left _ _
    · exact (ih later).trans (Nat.le_max_right _ _)

theorem start_le_foldr_max (values : List ℕ) (start : ℕ) : start ≤ values.foldr max start := by
  induction values with
  | nil => exact Nat.le_refl _
  | cons _ _ ih => exact ih.trans (Nat.le_max_right _ _)

theorem limit_le_heapTop {span : Span} (mem : span ∈ blocksOf state.allocations process) :
    span.limit ≤ state.heapTop process :=
  le_foldr_max _ (mem_map_of_mem mem)

theorem heapCompatBase_le_heapTop (state : UserHeap) (process : ℕ) :
    heapCompatBase ≤ state.heapTop process :=
  start_le_foldr_max _ _

/-! ## The gap search -/

theorem wrap_eq (small : value < 2 ^ 64) : wrap value = value :=
  Nat.mod_eq_of_lt small

theorem alignUpSize_eq (small : value + 15 < 2 ^ 64) :
    alignUpSize value = alignTo userHeapAlignment value := by
  unfold alignUpSize userHeapAlignment
  rw [wrap_eq small]
  rfl

theorem alignUpSize_of_dvd (aligned : userHeapAlignment ∣ value) (small : value + 15 < 2 ^ 64) :
    alignUpSize value = value := by
  rw [alignUpSize_eq small, alignTo_eq_self (by decide) aligned]

variable {allocations : List HeapAllocation}

/-- Without wraparound the loop of `find_gap` is first fit between the blocks of the
process. -/
theorem findGapFrom_eq {limit candidate : ℕ}
    (aligned : userHeapAlignment ∣ candidate) (small : candidate + size + 15 < 2 ^ 64)
    (blocks : ∀ span ∈ blocksOf allocations process,
      userHeapAlignment ∣ span.limit ∧ span.limit + size + 15 < 2 ^ 64) :
    findGapFrom process size limit allocations candidate =
      match firstFit userHeapAlignment size limit (blocksOf allocations process) candidate with
      | some address => .ok address
      | none => .error .noSpace := by
  induction allocations generalizing candidate with
  | nil =>
    rw [findGapFrom, alignUpSize_of_dvd aligned (by omega), wrap_eq (by omega), blocksOf,
      filter_nil, map_nil, firstFit, alignTo_eq_self (by decide) aligned]
    by_cases fits : candidate + size ≤ limit
    · rw [if_pos fits, if_neg (by omega)]
    · rw [if_neg fits, if_pos (by omega)]
  | cons allocation rest ih =>
    rw [findGapFrom]
    by_cases own : allocation.process = process
    · have listed : blocksOf (allocation :: rest) process =
          allocation.span :: blocksOf rest process := by
        simp [blocksOf, own]
      rw [listed] at blocks ⊢
      obtain ⟨limitAligned, limitSmall⟩ := blocks _ (.head _)
      have ends : wrap (allocation.userBase + allocation.size) = allocation.span.limit :=
        wrap_eq (show allocation.span.limit < 2 ^ 64 by omega)
      rw [if_neg (not_not.mpr own), alignUpSize_of_dvd aligned (by omega), wrap_eq (by omega),
        ends, firstFit, alignTo_eq_self (by decide) aligned]
      by_cases fits : candidate + size ≤ allocation.userBase
      · rw [if_pos fits, if_pos (show candidate + size ≤ allocation.span.base from fits)]
      · rw [if_neg fits, if_neg (show ¬candidate + size ≤ allocation.span.base from fits)]
        exact ih limitAligned limitSmall fun span mem => blocks span (.tail _ mem)
    · have listed : blocksOf (allocation :: rest) process = blocksOf rest process := by
        simp [blocksOf, own]
      rw [listed] at blocks ⊢
      rw [if_pos own]
      exact ih aligned small blocks

/-! ## Blocks -/

/-- The window of a user process. -/
def userWindow : HeapWindow := ⟨userHeapBase, userHeapReservedBytes⟩

/-- What the list of blocks looks like. -/
structure Blocks (state : UserHeap) : Prop where
  /-- A process has the window of user processes or none. -/
  windows : ∀ process, state.windows process = userWindow ∨ state.windows process = ⟨0, 0⟩
  owned : ∀ allocation ∈ state.allocations, state.windows allocation.process = userWindow
  inside : ∀ allocation ∈ state.allocations,
    heapCompatBase ≤ allocation.userBase ∧ allocation.span.limit ≤ userHeapLimit
  aligned : ∀ allocation ∈ state.allocations,
    userHeapAlignment ∣ allocation.userBase ∧ userHeapAlignment ∣ allocation.size
  nonempty : ∀ allocation ∈ state.allocations, 0 < allocation.size
  longEnough : ∀ allocation ∈ state.allocations, allocation.requested ≤ allocation.size
  sorted : state.allocations.Pairwise fun left right => left.userBase ≤ right.userBase
  ordered : state.allocations.Pairwise fun left right =>
    left.process = right.process → left.span.limit ≤ right.userBase

/-- Dropping blocks, and windows nobody has blocks in, keeps the rest in order. -/
theorem Blocks.of_sublist {after : UserHeap} (blocks : state.Blocks)
    (fewer : after.allocations.Sublist state.allocations)
    (windows : ∀ process, after.windows process = userWindow ∨ after.windows process = ⟨0, 0⟩)
    (owned : ∀ allocation ∈ after.allocations, after.windows allocation.process = userWindow) :
    after.Blocks where
  windows := windows
  owned := owned
  inside := fun allocation mem => blocks.inside allocation (fewer.subset mem)
  aligned := fun allocation mem => blocks.aligned allocation (fewer.subset mem)
  nonempty := fun allocation mem => blocks.nonempty allocation (fewer.subset mem)
  longEnough := fun allocation mem => blocks.longEnough allocation (fewer.subset mem)
  sorted := blocks.sorted.sublist fewer
  ordered := blocks.ordered.sublist fewer

/-- The data that the invariant is about. -/
def placed (state : UserHeap) : List HeapAllocation × (ℕ → HeapWindow) :=
  (state.allocations, state.windows)

theorem Blocks.congr {after : UserHeap} (blocks : state.Blocks)
    (same : after.placed = state.placed) : after.Blocks := by
  obtain ⟨allocations, windows⟩ := Prod.mk.inj same
  refine blocks.of_sublist ?_ ?_ ?_
  · rw [allocations]
  · rw [windows]
    exact blocks.windows
  · rw [windows, allocations]
    exact blocks.owned

theorem Blocks.window_of_reserved (blocks : state.Blocks)
    (reserved : state.processHasHeapReservation process = true) :
    state.windows process = userWindow := by
  rcases blocks.windows process with user | none
  · exact user
  · simp [processHasHeapReservation, none] at reserved

theorem mem_blocksOf {span : Span} (mem : span ∈ blocksOf allocations process) :
    ∃ allocation ∈ allocations, allocation.process = process ∧ allocation.span = span := by
  obtain ⟨allocation, filtered, rfl⟩ := mem_map.mp mem
  obtain ⟨present, own⟩ := mem_filter.mp filtered
  exact ⟨allocation, present, by simpa using own, rfl⟩

theorem Blocks.blocksOf_ordered (blocks : state.Blocks) (process : ℕ) :
    (blocksOf state.allocations process).Pairwise fun left right =>
      left.limit ≤ right.base := by
  apply pairwise_map.mpr
  refine (blocks.ordered.sublist filter_sublist).imp_of_mem ?_
  intro _ _ leftMember rightMember ordered
  have leftOwn := of_mem_filter leftMember
  have rightOwn := of_mem_filter rightMember
  simp only [decide_eq_true_eq] at leftOwn rightOwn
  exact ordered (leftOwn.trans rightOwn.symm)

/-- A place for the request between the blocks of the process. -/
def Fits (state : UserHeap) (process size : ℕ) : Prop :=
  ∃ address, userHeapAlignment ∣ address ∧ heapCompatBase ≤ address ∧
    address + max size 1 ≤ (state.windows process).base + (state.windows process).reservedBytes ∧
    ∀ allocation ∈ state.allocations, allocation.process = process →
      (Span.mk address (max size 1)).Apart allocation.span

/-- The sums of the gap search stay below 2^64. -/
def Unwrapped (state : UserHeap) (process size : ℕ) : Prop :=
  size < 2 ^ 64 ∧ state.heapTop process + reservedSize size < 2 ^ 64

theorem reservedSize_dvd (size : ℕ) : userHeapAlignment ∣ reservedSize size :=
  Nat.dvd_mul_left _ _

/-- What is reserved covers the request, unless rounding up wraps to nothing. -/
theorem max_one_le_reservedSize (bounded : size < 2 ^ 64) (nonzero : reservedSize size ≠ 0) :
    max size 1 ≤ reservedSize size := by
  unfold reservedSize alignUpSize userHeapAlignment KernelHeap.wrap at *
  split at nonzero
  · rename_i zero
    rw [if_pos zero, zero]
    decide
  · rename_i positive
    rw [if_neg positive]
    omega

section

variable {address : ℕ}

variable (blocks : state.Blocks) (reserved : state.processHasHeapReservation process = true)
    (unwrapped : state.Unwrapped process size)
include blocks reserved unwrapped

/-- `find_gap` of a user process is first fit. -/
theorem Blocks.findGap_eq (nonzero : reservedSize size ≠ 0) :
    state.findGap process (reservedSize size) =
      match firstFit userHeapAlignment (reservedSize size) userHeapLimit
        (blocksOf state.allocations process) heapCompatBase with
      | some address => .ok address
      | none => .error .noSpace := by
  have window := blocks.window_of_reserved reserved
  have limit : state.reservationLimit process = userHeapLimit := by
    rw [reservationLimit, window]
    rfl
  -- Everything in sight is a multiple of 16, so the sums stay clear of 2^64 by 16.
  have clear : ∀ value, userHeapAlignment ∣ value → value ≤ state.heapTop process →
      value + reservedSize size + 15 < 2 ^ 64 := by
    intro _ aligned _
    have sum := Nat.dvd_add aligned (reservedSize_dvd size)
    have small := unwrapped.2
    unfold userHeapAlignment at sum
    omega
  rw [findGap, if_neg (by simp [nonzero, reserved]), limit]
  apply findGapFrom_eq
  · decide
  · exact clear _ (by decide) (heapCompatBase_le_heapTop state process)
  · intro _ mem
    obtain ⟨allocation, present, _, rfl⟩ := mem_blocksOf mem
    obtain ⟨baseAligned, sizeAligned⟩ := blocks.aligned allocation present
    have aligned : userHeapAlignment ∣ allocation.span.limit := Nat.dvd_add baseAligned sizeAligned
    exact ⟨aligned, clear _ aligned (limit_le_heapTop mem)⟩

/-- The place `find_gap` returns. -/
theorem Blocks.findGap_ok (found : state.findGap process (reservedSize size) = .ok address) :
    state.windows process = userWindow ∧ max size 1 ≤ reservedSize size ∧
      userHeapAlignment ∣ address ∧ heapCompatBase ≤ address ∧
      address + reservedSize size ≤ userHeapLimit ∧
      ∀ allocation ∈ state.allocations, allocation.process = process →
        (Span.mk address (reservedSize size)).Apart allocation.span := by
  have window := blocks.window_of_reserved reserved
  have nonzero : reservedSize size ≠ 0 := by
    intro zero
    rw [findGap, if_pos (.inl zero)] at found
    cases found
  rw [blocks.findGap_eq reserved unwrapped nonzero] at found
  split at found
  · rename_i place fit
    cases found
    obtain ⟨aligned, above, below, apart⟩ := firstFit_some (by decide) fit
      (blocks.blocksOf_ordered process) (by
        intro _ mem
        obtain ⟨allocation, present, _, rfl⟩ := mem_blocksOf mem
        exact blocks.inside allocation present)
    refine ⟨window, max_one_le_reservedSize unwrapped.1 nonzero, aligned, above, below, ?_⟩
    intro _ present own
    apply apart
    exact mem_map_of_mem (mem_filter.mpr ⟨present, by simpa using own⟩)
  · cases found

end

/-! ## Steps -/

/-- Linking a block that overlaps no other one of its process. -/
theorem Blocks.linkAllocation (blocks : state.Blocks) {new : HeapAllocation}
    (window : state.windows new.process = userWindow)
    (inside : heapCompatBase ≤ new.userBase ∧ new.span.limit ≤ userHeapLimit)
    (aligned : userHeapAlignment ∣ new.userBase ∧ userHeapAlignment ∣ new.size)
    (nonempty : 0 < new.size) (longEnough : new.requested ≤ new.size)
    (apart : ∀ allocation ∈ state.allocations, allocation.process = new.process →
      new.span.Apart allocation.span) :
    (state.linkAllocation new).Blocks := by
  have members : ∀ allocation ∈ (state.linkAllocation new).allocations,
      allocation = new ∨ allocation ∈ state.allocations :=
    fun allocation mem => (mem_orderedInsert _).mp mem
  have closed : state.allocations.Pairwise fun left right =>
      new.userBase < left.userBase → new.userBase < right.userBase :=
    blocks.sorted.imp fun sorted lower => lower.trans_le sorted
  have each : ∀ {holds : HeapAllocation → Prop}, holds new →
      (∀ allocation ∈ state.allocations, holds allocation) →
      ∀ allocation ∈ (state.linkAllocation new).allocations, holds allocation := by
    intro _ here others allocation mem
    rcases members allocation mem with rfl | old
    · exact here
    · exact others allocation old
  refine ⟨blocks.windows, each window blocks.owned, each inside blocks.inside,
    each aligned blocks.aligned, each nonempty blocks.nonempty,
    each longEnough blocks.longEnough, ?_, ?_⟩
  · refine pairwise_orderedInsert blocks.sorted closed ?_ ?_
    · exact fun _ _ lower => Nat.le_of_lt lower
    · exact fun _ _ notLower => Nat.le_of_not_lt notLower
  · refine pairwise_orderedInsert blocks.ordered closed ?_ ?_
    · intro other mem lower own
      exact (apart other mem own.symm).limit_le (Nat.le_of_lt lower) (blocks.nonempty other mem)
    · intro other mem notLower own
      exact (apart other mem own).symm.limit_le (Nat.le_of_not_lt notLower) nonempty

/-- `alloc_raw` without wraparound. -/
theorem Blocks.allocRaw (blocks : state.Blocks) (unwrapped : state.Unwrapped process size) :
    (state.allocRaw process size).2.Blocks := by
  unfold UserHeap.allocRaw
  split
  · exact blocks
  rename_i reserved
  dsimp only
  split
  · exact blocks
  rename_i address found
  split
  · exact blocks.congr rfl
  · rename_i record pool machine _
    obtain ⟨window, covers, aligned, above, below, apart⟩ :=
      blocks.findGap_ok (by simpa using reserved) unwrapped found
    have prepared : ({ state with allocationPool := pool, machine := machine } :
        UserHeap).Blocks := blocks.congr rfl
    refine prepared.linkAllocation window ⟨above, below⟩ ⟨aligned, reservedSize_dvd size⟩ ?_ ?_
      apart
    · exact (Nat.le_max_right size 1).trans covers
    · exact (Nat.le_max_left size 1).trans covers

/-- A request that does not fit is refused before anything happens. -/
theorem Blocks.allocRaw_full (blocks : state.Blocks)
    (unwrapped : state.Unwrapped process size) (full : ¬state.Fits process size) :
    ∃ status, state.allocRaw process size = (.error status, state) := by
  unfold UserHeap.allocRaw
  split
  · exact ⟨_, rfl⟩
  rename_i reserved
  dsimp only
  split
  · exact ⟨_, rfl⟩
  · rename_i address found
    exfalso
    obtain ⟨window, _, aligned, above, _, apart⟩ :=
      blocks.findGap_ok (by simpa using reserved) unwrapped found
    refine full ⟨address, aligned, above, ?_, ?_⟩
    · rw [window]
      have limit : userWindow.base + userWindow.reservedBytes = userHeapLimit := rfl
      omega
    · intro allocation present own
      rcases apart allocation present own with before | behind
      · left
        have ends : address + reservedSize size ≤ allocation.span.base := before
        show address + max size 1 ≤ allocation.span.base
        omega
      · exact .inr behind

/-! The other steps leave blocks alone or drop some. -/

theorem placed_releaseUnusedPage (state : UserHeap) (process userPageBase : ℕ) :
    (releaseUnusedPage process state userPageBase).placed = state.placed := by
  unfold releaseUnusedPage
  split
  · rfl
  split <;> rfl

/-- A loop whose turns leave blocks alone leaves them alone. -/
theorem placed_foldl {α : Type} {turn : UserHeap → α → UserHeap}
    (kept : ∀ state item, (turn state item).placed = state.placed) (items : List α)
    (state : UserHeap) : (items.foldl turn state).placed = state.placed := by
  induction items generalizing state with
  | nil => rfl
  | cons item _ ih => exact (ih (turn state item)).trans (kept state item)

theorem placed_mapHeapPage (state : UserHeap) (process userPageBase : ℕ) :
    (state.mapHeapPage process userPageBase).2.placed = state.placed := by
  unfold mapHeapPage
  split
  · rfl
  split
  · rfl
  dsimp only
  split
  · rfl
  split
  · split <;> rfl
  · rfl

theorem placed_ensurePages (state : UserHeap) (process : ℕ) (bases : List ℕ) :
    (state.ensurePages process bases).2.placed = state.placed := by
  induction bases generalizing state with
  | nil => rfl
  | cons base _ ih =>
    have mapped := placed_mapHeapPage state process base
    rw [ensurePages]
    split
    · exact ih state
    split
    · rfl
    split
    · rename_i result
      rw [result] at mapped
      exact (ih _).trans mapped
    · rename_i result
      rwa [result] at mapped

theorem placed_handlePageFault (state : UserHeap) (process address esr : ℕ) :
    (state.handlePageFault process address esr).2.placed = state.placed := by
  unfold handlePageFault
  split
  · rfl
  split
  · rfl
  split
  · rfl
  split
  · rfl
  · exact placed_mapHeapPage state process _

theorem placed_ensureRangeMapped (state : UserHeap) (process address size : ℕ) :
    (state.ensureRangeMapped process address size).2.placed = state.placed := by
  unfold ensureRangeMapped
  split
  · rfl
  · exact placed_ensurePages state process _

/-- Dropping blocks one after the other leaves those with other records. -/
theorem allocations_foldl_dropAllocation (dropped : List HeapAllocation) (state : UserHeap) :
    (dropped.foldl dropAllocation state).allocations = state.allocations.filter (fun allocation =>
          dropped.all fun other => allocation.record ≠ other.record) ∧
      (dropped.foldl dropAllocation state).windows = state.windows := by
  induction dropped generalizing state with
  | nil => simp
  | cons allocation _ ih =>
    obtain ⟨allocations, windows⟩ := ih (state.dropAllocation allocation)
    rw [foldl_cons, allocations, windows]
    refine ⟨?_, rfl⟩
    show (state.allocations.filter _).filter _ = _
    rw [filter_filter]
    congr 1
    funext other
    rw [all_cons, Bool.and_comm]

theorem Blocks.freeRaw (blocks : state.Blocks) (process address : ℕ) :
    (state.freeRaw process address).2.Blocks := by
  unfold UserHeap.freeRaw
  split
  · exact blocks
  split
  · exact blocks
  · rename_i allocation _
    have dropped : (state.dropAllocation allocation).Blocks :=
      blocks.of_sublist filter_sublist blocks.windows
        fun other mem => blocks.owned other (mem_of_mem_filter mem)
    exact dropped.congr (placed_foldl (placed_releaseUnusedPage · process ·) ..)

theorem Blocks.releaseProcess (blocks : state.Blocks) (process : ℕ) :
    (state.releaseProcess process).Blocks ∧
      ∀ allocation ∈ (state.releaseProcess process).allocations, allocation.process ≠ process := by
  obtain ⟨keptAllocations, keptWindows⟩ := Prod.mk.inj <| placed_foldl
    (fun state page => show (state.releaseHeapPage page).placed = state.placed from rfl)
    (((state.allocations.filter fun allocation => allocation.process = process).foldl
      dropAllocation state).pages.filter fun page => page.process = process)
    ((state.allocations.filter fun allocation => allocation.process = process).foldl
      dropAllocation state)
  obtain ⟨filtered, windows⟩ := allocations_foldl_dropAllocation
    (state.allocations.filter fun allocation => allocation.process = process) state
  have allocations := keptAllocations.trans filtered
  have others : ∀ allocation ∈ (state.releaseProcess process).allocations,
      allocation.process ≠ process ∧ allocation ∈ state.allocations := by
    intro allocation mem
    rw [show (state.releaseProcess process).allocations = _ from allocations] at mem
    obtain ⟨present, ne⟩ := mem_filter.mp mem
    refine ⟨?_, present⟩
    intro own
    have dropped := all_eq_true.mp ne allocation (mem_filter.mpr ⟨present, by simpa using own⟩)
    simp at dropped
  have after : ∀ other, (state.releaseProcess process).windows other =
      if other = process then ⟨0, 0⟩ else state.windows other := by
    intro other
    unfold UserHeap.releaseProcess
    dsimp only
    rw [Function.update_apply, keptWindows, windows]
  refine ⟨blocks.of_sublist ?_ ?_ ?_, fun allocation mem => (others allocation mem).1⟩
  · rw [show (state.releaseProcess process).allocations = _ from allocations]
    exact filter_sublist
  · intro other
    rw [after]
    split
    · exact .inr rfl
    · exact blocks.windows other
  · intro allocation mem
    obtain ⟨ne, present⟩ := others allocation mem
    rw [after, if_neg ne]
    exact blocks.owned allocation present

/-! ## Runs -/

/-- Requests are 64-bit numbers. -/
def FullWidth (_ : UserHeap) : Operation → Prop
  | .allocRaw _ size => size < 2 ^ 64
  | _ => True

/-- No request makes the gap search wrap. -/
def SearchUnwrapped (state : UserHeap) : Operation → Prop
  | .allocRaw process size => state.Unwrapped process size
  | _ => True

theorem blocks_boot (pool : PagePool) : (boot pool).Blocks := by
  refine ⟨fun _ => .inr rfl, ?_, ?_, ?_, ?_, ?_, List.Pairwise.nil, List.Pairwise.nil⟩
  all_goals
    intro _ mem
    cases mem

/-- One step. -/
theorem Blocks.perform (blocks : state.Blocks) {operation : Operation}
    (unwrapped : state.SearchUnwrapped operation) : (state.perform operation).Blocks := by
  cases operation with
  | allocRaw => exact blocks.allocRaw unwrapped
  | freeRaw process address => exact blocks.freeRaw process address
  | handlePageFault process address esr =>
    exact blocks.congr (placed_handlePageFault state process address esr)
  | ensureRangeMapped process address size =>
    exact blocks.congr (placed_ensureRangeMapped state process address size)
  | releaseProcess process => exact (blocks.releaseProcess process).1
  | createProcess =>
    rw [UserHeap.perform]
    split
    · exact blocks
    · rename_i unreserved
      refine blocks.of_sublist (List.Sublist.refl _) ?_ ?_
      · intro other
        dsimp only
        rw [Function.update_apply]
        split
        · exact .inl rfl
        · exact blocks.windows other
      · intro allocation mem
        dsimp only
        rw [Function.update_apply]
        split
        · rfl
        · exact blocks.owned allocation mem
  | destroyAddressSpace | otherDescriptor =>
    rw [UserHeap.perform]
    split <;> exact blocks.congr rfl
  | _ => exact blocks.congr rfl

theorem Reachable.blocks {condition : UserHeap → Operation → Prop} {pool : PagePool}
    (stronger : ∀ state operation, condition state operation → state.SearchUnwrapped operation)
    (reached : Reachable condition pool state) : state.Blocks := by
  induction reached with
  | start isBoot => exact isBoot ▸ blocks_boot pool
  | step _ call meets stepped ih =>
    cases stepped
    obtain ⟨operation, calls⟩ := call
    have prepared : (UserHeap.withHeapCalls _ calls).Blocks := ih.congr rfl
    refine prepared.perform ?_
    have unwrapped := stronger _ operation meets
    cases operation with
    | allocRaw => exact unwrapped
    | _ => trivial

/-- The raw blocks, in the words of the interface. -/
structure RawBlocks (state : UserHeap) : Prop where
  disjoint : state.allocations.Pairwise fun left right =>
    left.process = right.process → left.span.Apart right.span
  inside : ∀ allocation ∈ state.allocations, heapCompatBase ≤ allocation.userBase ∧
    allocation.userBase + allocation.size ≤ (state.windows allocation.process).base +
      (state.windows allocation.process).reservedBytes
  aligned : ∀ allocation ∈ state.allocations, 16 ∣ allocation.userBase
  longEnough : ∀ allocation ∈ state.allocations, allocation.requested ≤ allocation.size
  sorted : state.allocations.Pairwise fun left right => left.userBase ≤ right.userBase

theorem Blocks.rawBlocks (blocks : state.Blocks) : state.RawBlocks := by
  refine ⟨blocks.ordered.imp ?_, ?_, ?_, blocks.longEnough, blocks.sorted⟩
  · exact fun ordered own => .inl (ordered own)
  · intro allocation mem
    rw [blocks.owned allocation mem]
    exact blocks.inside allocation mem
  · exact fun allocation mem => (blocks.aligned allocation mem).1

/-- In every run without a wrapping request the raw blocks are in order, and a request
that does not fit is refused without a trace. -/
theorem rawBlocks_of_searchUnwrapped (pool : PagePool) (state : UserHeap)
    (reached : Reachable SearchUnwrapped pool state) :
    state.RawBlocks ∧ ∀ process size, state.Unwrapped process size → ¬state.Fits process size →
      ∃ status, state.allocRaw process size = (.error status, state) := by
  have blocks := reached.blocks fun _ _ meets => meets
  exact ⟨blocks.rawBlocks, fun _ _ unwrapped full => blocks.allocRaw_full unwrapped full⟩

/-- Process 1 has started. -/
def oneProcess : UserHeap :=
  ((boot eightPages).withHeapCalls []).perform (.createProcess 1)

/-- Process 1 has two blocks. -/
def twoBlocks : UserHeap :=
  ((((oneProcess.withHeapCalls [servedCall]).perform (.allocRaw 1 100)).withHeapCalls
    [servedCall]).perform (.allocRaw 1 5000))

/-- A third block of the size of the whole half does not fit. -/
theorem rawBlocks_of_searchUnwrapped_twoBlocks :
    twoBlocks.allocations.map HeapAllocation.span =
        [⟨heapCompatBase, 112⟩, ⟨heapCompatBase + 112, 5008⟩] ∧
      twoBlocks.RawBlocks ∧
      ∃ status, twoBlocks.allocRaw 1 0x10000000 = (.error status, twoBlocks) := by
  have started : Reachable SearchUnwrapped eightPages oneProcess :=
    .step (.start rfl) (.createProcess 1, []) trivial rfl
  have first := started.step (.allocRaw 1 100, [servedCall]) ⟨by decide, by decide +kernel⟩ rfl
  have second : Reachable SearchUnwrapped eightPages twoBlocks :=
    first.step (.allocRaw 1 5000, [servedCall]) ⟨by decide, by decide +kernel⟩ rfl
  obtain ⟨blocks, refused⟩ := rawBlocks_of_searchUnwrapped eightPages twoBlocks second
  refine ⟨by decide +kernel, blocks, refused 1 0x10000000 ⟨by decide, by decide +kernel⟩ ?_⟩
  rintro ⟨address, _, _, below, apart⟩
  have window : twoBlocks.windows 1 = userWindow := by decide +kernel
  rw [window] at below
  have base : address = heapCompatBase := by
    unfold userWindow heapCompatBase userHeapReservedBytes userHeapLimit userHeapBase
      tableEntries l2BlockSize at *
    dsimp only at below
    omega
  obtain ⟨allocation, member, own, here⟩ : ∃ allocation ∈ twoBlocks.allocations,
      allocation.process = 1 ∧ allocation.span = ⟨heapCompatBase, 112⟩ := by
    decide +kernel
  have overlap := apart allocation member own
  rw [here, base] at overlap
  revert overlap
  decide

/-- A request of 2^64 - 16 bytes is granted at the start of the half, and the next block
begins below it and overlaps it. -/
theorem rawBlocks_wrapped :
    ∃ state, Reachable FullWidth eightPages state ∧
      ∃ left ∈ state.allocations, ∃ right ∈ state.allocations,
        left.process = right.process ∧ left ≠ right ∧ ¬left.span.Apart right.span ∧
        left.userBase < heapCompatBase ∧ 2 ^ 64 ≤ right.userBase + right.size := by
  have started : Reachable FullWidth eightPages oneProcess :=
    .step (.start rfl) (.createProcess 1, []) trivial rfl
  have first := started.step (.allocRaw 1 (2 ^ 64 - 16), [servedCall])
    (show 2 ^ 64 - 16 < 2 ^ 64 by decide) rfl
  have second := first.step (.allocRaw 1 64, [servedCall]) (show 64 < 2 ^ 64 by decide) rfl
  refine ⟨_, second, ?_⟩
  decide +kernel

end UserHeap

end RosKernel.Memory
