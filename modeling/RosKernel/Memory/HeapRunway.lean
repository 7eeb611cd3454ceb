import RosKernel.Memory.SharedMemoryRegistry

/-!
# The growth runway of the kernel heap

The heap grows only by the page behind its end, and only when that page heads the
free list. Single pages leave and come back at the tail, so they do not disturb the
head; runs are the danger: `release_contiguous_pages` puts a run in front of whatever
headed the list. As long as the runs that come back do so in front of the heap's end
page or without it, the end page is at the head whenever it is free.
-/

namespace RosKernel.Memory

open List

open Multiset (mem_add mem_coe)

open FileMappings (eightPages)

/-! ## Lists with a distinguished page -/

/-- The page heads the list if it is listed at all. -/
def Runway (free : List ℕ) (page : ℕ) : Prop :=
  page ∈ free → free.head? = some page

section

variable {free run : List ℕ} {page other : ℕ}

theorem Runway.of_notMem (absent : page ∉ free) : Runway free page :=
  fun present => absurd present absent

/-- A list as it was, or without its last page. -/
def Clipped (free left : List ℕ) : Prop :=
  left = free ∨ left = free.dropLast

/-- Taking the last page. -/
theorem Runway.dropLast (runway : Runway free page) : Runway free.dropLast page := by
  intro present
  have heads := runway (dropLast_subset free present)
  cases free with
  | nil => cases present
  | cons _ rest =>
    cases rest with
    | nil => cases present
    | cons => exact heads

theorem Runway.clipped (runway : Runway free page) {left : List ℕ} (clipped : Clipped free left) :
    Runway left page := by
  rcases clipped with rfl | rfl
  · exact runway
  · exact runway.dropLast

/-- Giving a page back at the tail. -/
theorem Runway.append (runway : Runway free page) (alone : other = page → free = []) :
    Runway (free ++ [other]) page := by
  intro present
  rcases mem_append.mp present with old | new
  · cases free with
    | nil => cases old
    | cons => exact runway old
  · have same : other = page := (mem_singleton.mp new).symm
    rw [alone same, same]
    rfl

/-- Once a run has left the head, the page is not listed. -/
theorem Runway.notMem_of_append (runway : Runway (run ++ free) page)
    (distinct : (run ++ free).Nodup) (nonempty : run ≠ []) : page ∉ free := by
  intro present
  have heads := runway (mem_append_right _ present)
  cases run with
  | nil => exact nonempty rfl
  | cons head =>
    obtain rfl : head = page := by simpa using heads
    exact (nodup_cons.mp distinct).1 (mem_append_right _ present)

/-- A run at the head holds the page at its start or not at all. -/
theorem Runway.head_of_append (runway : Runway (run ++ free) page) :
    page ∉ run ∨ run.head? = some page := by
  cases run with
  | nil => exact .inl not_mem_nil
  | cons head rest =>
    by_cases present : page ∈ head :: rest
    · exact .inr (runway (mem_append_left _ present))
    · exact .inl present

/-- The last page of a list is the runway page only when it is alone. -/
theorem Runway.dropLast_eq_nil (runway : Runway free page) (distinct : free.Nodup)
    (last : free.getLast? = some page) : free.dropLast = [] := by
  have joined := dropLast_append_getLast? page last
  rw [← joined] at runway distinct
  cases front : free.dropLast with
  | nil => rfl
  | cons =>
    rw [front] at runway distinct
    exact absurd (mem_singleton_self page) (runway.notMem_of_append distinct (cons_ne_nil _ _))

/-- Putting a run in front. -/
theorem Runway.prepend (outcome : (page ∉ run ∧ page ∉ free) ∨ run.head? = some page) :
    Runway (run ++ free) page := by
  rcases outcome with ⟨notRun, notFree⟩ | heads
  · exact .of_notMem (not_mem_append notRun notFree)
  · intro _
    cases run with
    | nil => cases heads
    | cons => exact heads

end

/-! ## The free list under each operation -/

namespace PhysicalMemory

variable {memory : PhysicalMemory} {phys : ℕ}

theorem Manages.congr {other : PhysicalMemory} (manages : memory.Manages phys)
    (same : other.pool = memory.pool) : other.Manages phys := by
  obtain ⟨index, bound, address⟩ := manages
  exact ⟨index, by rw [same]; exact bound, by rw [same]; exact address⟩

theorem allocPage_spec (initialized : memory.initialized = true) :
    memory.allocPage.2.freePages = memory.freePages.dropLast ∧
      (memory.allocPage.1 ≠ 0 → memory.freePages.getLast? = some memory.allocPage.1) := by
  rw [allocPage, if_pos initialized]
  cases last : memory.freePages.getLast? with
  | none =>
    rw [List.getLast?_eq_none_iff] at last
    exact ⟨by rw [last]; rfl, fun nonzero => absurd rfl nonzero⟩
  | some => exact ⟨rfl, fun _ => rfl⟩

/-- `free_page` of a managed page appends it or leaves the list alone. -/
theorem freePage_spec (manages : memory.Manages phys) :
    (memory.freePage phys).freePages = memory.freePages ∨
      (memory.freePage phys).freePages = memory.freePages ++ [phys] := by
  unfold freePage
  split
  · rw [manages.aligned, manages.pageFromPhys]
    dsimp only
    split
    · exact .inl rfl
    split
    · exact .inl rfl
    · exact .inr rfl
  · exact .inl rfl

/-- A page that is referred to more than once stays allocated. -/
theorem freePage_shared (manages : memory.Manages phys) (shared : 1 < memory.pageRefcount phys) :
    (memory.freePage phys).freePages = memory.freePages := by
  unfold pageRefcount at shared
  unfold freePage
  split
  · rename_i initialized
    rw [if_pos initialized, manages.aligned, manages.pageFromPhys] at shared
    rw [manages.aligned, manages.pageFromPhys]
    dsimp only at shared ⊢
    rw [if_neg (by omega), if_pos (by omega)]
    rfl
  · rfl

theorem freePages_popReserved (count : ℕ) (memory : PhysicalMemory) :
    (popReserved count memory).freePages = memory.freePages.drop count := by
  induction count generalizing memory with
  | zero => rfl
  | succ _ ih =>
    unfold popReserved
    split
    · rename_i empty
      rw [empty]
      rfl
    · rename_i listed
      rw [ih, listed]
      rfl

/-- `reserve_contiguous_pages` fails, or takes a run from the head of the list. -/
theorem reserveContiguousPages_spec (memory : PhysicalMemory) (pageCount : ℕ) :
    memory.reserveContiguousPages pageCount = (0, memory) ∨
      pageCount ≠ 0 ∧ pageCount ≤ memory.freePages.length ∧
      memory.freePages = runPages (memory.reserveContiguousPages pageCount).1 pageCount ++
        (memory.reserveContiguousPages pageCount).2.freePages := by
  unfold reserveContiguousPages
  split
  · exact .inl rfl
  rename_i asked
  split
  · exact .inl rfl
  rename_i enough
  split
  · exact .inl rfl
  split
  · rename_i contiguous
    right
    refine ⟨?_, Nat.le_of_not_lt enough, ?_⟩
    · rintro rfl
      simp at asked
    · rw [← take_of_contiguousFrom contiguous, freePages_popReserved, take_append_drop]
  · exact .inl rfl

variable {base pageCount : ℕ}

/-- `release_contiguous_pages` of managed pages puts the run in front. -/
theorem releaseContiguousPages_spec (initialized : memory.initialized = true) (nonzero : base ≠ 0)
    (manages : ∀ phys ∈ runPages base pageCount, memory.Manages phys) :
    (memory.releaseContiguousPages base pageCount).freePages =
      runPages base pageCount ++ memory.freePages := by
  have loop : ∀ pages : List ℕ, (∀ phys ∈ pages, memory.Manages phys) →
      (pages.foldr (fun phys released => releaseRunPage released phys) memory).freePages =
          pages ++ memory.freePages ∧
        (pages.foldr (fun phys released => releaseRunPage released phys) memory).pool =
          memory.pool := by
    intro pages managed
    induction pages with
    | nil => exact ⟨rfl, rfl⟩
    | cons page _ ih =>
      obtain ⟨listed, pool⟩ := ih fun phys mem => managed phys (.tail _ mem)
      have here := (managed page (.head _)).congr pool
      rw [foldr_cons, releaseRunPage, here.pageFromPhys]
      exact ⟨by rw [listed]; rfl, pool⟩
  unfold releaseContiguousPages
  split
  · rename_i skipped
    simp only [initialized, Bool.not_true, Bool.false_or, Bool.or_eq_true, beq_iff_eq] at skipped
    rw [skipped.resolve_left nonzero]
    rfl
  · exact (loop _ manages).1

theorem runPages_head (nonempty : pageCount ≠ 0) : (runPages base pageCount).head? = some base := by
  obtain ⟨_, rfl⟩ := Nat.exists_eq_succ_of_ne_zero nonempty
  rw [Nat.succ_eq_add_one, runPages_succ]
  rfl

theorem base_mem_runPages (nonempty : pageCount ≠ 0) : base ∈ runPages base pageCount :=
  mem_of_mem_head? (runPages_head nonempty)

end PhysicalMemory

open PhysicalMemory

/-! ## The machine -/

namespace Machine

variable {machine : Machine} {pagePool : PagePool} {owned : Multiset ℕ}

theorem physical_unmap (machine : Machine) (process address length : ℕ) :
    (unmap machine process address length).2.physical = machine.physical := by
  have spaces : SpaceInvariant fun other => other.physical = machine.physical :=
    fun _ _ _ same => same
  exact spaces.unmap rfl process address length

/-- Growing the heap takes the run from the head of the list, or leaves the list alone. -/
theorem Holds.freePages_heapAppendGrowth (holds : machine.Holds pagePool owned)
    (pageCount : ℕ) (appended : Bool) :
    (appended = false → (machine.heapAppendGrowth pageCount appended).physical.freePages =
      machine.physical.freePages) ∧
    (appended = true → (machine.physical.reserveContiguousPages pageCount).1 ≠ 0 →
      pageCount ≠ 0 ∧ machine.physical.freePages =
        runPages (machine.physical.reserveContiguousPages pageCount).1 pageCount ++
          (machine.heapAppendGrowth pageCount appended).physical.freePages) := by
  unfold Machine.heapAppendGrowth
  rcases machine.physical.reserveContiguousPages_spec pageCount with failed | ⟨nonempty, _, listed⟩
  · rw [failed, if_pos rfl]
    exact ⟨fun _ => rfl, fun _ nonzero => absurd rfl nonzero⟩
  · have managed : ∀ phys ∈ runPages
        (machine.physical.reserveContiguousPages pageCount).1 pageCount,
        machine.physical.Manages phys := by
      intro phys mem
      apply holds.exact.managed
      rw [listed]
      exact mem_append_left _ mem
    have nonzero : (machine.physical.reserveContiguousPages pageCount).1 ≠ 0 := by
      exact Nat.pos_iff_ne_zero.mp (managed _ (base_mem_runPages nonempty)).pos
    rw [if_neg nonzero]
    constructor
    · intro refused
      have reserved := (holds.exact.reserveContiguousPages pageCount).1
      rw [if_neg (by simp [refused]),
        releaseContiguousPages_spec reserved.initialized nonzero, ← listed]
      intro phys mem
      exact (managed phys mem).congr (pool_reserveContiguousPages _ _)
    · intro joined _
      rw [if_pos joined]
      exact ⟨nonempty, listed⟩

end Machine

/-! ## Records -/

namespace RecordPool

variable {pool larger : RecordPool} {live : Multiset Slot} {slot : Slot}
variable {machine after : Machine} {pagePool : PagePool} {rest : Multiset ℕ}

/-- A record that cannot be had costs no page. -/
theorem freePages_allocate_none (holds : machine.Holds pagePool (pool.pageAddresses + rest))
    (failed : pool.allocate machine = (none, larger, after)) :
    Clipped machine.physical.freePages after.physical.freePages := by
  obtain ⟨dropped, last⟩ := allocPage_spec holds.exact.initialized
  rcases pool.allocate_cases machine with ⟨_, _, _, result⟩ | ⟨_, _, _, _, _, result⟩ |
    ⟨result, _⟩ | ⟨result, taken⟩ <;> cases failed.symm.trans result
  · exact .inr dropped
  · have listed := last taken
    have manages := (holds.exact.managed _ (mem_of_mem_getLast? listed)).congr
      (pool_allocPage machine.physical)
    rcases freePage_spec manages with same | returned
    · exact .inr (same.trans dropped)
    · left
      rwa [dropped, dropLast_append_getLast? _ listed] at returned

section

variable (stocked : pool.Stocked live) (holds : machine.Holds pagePool (pool.pageAddresses + rest))
    (allocated : pool.allocate machine = (some slot, larger, after))
    (larger_stocked : larger.Stocked (slot ::ₘ live))
include stocked holds allocated larger_stocked

/-- A record that is had costs no page, or the last one of the list until it is freed. -/
theorem Stocked.freePages_allocate :
    (after.physical.freePages = machine.physical.freePages ∧
      ∀ later, (SharedMemory.recordPoolFree larger later slot).2 = later) ∨
    ∃ page, machine.physical.freePages.getLast? = some page ∧
      after.physical.freePages = machine.physical.freePages.dropLast ∧
      ∀ later, (SharedMemory.recordPoolFree larger later slot).2 = later.freePage page := by
  obtain ⟨dropped, last⟩ := allocPage_spec holds.exact.initialized
  simp only [SharedMemory.recordPoolFree_eq larger_stocked.serves]
  rcases (stocked.serves.allocate_free stocked.busy (allocPage_notMem holds) allocated
    larger_stocked.serves).2 with ⟨same, returns⟩ | ⟨taken, popped, returns⟩
  · exact .inl ⟨by rw [same], returns⟩
  · exact .inr ⟨_, last taken, by rw [popped]; exact dropped, returns⟩

/-- A record that goes back at once takes no page with it. -/
theorem Stocked.freePages_return {later : Machine}
    (same : later.physical.freePages = after.physical.freePages)
    (managed : later.physical.pool = pagePool) :
    Clipped machine.physical.freePages
      (SharedMemory.recordPoolFree larger later slot).2.physical.freePages := by
  rcases stocked.freePages_allocate holds allocated larger_stocked with
    ⟨before, returns⟩ | ⟨page, last, dropped, returns⟩
  · rw [returns later]
    exact .inl (same.trans before)
  · rw [returns later]
    have manages := (holds.exact.managed page (mem_of_mem_getLast? last)).congr
      (managed.trans holds.pool.symm)
    rcases freePage_spec manages with shared | appended
    · exact .inr (shared.trans (same.trans dropped))
    · left
      rwa [same, dropped, dropLast_append_getLast? _ last] at appended

end

/-- Freeing a record gives back no page but one of the pool. -/
theorem recordPoolFree_cases (pool : RecordPool) (machine : Machine) (slot : Slot) :
    (SharedMemory.recordPoolFree pool machine slot).2 = machine ∨ ∃ page ∈ pool.pageAddresses,
        (SharedMemory.recordPoolFree pool machine slot).2 = machine.freePage page := by
  unfold SharedMemory.recordPoolFree
  split
  · exact .inl rfl
  · rename_i header found
    split
    · exact .inl rfl
    · right
      refine ⟨header.pagePhys, ?_, rfl⟩
      exact mem_coe.mpr (mem_map_of_mem (mem_of_find?_eq_some found))

theorem pageAddresses_recordPoolFree (pool : RecordPool) (machine : Machine) (slot : Slot)
    {page : ℕ} (mem : page ∈ (SharedMemory.recordPoolFree pool machine slot).1.pageAddresses) :
    page ∈ pool.pageAddresses := by
  have lowered : ∀ header ∈ ({ pool with freeList := slot :: pool.freeList }.setLive slot.page
      (· - 1)).pages, header.pagePhys ∈ pool.pageAddresses := by
    intro header linked
    obtain ⟨old, oldMem, rfl⟩ := mem_map.mp linked
    apply mem_coe.mpr
    apply mem_map.mpr
    refine ⟨old, oldMem, ?_⟩
    split <;> rfl
  obtain ⟨header, linked, rfl⟩ := mem_map.mp (mem_coe.mp mem)
  unfold SharedMemory.recordPoolFree at linked
  split at linked
  · exact mem_coe.mpr (mem_map_of_mem linked)
  · split at linked
    · exact lowered header linked
    · exact lowered header (mem_of_mem_filter linked)

end RecordPool

namespace SharedMemory

variable {state : SharedMemory} {pagePool : PagePool}

/-- The page behind the heap heads the free list if it is free. -/
def OnRunway (state : SharedMemory) : Prop :=
  Runway state.machine.physical.freePages state.heapEnd

/-- When the list starts with the pages the growth takes and holds the page behind them, it is
in ascending order up to that page. -/
def GrowthAscends (state : SharedMemory) (pageCount : ℕ) : Prop :=
  state.machine.physical.freePages.take pageCount = runPages state.heapEnd pageCount →
    ∀ front back, state.machine.physical.freePages =
        front ++ (state.heapEnd + pageCount * pageSize) :: back →
      (front ++ [state.heapEnd + pageCount * pageSize]).Pairwise (· < ·)

/-! ## Growing -/

variable {owned : Multiset ℕ}

/-- The growth takes the pages behind the heap, or the list stays. -/
theorem freePages_growth (holds : state.machine.Holds pagePool owned) (pageCount : ℕ) :
    (state.growthContinues pageCount = false → (state.machine.heapAppendGrowth pageCount
        (state.growthContinues pageCount)).physical.freePages = state.machine.physical.freePages) ∧
    (state.growthContinues pageCount = true → pageCount ≠ 0 ∧
      state.machine.physical.freePages = runPages state.heapEnd pageCount ++
        (state.machine.heapAppendGrowth pageCount
          (state.growthContinues pageCount)).physical.freePages) := by
  obtain ⟨refused, joined⟩ :=
    holds.freePages_heapAppendGrowth pageCount (state.growthContinues pageCount)
  refine ⟨refused, ?_⟩
  intro continues
  have based : (state.machine.physical.reserveContiguousPages pageCount).1 ≠ 0 ∧
      (state.machine.physical.reserveContiguousPages pageCount).1 = state.heapEnd := by
    simpa [growthContinues] using continues
  have outcome := joined continues based.1
  rwa [based.2] at outcome

/-- In an ascending list no page stands between the last page taken and the page behind it. -/
theorem GrowthAscends.runway (holds : state.machine.Holds pagePool owned) {pageCount : ℕ}
    (ascends : state.GrowthAscends pageCount) {rest : List ℕ} (nonempty : pageCount ≠ 0)
    (listed : state.machine.physical.freePages = runPages state.heapEnd pageCount ++ rest) :
    Runway rest (state.heapEnd + pageCount * pageSize) := by
  intro present
  obtain ⟨front, back, rfl⟩ := append_of_mem present
  have length : (runPages state.heapEnd pageCount).length = pageCount := by simp [runPages]
  have ascending := ascends (by rw [listed, take_left' length]) _ back
    (listed.trans (append_assoc ..).symm)
  cases front with
  | nil => rfl
  | cons first later =>
    exfalso
    have managed := holds.exact.managed
    rw [listed] at managed
    have last : state.heapEnd + (pageCount - 1) * pageSize ∈ runPages state.heapEnd pageCount := by
      simp only [runPages, mem_map, mem_range]
      exact ⟨pageCount - 1, by omega, rfl⟩
    rw [append_assoc] at ascending
    have behind := (pairwise_append.mp ascending).2.2 _ last first (.head _)
    have before := rel_of_pairwise_cons (pairwise_append.mp ascending).2.1
      (mem_append_right later (.head _))
    -- pages are whole numbers of pages apart
    obtain ⟨_, _, atStart⟩ := managed _ (mem_append_left _ (base_mem_runPages nonempty))
    obtain ⟨_, _, atFirst⟩ := managed first (mem_append_right _ (.head _))
    unfold pageSize at *
    omega

/-- `heap_append_growth_locked`. -/
theorem OnRunway.heapAppendGrowth (runway : state.OnRunway)
    (holds : state.machine.Holds pagePool owned) {pageCount : ℕ}
    (ascends : state.GrowthAscends pageCount) :
    (state.heapAppendGrowth pageCount).OnRunway := by
  obtain ⟨refused, joined⟩ := freePages_growth holds pageCount
  unfold OnRunway SharedMemory.heapAppendGrowth
  cases continues : state.growthContinues pageCount with
  | false =>
    have same := refused continues
    rw [continues] at same
    rw [same]
    exact runway
  | true =>
    obtain ⟨nonempty, listed⟩ := joined continues
    rw [continues] at listed
    exact ascends.runway holds nonempty listed

/-- With the page behind the heap at the head, growth by one page goes through. -/
theorem heapEnd_heapAppendGrowth_one (holds : state.machine.Holds pagePool owned)
    (heads : state.machine.physical.freePages.head? = some state.heapEnd) :
    (state.heapAppendGrowth 1).heapEnd = state.heapEnd + pageSize := by
  obtain ⟨rest, listed⟩ := head?_eq_some_iff.mp heads
  have positive : state.heapEnd ≠ 0 := by
    have manages := holds.exact.managed state.heapEnd (by rw [listed]; exact .head _)
    exact Nat.pos_iff_ne_zero.mp manages.pos
  have base : (state.machine.physical.reserveContiguousPages 1).1 = state.heapEnd := by
    unfold reserveContiguousPages
    rw [listed]
    simp [holds.exact.initialized, contiguousFrom]
  have continues : state.growthContinues 1 = true := by simp [growthContinues, base, positive]
  unfold SharedMemory.heapAppendGrowth
  rw [if_pos continues, Nat.one_mul]

/-! ## Mapping a view -/

/-- Mapping a view leaves the list alone, or succeeds and grows the heap by a table's pages. -/
theorem freePages_mapView (state : SharedMemory)
    (holds : state.machine.Holds pagePool owned) (process : ℕ) (mapping : VmMapping)
    (arenaServes : Bool) {slotIndex : ℕ}
    (bound : slotIndex < sharedMemoryViewBytes / sharedMemorySlotBytes)
    (base : mapping.virtualBase = slotAddress slotIndex) (positive : 0 < mapping.length)
    (whole : mapping.length % pageSize = 0) (inside : mapping.length ≤ sharedMemorySlotBytes) :
    ((state.mapView process mapping arenaServes).2.machine.physical.freePages =
        state.machine.physical.freePages ∧
      (state.mapView process mapping arenaServes).2.heapEnd = state.heapEnd) ∨
    (state.mapView process mapping arenaServes).1 = .ok ∧ arenaServes = false ∧
      state.machine.physical.freePages =
        runPages state.heapEnd KernelHeap.tablePages ++
          (state.mapView process mapping arenaServes).2.machine.physical.freePages ∧
      (state.mapView process mapping arenaServes).2.heapEnd =
        state.heapEnd + KernelHeap.tablePages * pageSize := by
  obtain ⟨refused, joined⟩ := freePages_growth holds KernelHeap.tablePages
  -- One call is prepared: it is still there, or it was made once.
  have table : Machine.TableInvariant fun other =>
      (other.physical = state.machine.physical ∧ other.heapCalls = [state.tableCall arenaServes]) ∨
      other.physical = (state.machine.heapAppendGrowth (state.tableCall arenaServes).growthPages
          (state.tableCall arenaServes).appended).physical ∧ other.heapCalls = [] := by
    refine ⟨fun _ _ _ kept => kept, ?_⟩
    rintro other (⟨physical, calls⟩ | ⟨physical, calls⟩)
    · right
      unfold Machine.heapAlloc Machine.heapAppendGrowth
      rw [calls, physical]
      refine ⟨?_, rfl⟩
      dsimp only
      split
      · rfl
      split <;> rfl
    · right
      unfold Machine.heapAlloc
      rw [calls]
      exact ⟨physical, calls⟩
  have outcome := @Machine.TableInvariant.map
    { state.machine with heapCalls := [state.tableCall arenaServes] } _ table
    (.inl ⟨rfl, rfl⟩) process mapping
  unfold mapView
  dsimp only
  rcases outcome with ⟨physical, calls⟩ | ⟨physical, calls⟩
  · left
    rw [physical, calls]
    exact ⟨rfl, if_neg (by simp)⟩
  · -- The call was made, so it is the one that fails the mapping.
    have mapped : (state.tableCall arenaServes).served = true →
        (map { state.machine with heapCalls := [state.tableCall arenaServes] } process
          mapping).1 = .ok := by
      intro served
      by_contra failed
      rcases map_range_failed { state.machine with heapCalls := [state.tableCall arenaServes] }
        (slotEntry_lt bound) (base.trans (slotAddress_eq slotIndex)) positive whole inside failed
        with untouched | ⟨refused, _⟩
      · rw [untouched] at calls
        cases calls
      · cases served.symm.trans refused
    rw [physical, calls]
    unfold tableCall at mapped ⊢
    cases arenaServes with
    | true =>
      -- A growth of no pages is refused by the page manager.
      left
      refine ⟨?_, by simp⟩
      exact (holds.freePages_heapAppendGrowth 0 false).1 rfl
    | false =>
      cases continues : state.growthContinues KernelHeap.tablePages with
      | false =>
        left
        rw [continues] at refused
        exact ⟨refused rfl, by simp⟩
      | true =>
        right
        rw [continues] at joined mapped
        exact ⟨mapped rfl, rfl, (joined rfl).2, by simp⟩

/-! ## Acquiring -/

variable {object : SharedObject}

section

variable (inv : state.Invariant pagePool)
include inv

/-- The list after attaching to an object: as before or without its last page, or the
heap has grown by a table's pages at its head. -/
theorem Invariant.freePages_attach (mem : object ∈ state.objects) (process : ℕ)
    (arenaServes : Bool) :
    ∃ left, Clipped state.machine.physical.freePages left ∧
      (((state.attach process object arenaServes).2.machine.physical.freePages = left ∧
          (state.attach process object arenaServes).2.heapEnd = state.heapEnd) ∨
        arenaServes = false ∧
          left = runPages state.heapEnd KernelHeap.tablePages ++
            (state.attach process object arenaServes).2.machine.physical.freePages ∧
          (state.attach process object arenaServes).2.heapEnd =
            state.heapEnd + KernelHeap.tablePages * pageSize) := by
  unfold SharedMemory.attach
  cases found : state.findFreeSlot process with
  | none => exact ⟨_, .inl rfl, .inl ⟨rfl, rfl⟩⟩
  | some slotIndex =>
    have bound := (findFreeSlot_unused found).1
    have sound := inv.sound object mem
    have arranged := inv.holds
    rw [ownedPages, add_left_comm] at arranged
    rcases inv.attachmentRecords.allocate arranged with
      ⟨machine, allocation, _, _⟩ | ⟨record, pool, machine, allocation, _, stocked, holds, _⟩
    · rw [allocation]
      exact ⟨_, RecordPool.freePages_allocate_none arranged allocation, .inl ⟨rfl, rfl⟩⟩
    rw [allocation]
    dsimp only
    have taken : Clipped state.machine.physical.freePages machine.physical.freePages := by
      rcases inv.attachmentRecords.freePages_allocate arranged allocation stocked with
        ⟨same, _⟩ | ⟨_, _, dropped, _⟩
      · exact .inl same
      · exact .inr dropped
    have mapped := freePages_mapView { state with attachmentPool := pool, machine := machine }
      holds process
      ⟨slotAddress slotIndex, object.physicalBase, object.backingBytes, viewFlags⟩ arenaServes
      bound rfl sound.nonempty sound.whole sound.fits
    obtain ⟨status, _, _, view, kept, _⟩ := mapView_spec
      { state with attachmentPool := pool, machine := machine } process
      ⟨slotAddress slotIndex, object.physicalBase, object.backingBytes, viewFlags⟩ arenaServes
      holds bound rfl sound.nonempty sound.whole sound.fits
    rw [view] at mapped ⊢
    cases status with
    | ok =>
      refine ⟨_, taken, ?_⟩
      exact mapped.imp_right And.right
    | _ =>
      -- The record goes back, and its page with it.
      obtain ⟨same, ends⟩ := mapped.resolve_right (by simp)
      have returned := inv.attachmentRecords.freePages_return arranged allocation stocked
        same kept.pool
      exact ⟨_, returned, .inl ⟨rfl, ends⟩⟩

/-- Attaching keeps the runway when a growth for the page table does. -/
theorem OnRunway.attach (runway : state.OnRunway)
    (mem : object ∈ state.objects) (process : ℕ) {arenaServes : Bool}
    (keeps : arenaServes = true ∨ state.GrowthAscends KernelHeap.tablePages) :
    (state.attach process object arenaServes).2.OnRunway := by
  obtain ⟨_, taken, outcome⟩ := inv.freePages_attach mem process arenaServes
  unfold OnRunway
  rcases outcome with ⟨same, ends⟩ | ⟨needed, listed, ends⟩
  · rw [same, ends]
    exact runway.clipped taken
  · rw [ends]
    have grows := keeps.resolve_left (by simp [needed])
    rcases taken with rfl | dropped
    · exact grows.runway inv.holds (by decide) listed
    · -- The record page came from the tail, behind the pages of the table.
      rw [dropped] at listed
      have nonempty : state.machine.physical.freePages ≠ [] := by
        intro empty
        rw [empty] at listed
        exact ne_nil_of_mem (base_mem_runPages (by decide)) (append_eq_nil_iff.mp listed.symm).1
      have whole := dropLast_append_getLast nonempty
      rw [listed, append_assoc] at whole
      have behind := (grows.runway inv.holds (by decide) whole.symm).dropLast
      rwa [dropLast_concat] at behind

/-- While the page behind the heap is taken, attaching cannot grow the heap. -/
theorem Invariant.attach_taken (taken : state.heapEnd ∉ state.machine.physical.freePages)
    (mem : object ∈ state.objects) (process : ℕ) (arenaServes : Bool) :
    (state.attach process object arenaServes).2.heapEnd = state.heapEnd ∧
      state.heapEnd ∉ (state.attach process object arenaServes).2.machine.physical.freePages := by
  obtain ⟨left, moved, outcome⟩ := inv.freePages_attach mem process arenaServes
  have absent : state.heapEnd ∉ left := by
    rcases moved with rfl | rfl
    · exact taken
    · exact fun present => taken (dropLast_subset _ present)
  rcases outcome with ⟨same, ends⟩ | ⟨_, listed, _⟩
  · exact ⟨ends, by rw [same]; exact absent⟩
  · refine absurd ?_ absent
    rw [listed]
    exact mem_append_left _ (base_mem_runPages (by decide))

/-- `release_object_if_unused` puts the run in front before it frees the record. -/
theorem Invariant.releaseObjectIfUnused_eq {record : Slot}
    (found : state.objectAt record = some object) (unused : object.attachmentCount = 0) :
    ∃ released : Machine,
      released.physical.freePages = object.pages ++ state.machine.physical.freePages ∧
      released.physical.pool = pagePool ∧
      state.releaseObjectIfUnused record = { state with
          objects := state.objects.filter fun other => other.record ≠ record
          objectPool := (recordPoolFree state.objectPool released record).1
          machine := (recordPoolFree state.objectPool released record).2 } := by
  obtain ⟨mem, _⟩ := objectAt_some found
  have sound := inv.sound object mem
  have managed : ∀ phys ∈ object.pages, state.machine.physical.Manages phys := by
    intro phys inside
    apply inv.holds.ownership.manages
    have backed : phys ∈ backing state.objects :=
      mem_coe.mpr (mem_flatMap.mpr ⟨object, mem, inside⟩)
    exact mem_add.mpr (.inr (mem_add.mpr (.inr backed)))
  refine ⟨{ state.machine with
    physical := state.machine.physical.releaseContiguousPages object.physicalBase
      (object.backingBytes / pageSize) }, ?_, ?_, ?_⟩
  · exact releaseContiguousPages_spec inv.holds.exact.initialized sound.based managed
  · exact (pool_releaseContiguousPages _ _ _).trans inv.holds.pool
  · rw [SharedMemory.releaseObjectIfUnused, found]
    dsimp only
    rw [if_neg (not_not.mpr unused), if_pos ⟨sound.based, Nat.pos_iff_ne_zero.mp sound.nonempty⟩]

section

variable {name : List Char} {requestedSize : ℕ} {after : SharedMemory}

/-- A failing creation leaves the list as it was, up to its last page. Another one takes a
page for the record from the tail if it needs one, and the run from the head. -/
theorem Invariant.freePages_createObject {answer : Except Status SharedObject}
    (result : state.createObject name requestedSize = (answer, after)) :
    after.heapEnd = state.heapEnd ∧
    match answer with
    | .error _ => Clipped state.machine.physical.freePages after.machine.physical.freePages
    | .ok object => object.pages ≠ [] ∧
      ((state.machine.physical.freePages = object.pages ++ after.machine.physical.freePages ∧
          ∀ later, (recordPoolFree after.objectPool later object.record).2 = later) ∨
        ∃ page, state.machine.physical.freePages.getLast? = some page ∧
          state.machine.physical.freePages.dropLast =
            object.pages ++ after.machine.physical.freePages ∧
          ∀ later, (recordPoolFree after.objectPool later object.record).2 =
            later.freePage page) := by
  unfold SharedMemory.createObject at result
  rcases inv.objectRecords.allocate inv.holds with
    ⟨machine, allocation, _, _⟩ | ⟨record, pool, machine, allocation, _, stocked, holds, _⟩
  · rw [allocation] at result
    cases result
    exact ⟨rfl, RecordPool.freePages_allocate_none inv.holds allocation⟩
  rw [allocation] at result
  dsimp only at result
  split at result
  · cases result
    exact ⟨rfl, inv.objectRecords.freePages_return inv.holds allocation stocked rfl holds.pool⟩
  have reserved := machine.physical.reserveContiguousPages_spec
    (FileMappings.alignUpToPage requestedSize / pageSize)
  split at result
  · rename_i refused
    cases result
    refine ⟨rfl, inv.objectRecords.freePages_return inv.holds allocation stocked ?_ ?_⟩
    · rcases reserved with same | ⟨nonempty, _, listed⟩
      · rw [same]
      · -- Page 0 is not managed, so a run has a base.
        exfalso
        have zero := refused.resolve_left nonempty
        rw [zero] at listed
        have head := holds.exact.managed 0 (by
          rw [listed]
          exact mem_append_left _ (base_mem_runPages nonempty))
        exact absurd head.pos (Nat.lt_irrefl 0)
    · exact (pool_reserveContiguousPages _ _).trans holds.pool
  · rename_i granted
    obtain ⟨nonempty, based⟩ := not_or.mp granted
    cases result
    have listed := (reserved.resolve_left (fun failed => based (by rw [failed]))).2.2
    refine ⟨rfl, ne_nil_of_mem (base_mem_runPages nonempty), ?_⟩
    rcases inv.objectRecords.freePages_allocate inv.holds allocation stocked with
      ⟨same, returns⟩ | ⟨page, last, dropped, returns⟩
    · exact .inl ⟨same.symm.trans listed, returns⟩
    · exact .inr ⟨page, last, dropped.symm.trans listed, returns⟩

/-- The creating branch of `acquire` keeps the runway without further ado: the run comes
from the head and, if the process cannot be attached, goes back there. -/
theorem OnRunway.acquire_create (runway : state.OnRunway) {created : SharedMemory} (process : ℕ)
    (arenaServes : Bool) (result : state.createObject name requestedSize = (.ok object, created))
    (kept : created.Invariant pagePool) (objects : created.objects = object :: state.objects)
    (unattached : object.attachmentCount = 0) :
    (created.attach process object arenaServes).2.OnRunway ∧
      ∀ status failed, created.attach process object arenaServes = (.error status, failed) →
        (failed.releaseObjectIfUnused object.record).OnRunway := by
  obtain ⟨ends, nonempty, effect⟩ := inv.freePages_createObject result
  -- The runway page is not left in the list, and the record's page is another one.
  have taken : created.heapEnd ∉ created.machine.physical.freePages ∧
      (created.heapEnd ∉ object.pages ∨ object.pages.head? = some created.heapEnd) ∧
      ((∀ later, (recordPoolFree created.objectPool later object.record).2 = later) ∨
        ∃ page, page ≠ created.heapEnd ∧ state.machine.physical.Manages page ∧
          ∀ later, (recordPoolFree created.objectPool later object.record).2 =
            later.freePage page) := by
    have distinct := inv.holds.exact.distinct
    rw [ends]
    unfold OnRunway at runway
    rcases effect with ⟨listed, returns⟩ | ⟨page, last, listed, returns⟩
    · rw [listed] at runway distinct
      exact ⟨runway.notMem_of_append distinct nonempty, runway.head_of_append, .inl returns⟩
    · have manages := inv.holds.exact.managed page (mem_of_mem_getLast? last)
      have other : page ≠ state.heapEnd := by
        rintro rfl
        have empty := runway.dropLast_eq_nil distinct last
        rw [listed] at empty
        exact nonempty (append_eq_nil_iff.mp empty).1
      have dropped := runway.dropLast
      have droppedDistinct := distinct.sublist (dropLast_sublist _)
      rw [listed] at dropped droppedDistinct
      exact ⟨dropped.notMem_of_append droppedDistinct nonempty, dropped.head_of_append,
        .inr ⟨page, other, manages, returns⟩⟩
  obtain ⟨absent, start, returns⟩ := taken
  have mem : object ∈ created.objects := by
    rw [objects]
    exact .head _
  obtain ⟨endsAttached, absentAttached⟩ := kept.attach_taken absent mem process arenaServes
  constructor
  · unfold OnRunway
    rw [endsAttached]
    exact .of_notMem absentAttached
  · intro _ _ attempt
    rw [attempt] at endsAttached absentAttached
    rcases kept.attach mem process arenaServes with
      ⟨_, _, other, restored, pool⟩ | ⟨_, _, other, _⟩
    · obtain ⟨_, rfl⟩ := Prod.mk.inj (attempt.symm.trans other)
      have found := restored.invariant.objectAt (by rw [restored.objects]; exact mem)
      obtain ⟨released, listed, managed, shape⟩ :=
        restored.invariant.releaseObjectIfUnused_eq found unattached
      have front : Runway released.physical.freePages created.heapEnd := by
        rw [listed]
        apply Runway.prepend
        rcases start with elsewhere | heads
        · exact .inl ⟨elsewhere, absentAttached⟩
        · exact .inr heads
      rw [shape, pool]
      rw [endsAttached]
      rcases returns with none | ⟨_, ne, manages, returns⟩
      · rw [none]
        exact front
      · rw [returns]
        rcases freePage_spec
          (manages.congr (managed.trans inv.holds.pool.symm)) with same | appended
        · exact (congrArg (Runway · _) same).mpr front
        · refine (congrArg (Runway · _) appended).mpr (front.append ?_)
          intro same
          exact absurd same ne
    · cases attempt.symm.trans other

end

theorem OnRunway.acquire (runway : state.OnRunway) (process : ℕ) {name : List Char}
    (requestedSize : ℕ) {arenaServes : Bool}
    (keeps : state.findObjectByName name = none ∨ arenaServes = true ∨
      state.GrowthAscends KernelHeap.tablePages) :
    (state.acquire process name requestedSize arenaServes).2.OnRunway := by
  unfold SharedMemory.acquire
  split
  · exact runway
  split
  · exact runway
  cases found : state.findObjectByName name with
  | some =>
    dsimp only
    split
    · exact runway
    · refine OnRunway.attach inv runway (mem_of_find?_eq_some found) process ?_
      exact keeps.resolve_left (by simp [found])
  | none =>
    dsimp only
    split
    · exact runway
    rcases inv.createObject
      (show requestedSize ≤ sharedMemorySlotBytes by omega) (unnamed_of_notFound found) with
      ⟨status, failed, result, _⟩ | ⟨object, created, result, kept, objects, _, _, _, unattached, _⟩
    · rw [result]
      obtain ⟨ends, moved⟩ := inv.freePages_createObject result
      unfold OnRunway
      rw [ends]
      exact Runway.clipped runway moved
    · obtain ⟨attachedRunway, failedRunway⟩ :=
        OnRunway.acquire_create inv runway process arenaServes result kept objects unattached
      rw [result]
      dsimp only
      rcases attempt : created.attach process object arenaServes with ⟨answer, attached⟩
      cases answer with
      | ok =>
        rwa [attempt] at attachedRunway
      | error status => exact failedRunway status attached attempt

end

/-! ## Releasing -/

/-- The objects that go with the given attachments, in their order. -/
def doomedObjects (state : SharedMemory) (released : List SharedAttachment) :
    List SharedObject :=
  (released.filterMap fun attachment => state.objectAt attachment.object).filter
    fun object => object.attachmentCount = 1

/-- What is known while runs are still to be put in front: the page heads the list and
nothing is to come, the last run starts with it, or it is neither listed nor to come. -/
def Prospect (free : List ℕ) (page : ℕ) (doomed : List SharedObject) : Prop :=
  (doomed = [] ∧ Runway free page) ∨
    (∃ last, doomed.getLast? = some last ∧ last.physicalBase = page) ∨
    page ∉ free ∧ ∀ object ∈ doomed, page ∉ object.pages

section

variable {free : List ℕ} {page other : ℕ} {doomed : List SharedObject} {object : SharedObject}

theorem Prospect.runway (prospect : Prospect free page []) : Runway free page := by
  rcases prospect with ⟨_, runway⟩ | ⟨_, none, _⟩ | ⟨absent, _⟩
  · exact runway
  · cases none
  · exact .of_notMem absent

theorem Prospect.append (prospect : Prospect free page doomed) (ne : other ≠ page) :
    Prospect (free ++ [other]) page doomed := by
  rcases prospect with ⟨empty, runway⟩ | last | ⟨absent, elsewhere⟩
  · exact .inl ⟨empty, runway.append fun same => absurd same ne⟩
  · exact .inr (.inl last)
  · exact .inr (.inr ⟨not_mem_append absent (mt mem_singleton.mp ne.symm), elsewhere⟩)

/-- The next run arrives. -/
theorem Prospect.prepend (prospect : Prospect free page (object :: doomed))
    (sound : object.Sound) : Prospect (object.pages ++ free) page doomed := by
  have nonempty : object.backingBytes / pageSize ≠ 0 := by
    have whole := sound.whole
    have positive := sound.nonempty
    unfold pageSize at *
    omega
  rcases prospect with ⟨empty, _⟩ | ⟨last, isLast, starts⟩ | ⟨absent, elsewhere⟩
  · cases empty
  · cases doomed with
    | nil =>
      cases isLast
      refine .inl ⟨rfl, Runway.prepend (.inr ?_)⟩
      rw [← starts]
      exact runPages_head nonempty
    | cons => exact .inr (.inl ⟨last, isLast, starts⟩)
  · refine .inr (.inr ⟨?_, fun later mem => elsewhere later (.tail _ mem)⟩)
    exact not_mem_append (elsewhere object (.head _)) absent

end

variable {doomed : List SharedObject}

/-- Freeing a record of a pool that does not hold the page. -/
theorem Prospect.recordPoolFree {pool : RecordPool} {machine : Machine} {page : ℕ}
    (prospect : Prospect machine.physical.freePages page doomed)
    (manages : ∀ phys ∈ pool.pageAddresses, machine.physical.Manages phys)
    (absent : page ∉ pool.pageAddresses) (slot : Slot) :
    Prospect (recordPoolFree pool machine slot).2.physical.freePages page doomed := by
  rcases pool.recordPoolFree_cases machine slot with same | ⟨freed, mem, result⟩
  · rw [same]
    exact prospect
  · rw [result]
    rcases freePage_spec (manages freed mem) with same | appended
    · exact (congrArg (Prospect · page doomed) same).mpr prospect
    · refine (congrArg (Prospect · page doomed) appended).mpr (prospect.append ?_)
      rintro rfl
      exact absent mem

/-- Neither pool has the page behind the heap. -/
structure SparesHeapEnd (state : SharedMemory) : Prop where
  objects : state.heapEnd ∉ state.objectPool.pageAddresses
  attachments : state.heapEnd ∉ state.attachmentPool.pageAddresses

theorem objectAt_recount (state : SharedMemory) (record target : Slot) (change : ℕ → ℕ) :
    (state.recount target change).objectAt record = (state.objectAt record).map fun object =>
        if object.record = target then
          { object with attachmentCount := change object.attachmentCount } else object := by
  rw [objectAt, recount, modifyObject, List.find?_map, objectAt]
  congr 2
  funext object
  simp only [Function.comp_apply]
  split <;> rfl

/-- Looking at one object leaves the others findable. -/
theorem objectAt_releaseObjectIfUnused {record target : Slot} (ne : record ≠ target) :
    (state.releaseObjectIfUnused target).objectAt record = state.objectAt record := by
  unfold SharedMemory.releaseObjectIfUnused
  split
  · rfl
  split
  · rfl
  · rw [objectAt, objectAt, List.find?_filter]
    congr 1
    funext object
    by_cases here : object.record = record
    · simp [here, ne]
    · simp [here]

section

variable {attachment : SharedAttachment} {object : SharedObject} {released : List SharedAttachment}

section

variable (found : state.objectAt attachment.object = some object)
include found

theorem objectAt_releaseAttachment {record : Slot} (ne : record ≠ attachment.object) :
    (state.releaseAttachment attachment).objectAt record = state.objectAt record := by
  rw [releaseAttachment_eq found, objectAt_releaseObjectIfUnused ne,
    SharedMemory.unlinkAttachment, objectAt_recount]
  show (state.objectAt record).map _ = state.objectAt record
  cases other : state.objectAt record with
  | none => rfl
  | some =>
    have here := (objectAt_some other).2
    rw [Option.map_some, if_neg (by rw [here]; exact ne)]

/-- Attachments of other objects are doomed as before. -/
theorem doomedObjects_releaseAttachment
    (elsewhere : ∀ other ∈ released, other.object ≠ attachment.object) :
    (state.releaseAttachment attachment).doomedObjects released = state.doomedObjects released := by
  unfold doomedObjects
  congr 1
  apply filterMap_congr
  intro other mem
  exact objectAt_releaseAttachment found (elsewhere other mem)

theorem doomedObjects_cons (released : List SharedAttachment) :
    state.doomedObjects (attachment :: released) =
      if object.attachmentCount = 1 then object :: state.doomedObjects released
      else state.doomedObjects released := by
  unfold doomedObjects
  rw [filterMap_cons, found]
  rw [filter_cons]
  simp only [decide_eq_true_eq]

end

/-- The list after an attachment is unlinked. -/
theorem Invariant.prospect_unlinkAttachment (inv : state.Invariant pagePool)
    (spares : state.SparesHeapEnd)
    (prospect : Prospect state.machine.physical.freePages state.heapEnd doomed) :
    Prospect (state.unlinkAttachment attachment object).machine.physical.freePages
      state.heapEnd doomed := by
  have unmapped : (if (state.machine.spaces attachment.process).hasRoot then
      (unmap state.machine attachment.process attachment.viewAddress object.backingBytes).2
      else state.machine).physical = state.machine.physical := by
    split
    · exact Machine.physical_unmap _ _ _ _
    · rfl
  refine Prospect.recordPoolFree ?_ ?_ spares.attachments attachment.record
  · rw [unmapped]
    exact prospect
  · intro _ mem
    rw [unmapped]
    apply inv.holds.ownership.manages
    exact mem_add.mpr (.inr (mem_add.mpr (.inl mem)))

/-- Releasing one attachment: what was to come has come. -/
theorem Invariant.prospect_releaseAttachment (inv : state.Invariant pagePool)
    (spares : state.SparesHeapEnd) (linked : attachment ∈ state.attachments)
    (elsewhere : ∀ other ∈ released, other.object ≠ attachment.object)
    (prospect : Prospect state.machine.physical.freePages state.heapEnd
      (state.doomedObjects (attachment :: released))) :
    (state.releaseAttachment attachment).heapEnd = state.heapEnd ∧
      (state.releaseAttachment attachment).SparesHeapEnd ∧
      Prospect (state.releaseAttachment attachment).machine.physical.freePages state.heapEnd
        ((state.releaseAttachment attachment).doomedObjects released) := by
  obtain ⟨object, mem, same⟩ := inv.attached attachment linked
  have found : state.objectAt attachment.object = some object := same ▸ inv.objectAt mem
  have unlinked := inv.unlinkAttachment linked object
  have target : (state.unlinkAttachment attachment object).objectAt attachment.object =
      some { object with attachmentCount := object.attachmentCount - 1 } := by
    rw [SharedMemory.unlinkAttachment, objectAt_recount]
    show (state.objectAt attachment.object).map _ = _
    rw [found, Option.map_some, if_pos same]
  have attachmentsSpared : (state.unlinkAttachment attachment object).heapEnd ∉
      (state.unlinkAttachment attachment object).attachmentPool.pageAddresses :=
    fun inside => spares.attachments (RecordPool.pageAddresses_recordPoolFree _ _ _ inside)
  rw [doomedObjects_releaseAttachment found elsewhere, releaseAttachment_eq found]
  rw [doomedObjects_cons found] at prospect
  by_cases last : object.attachmentCount = 1
  · rw [if_pos last] at prospect
    obtain ⟨machine, listed, managed, shape⟩ :=
      unlinked.releaseObjectIfUnused_eq target (by simp [last])
    have front : Prospect machine.physical.freePages state.heapEnd
        (state.doomedObjects released) := by
      rw [listed]
      exact (inv.prospect_unlinkAttachment spares prospect).prepend (inv.sound object mem)
    rw [shape]
    refine ⟨rfl, ⟨?_, attachmentsSpared⟩, ?_⟩
    · exact fun inside => spares.objects (RecordPool.pageAddresses_recordPoolFree _ _ _ inside)
    · refine front.recordPoolFree ?_ spares.objects attachment.object
      intro _ inside
      have manages := inv.holds.ownership.manages (mem_add.mpr (.inl inside))
      exact manages.congr (managed.trans inv.holds.pool.symm)
  · rw [if_neg last] at prospect
    -- The attachment is counted, so the object has another one.
    have counted : 0 < object.attachmentCount := by
      rw [inv.counted object mem, countP_pos_iff]
      exact ⟨attachment, linked, by simp [same]⟩
    rw [SharedMemory.releaseObjectIfUnused, target]
    dsimp only
    rw [if_pos (by omega)]
    exact ⟨rfl, ⟨spares.objects, attachmentsSpared⟩, inv.prospect_unlinkAttachment spares prospect⟩

end

/-- Releasing attachments of distinct objects one after the other. -/
theorem Invariant.runway_releaseAttachments {released : List SharedAttachment}
    (inv : state.Invariant pagePool) (spares : state.SparesHeapEnd)
    (linked : ∀ attachment ∈ released, attachment ∈ state.attachments)
    (distinct : (released.map SharedAttachment.record).Nodup)
    (single : (released.map SharedAttachment.object).Nodup)
    (prospect : Prospect state.machine.physical.freePages state.heapEnd
      (state.doomedObjects released)) :
    (released.foldl SharedMemory.releaseAttachment state).OnRunway := by
  induction released generalizing state with
  | nil => exact prospect.runway
  | cons attachment _ ih =>
    obtain ⟨notRest, restDistinct⟩ := nodup_cons.mp distinct
    obtain ⟨otherObjects, restSingle⟩ := nodup_cons.mp single
    have here := linked attachment (.head _)
    obtain ⟨ends, spared, next⟩ := inv.prospect_releaseAttachment spares here
      (fun other later same => otherObjects (same ▸ mem_map_of_mem later)) prospect
    refine ih (inv.releaseAttachment here) spared ?_ restDistinct restSingle ?_
    · intro other later
      refine mem_attachments_releaseAttachment (linked other (.tail _ later)) ?_
      intro same
      exact notRest (same ▸ mem_map_of_mem later)
    · rw [ends]
      exact next

/-! ## One attachment a process and object -/

/-- No process is attached to an object twice. -/
def SingleAttachments (state : SharedMemory) : Prop :=
  state.attachments.Pairwise fun left right =>
    ¬(left.process = right.process ∧ left.object = right.object)

theorem attachments_releaseAttachment_sublist (state : SharedMemory)
    (attachment : SharedAttachment) :
    (state.releaseAttachment attachment).attachments.Sublist state.attachments := by
  cases found : state.objectAt attachment.object with
  | none => rw [releaseAttachment, found]
  | some =>
    rw [releaseAttachment_eq found, attachments_releaseObjectIfUnused]
    exact filter_sublist

theorem SingleAttachments.releaseAttachments (single : state.SingleAttachments)
    (released : List SharedAttachment) :
    (released.foldl SharedMemory.releaseAttachment state).SingleAttachments := by
  induction released generalizing state with
  | nil => exact single
  | cons attachment _ ih =>
    apply ih
    exact List.Pairwise.sublist (attachments_releaseAttachment_sublist state attachment) single

theorem attachments_attach (state : SharedMemory) (process : ℕ) (object : SharedObject)
    (arenaServes : Bool) :
    (state.attach process object arenaServes).2.attachments = state.attachments ∨
      ∃ attachment : SharedAttachment, attachment.process = process ∧
        attachment.object = object.record ∧
        (state.attach process object arenaServes).2.attachments =
          attachment :: state.attachments := by
  unfold SharedMemory.attach
  split
  · exact .inl rfl
  split
  · exact .inl rfl
  dsimp only
  split
  · exact .inr ⟨_, rfl, rfl, rfl⟩
  · exact .inl rfl

theorem SingleAttachments.attach (single : state.SingleAttachments) (process : ℕ)
    (object : SharedObject) (unattached : ∀ attachment ∈ state.attachments,
      ¬(process = attachment.process ∧ object.record = attachment.object)) (arenaServes : Bool) :
    (state.attach process object arenaServes).2.SingleAttachments := by
  unfold SingleAttachments
  rcases attachments_attach state process object arenaServes with
    same | ⟨attachment, owner, target, linked⟩
  · rw [same]
    exact single
  · rw [linked]
    refine pairwise_cons.mpr ⟨?_, single⟩
    rw [owner, target]
    exact unattached

theorem SingleAttachments.acquire (single : state.SingleAttachments)
    (inv : state.Invariant pagePool) (process : ℕ) (name : List Char) (requestedSize : ℕ)
    (arenaServes : Bool) :
    (state.acquire process name requestedSize arenaServes).2.SingleAttachments := by
  unfold SharedMemory.acquire
  split
  · exact single
  cases attached : state.findAttachment process name with
  | some => exact single
  | none =>
  cases found : state.findObjectByName name with
  | some =>
    dsimp only
    split
    · exact single
    apply single.attach
    rintro attachment linked ⟨owner, target⟩
    have unfound := List.find?_eq_none.mp attached attachment linked
    rw [← target, inv.objectAt (mem_of_find?_eq_some found)] at unfound
    exact unfound (by simpa [owner] using List.find?_some found)
  | none =>
    dsimp only
    split
    · exact single
    rcases inv.createObject
      (show requestedSize ≤ sharedMemorySlotBytes by omega) (unnamed_of_notFound found) with
      ⟨status, failed, result, restored⟩ |
      ⟨object, created, result, kept, objects, attachments, _⟩
    · rw [result]
      unfold SingleAttachments
      rw [restored.attachments]
      exact single
    · have createdSingle : created.SingleAttachments := by
        unfold SingleAttachments
        rw [attachments]
        exact single
      have attempt := createdSingle.attach process object ?_ arenaServes
      · rw [result]
        dsimp only
        rcases outcome : created.attach process object arenaServes with ⟨answer, _⟩
        rw [outcome] at attempt
        cases answer with
        | ok => exact attempt
        | error =>
          unfold SingleAttachments
          rw [attachments_releaseObjectIfUnused]
          exact attempt
      · -- Nothing points to the record that was just taken.
        rintro attachment linked ⟨_, target⟩
        rw [attachments] at linked
        obtain ⟨_, pointedMember, points⟩ := inv.attached attachment linked
        have distinct := kept.recordsDistinct
        rw [objects] at distinct
        apply (nodup_cons.mp distinct).1
        rw [target, ← points]
        exact mem_map_of_mem pointedMember

theorem SingleAttachments.perform (single : state.SingleAttachments)
    (inv : state.Invariant pagePool) (operation : Operation) :
    (state.perform operation).SingleAttachments := by
  cases operation with
  | acquire process name requestedSize arenaServes =>
    exact single.acquire inv process name requestedSize arenaServes
  | releaseProcessMappings => exact single.releaseAttachments _
  | _ => exact single

/-! ## Runs -/

/-- What a step has to respect. -/
def SparesRunway (state : SharedMemory) : Operation → Prop
  | .acquire _ name _ arenaServes =>
    -- Only a page table for an object that exists already can grow the heap.
    state.findObjectByName name = none ∨ arenaServes = true ∨
      state.GrowthAscends KernelHeap.tablePages
  | .releaseProcessMappings process =>
    let doomed := state.doomedObjects
      (state.attachments.filter fun attachment => attachment.process = process)
    state.SparesHeapEnd ∧
      (doomed = [] ∨
        (∃ last, doomed.getLast? = some last ∧ last.physicalBase = state.heapEnd) ∨
        state.heapEnd ∉ state.machine.physical.freePages ∧
          ∀ object ∈ doomed, state.heapEnd ∉ object.pages)
  | .heapAppendGrowth pageCount => state.GrowthAscends pageCount
  | .otherFreePage phys =>
    phys ≠ state.heapEnd ∨ state.machine.physical.freePages = [] ∨
      1 < state.machine.physical.pageRefcount phys
  | _ => True

section

variable (runway : state.OnRunway) (inv : state.Invariant pagePool)
    (single : state.SingleAttachments)
include runway inv single

theorem OnRunway.releaseProcessMappings {process : ℕ}
    (spares : state.SparesRunway (.releaseProcessMappings process)) :
    (state.releaseProcessMappings process).OnRunway := by
  obtain ⟨spared, outcome⟩ := spares
  refine inv.runway_releaseAttachments spared ?_ ?_ ?_ ?_
  · intro _ mem
    exact mem_of_mem_filter mem
  · exact inv.attachmentsDistinct.sublist (filter_sublist.map _)
  · -- Attachments of one process name distinct objects.
    apply pairwise_map.mpr
    refine (single.sublist filter_sublist).imp_of_mem ?_
    intro _ _ leftMember rightMember apart same
    have leftOwner := of_mem_filter leftMember
    have rightOwner := of_mem_filter rightMember
    simp only [decide_eq_true_eq] at leftOwner rightOwner
    exact apart ⟨leftOwner.trans rightOwner.symm, same⟩
  · rcases outcome with none | later
    · exact .inl ⟨none, runway⟩
    · exact .inr later

/-- One step. -/
theorem OnRunway.perform {operation : Operation}
    (spares : state.SparesRunway operation) : (state.perform operation).OnRunway := by
  cases operation with
  | acquire process _ requestedSize =>
    exact OnRunway.acquire inv runway process requestedSize spares
  | releaseProcessMappings => exact runway.releaseProcessMappings inv single spares
  | heapAppendGrowth => exact runway.heapAppendGrowth inv.holds spares
  | otherAllocPage =>
    have dropped := (allocPage_spec inv.holds.exact.initialized).1
    show Runway (FileMappings.otherAllocPage state.machine).physical.freePages state.heapEnd
    unfold FileMappings.otherAllocPage
    split
    · exact (congrArg (Runway · _) dropped).mpr runway.dropLast
    · exact (congrArg (Runway · _) dropped).mpr runway.dropLast
  | otherFreePage phys =>
    show Runway (FileMappings.otherFreePage state.machine phys).physical.freePages state.heapEnd
    unfold FileMappings.otherFreePage
    split
    · rename_i held
      have manages := inv.holds.ownership.sound.managesHeld phys
        (mem_add.mpr (.inr (mem_coe.mpr held)))
      by_cases shared : 1 < state.machine.physical.pageRefcount phys
      · exact (congrArg (Runway · _) (freePage_shared manages shared)).mpr runway
      rcases freePage_spec manages with same | appended
      · exact (congrArg (Runway · _) same).mpr runway
      · refine (congrArg (Runway · _) appended).mpr (Runway.append runway ?_)
        intro same
        exact (spares.resolve_left (not_not.mpr same)).resolve_right shared
    · exact runway
  | otherRetainPage phys =>
    have same : (FileMappings.otherRetainPage state.machine phys).physical.freePages =
        state.machine.physical.freePages := by
      unfold FileMappings.otherRetainPage retainPage
      split
      · split
        · split <;> rfl
        · rfl
      · rfl
    exact (congrArg (Runway · _) same).mpr runway
  | otherSpace => exact runway

end

theorem onRunway_boot (pagePool : PagePool) : (boot pagePool).OnRunway := by
  intro present
  show ((poolPages pagePool).take _).head? = some pagePool.base
  obtain ⟨count, pages⟩ : ∃ count, pagePool.numPages = count + 1 :=
    Nat.exists_eq_succ_of_ne_zero (Nat.pos_iff_ne_zero.mp pagePool.numPages_pos)
  cases free : pagePool.numPages - pageArrayPages pagePool with
  | zero =>
    have empty : (boot pagePool).machine.physical.freePages = [] := by
      show (poolPages pagePool).take _ = []
      rw [free, take_zero]
    rw [empty] at present
    cases present
  | succ =>
    rw [poolPages, pages, range_succ_eq_map]
    simp

/-- Two processes with address spaces; the first has an object whose run starts at the
end of the heap. -/
def objectAtHeapEnd : SharedMemory :=
  (((boot eightPages).perform (.otherSpace 1 ⟨true, fun _ => .invalid⟩)).perform
    (.otherSpace 2 ⟨true, fun _ => .invalid⟩)).perform (.acquire 1 ['A'] 4096 true)

end SharedMemory

end RosKernel.Memory
