import RosKernel.Memory.Machine
import RosKernel.Memory.PageAccounts

/-!
# Page ownership of a kernel service

`Owned` says that a service is the only holder of each page in its multiset: the
page manager accounts for those pages and for everybody else's, and the two do
not meet. Heap allocations and page-table updates never change what a service
owns; taking and returning pages changes it by exactly that page.
-/

namespace RosKernel.Memory.Machine

open Multiset

variable {machine : Machine} {owned : Multiset ℕ} {phys : ℕ}

/-- The service owning `owned` is the only holder of each of its pages. -/
structure Owned (machine : Machine) (owned : Multiset ℕ) : Prop where
  /-- The manager accounts for the service and for everybody else. -/
  sound : machine.physical.Sound (owned + (machine.otherPages : Multiset ℕ))
  distinct : owned.Nodup
  apart : ∀ phys ∈ owned, phys ∉ machine.otherPages

section

variable (ownership : machine.Owned owned)
include ownership

/-- An owned page is counted as allocated. -/
theorem Owned.manages (mem : phys ∈ owned) : machine.physical.Manages phys :=
  ownership.sound.managesHeld phys (mem_add.mpr (.inl mem))

theorem Owned.refcount_pos (mem : phys ∈ owned) : 1 ≤ machine.physical.pageRefcount phys := by
  have present : phys ∈ owned + (machine.otherPages : Multiset ℕ) := mem_add.mpr (.inl mem)
  have manages := ownership.manages mem
  have counted := ownership.sound.accounts.count_pos present
  rw [PhysicalMemory.pageRefcount, if_pos ownership.sound.initialized, manages.aligned,
    manages.pageFromPhys]
  exact counted

/-- An owned page is not on the free list. -/
theorem Owned.not_mem_freePages (mem : phys ∈ owned) : phys ∉ machine.physical.freePages :=
  ownership.sound.accounts.not_mem_free (mem_add.mpr (.inl mem))

/-- Ownership depends on the page manager and on the other holders only. -/
theorem Owned.congr {other : Machine} (physical : other.physical = machine.physical)
    (otherPages : other.otherPages = machine.otherPages) :
    other.Owned owned := by
  refine ⟨?_, ownership.distinct, ?_⟩
  · rw [physical, otherPages]
    exact ownership.sound
  · rw [otherPages]
    exact ownership.apart

/-! ## The service's own pages -/

/-- `alloc_page` on behalf of the service. -/
theorem Owned.allocPage :
    (machine.allocPage.1 = 0 ∧ machine.allocPage.2.Owned owned) ∨
      (machine.allocPage.1 ≠ 0 ∧ machine.allocPage.1 ∉ owned ∧
        machine.allocPage.2.Owned (machine.allocPage.1 ::ₘ owned)) := by
  rcases ownership.sound.allocPage with ⟨zero, unchanged⟩ | ⟨nonzero, fresh, sound⟩
  · exact .inl ⟨zero, ownership.congr unchanged rfl⟩
  · rw [mem_add, not_or] at fresh
    refine .inr ⟨nonzero, fresh.1, ⟨?_, ?_, ?_⟩⟩
    · rw [cons_add]
      exact sound
    · exact nodup_cons.mpr ⟨fresh.1, ownership.distinct⟩
    · intro page mem
      rcases mem_cons.mp mem with same | old
      · rw [same]
        exact fun other => fresh.2 (mem_coe.mpr other)
      · exact ownership.apart page old

end

/-- `free_page` of one of the service's pages. -/
theorem Owned.freePage (ownership : machine.Owned (phys ::ₘ owned)) :
    (machine.freePage phys).Owned owned := by
  refine ⟨?_, (nodup_cons.mp ownership.distinct).2, ?_⟩
  · have sound := ownership.sound
    rw [cons_add] at sound
    exact sound.freePage
  · intro page mem
    exact ownership.apart page (mem_cons_of_mem mem)

/-! ## Everybody else -/

section

variable (ownership : machine.Owned owned)
include ownership

variable {physical : PhysicalMemory}

/-- The other holders gain pages nobody referred to. -/
theorem Owned.otherTake (pages : List ℕ) (fresh : ∀ phys ∈ pages, phys ∉ owned)
    (sound : physical.Sound ((pages : Multiset ℕ) + (owned + (machine.otherPages : Multiset ℕ)))) :
    ({ machine with
        physical := physical
        otherPages := pages ++ machine.otherPages } : Machine).Owned owned := by
  refine ⟨?_, ownership.distinct, ?_⟩
  · rw [← Multiset.coe_add, ← Multiset.add_assoc, Multiset.add_comm owned, Multiset.add_assoc]
    exact sound
  · intro page mem other
    rcases List.mem_append.mp other with new | old
    · exact fresh page new mem
    · exact ownership.apart page mem old

/-- The other holders give some of their references up. -/
theorem Owned.otherGive {kept : List ℕ} (subset : ∀ phys ∈ kept, phys ∈ machine.otherPages)
    (sound : physical.Sound (owned + (kept : Multiset ℕ))) :
    ({ machine with physical := physical, otherPages := kept } : Machine).Owned owned := by
  refine ⟨sound, ownership.distinct, ?_⟩
  intro page mem other
  exact ownership.apart page mem (subset page other)

/-- Growing the heap arena takes pages from nobody. -/
theorem Owned.heapAppendGrowth (pageCount : ℕ) (appended : Bool) :
    (machine.heapAppendGrowth pageCount appended).Owned owned := by
  rw [Machine.heapAppendGrowth]
  rcases ownership.sound.reserveContiguousPages pageCount with
    ⟨zero, unchanged⟩ | ⟨fresh, sound⟩
  · rw [if_pos zero, unchanged]
    exact ownership
  · have freshOwned : ∀ phys ∈ PhysicalMemory.runPages
        (machine.physical.reserveContiguousPages pageCount).1 pageCount, phys ∉ owned := by
      intro page mem old
      exact fresh page mem (mem_add.mpr (.inl old))
    split
    · rename_i zero
      -- Address 0 is never managed, so the run is empty.
      cases pageCount with
      | zero =>
        exact ⟨by simpa [PhysicalMemory.runPages] using sound, ownership.distinct, ownership.apart⟩
      | succ =>
        have manages := sound.managesHeld 0 (by
          rw [zero, PhysicalMemory.runPages_succ]
          exact mem_add.mpr (.inl (mem_coe.mpr (.head _))))
        exact absurd manages.pos (Nat.lt_irrefl 0)
    split
    · exact ownership.otherTake _ freshOwned sound
    · exact ⟨sound.releaseContiguousPages fresh, ownership.distinct, ownership.apart⟩

theorem Owned.heapAlloc : machine.heapAlloc.2.Owned owned := by
  rw [Machine.heapAlloc]
  cases machine.heapCalls with
  | nil => exact ownership
  | cons call => exact (ownership.heapAppendGrowth call.growthPages call.appended).congr rfl rfl

end

/-! ## Page tables -/

/-- A property that survives rewriting an address space. -/
def SpaceInvariant (holds : Machine → Prop) : Prop :=
  ∀ machine process space, holds machine → holds (machine.setSpace process space)

namespace SpaceInvariant

variable {holds : Machine → Prop}

section

variable (spaces : SpaceInvariant holds) (kept : holds machine)
include spaces kept

theorem setDescriptor (process index : ℕ) (descriptor : Descriptor) :
    holds (machine.setDescriptor process index descriptor) :=
  spaces _ _ _ kept

theorem writeLevel3Entry (process index address : ℕ) (entry : Option (ℕ × MapFlags)) :
    holds (Memory.writeLevel3Entry machine process index address entry) := by
  unfold Memory.writeLevel3Entry
  split
  · exact spaces.setDescriptor kept _ _ _
  · exact kept

theorem mapBlocks (process : ℕ) (mapping : VmMapping) (offset count : ℕ) :
    holds (Memory.mapBlocks machine process mapping offset count).2 := by
  induction count generalizing machine offset with
  | zero => exact kept
  | succ _ ih =>
    unfold Memory.mapBlocks
    split
    · exact kept
    · exact ih (spaces.setDescriptor kept _ _ _) _

theorem unmapBlocks
    (process address count : ℕ) : holds (Memory.unmapBlocks machine process address count).2 := by
  induction count generalizing machine address with
  | zero => exact kept
  | succ _ ih =>
    unfold Memory.unmapBlocks
    split
    · exact kept
    · exact ih (spaces.setDescriptor kept _ _ _) _

end

/-- Looking a table up without creating it. -/
theorem resolveLevel3Entry_existing (machine : Machine) (process address : ℕ) :
    (Memory.resolveLevel3Entry machine process address false).2 = machine := by
  unfold Memory.resolveLevel3Entry
  split
  · rfl
  split
  · rfl
  · rfl

variable (spaces : SpaceInvariant holds) (kept : holds machine)
include spaces kept

theorem unmapPages
    (process address count : ℕ) : holds (Memory.unmapPages machine process address count).2 := by
  induction count generalizing machine address with
  | zero => exact kept
  | succ _ ih =>
    have resolution := resolveLevel3Entry_existing machine process address
    unfold Memory.unmapPages
    split
    · rename_i same
      obtain rfl : _ = machine := same ▸ resolution
      exact kept
    · rename_i same
      obtain rfl : _ = machine := same ▸ resolution
      exact ih (spaces.writeLevel3Entry kept _ _ _ _) _

theorem releaseEmptyTables (process blockBase count : ℕ) :
    holds (Memory.releaseEmptyTables machine process blockBase count) := by
  induction count generalizing machine blockBase with
  | zero => exact kept
  | succ _ ih =>
    refine ih ?_ _
    unfold Memory.releaseEmptyLevel3Table
    split
    · exact kept
    split
    · split
      · exact spaces.setDescriptor kept _ _ _
      · exact kept
    · exact kept

/-- `MemoryManager::unmap` asks the heap for nothing. -/
theorem unmap
    (process address length : ℕ) : holds (Memory.unmap machine process address length).2 := by
  have cleared := spaces.unmapPages kept process address (length / pageSize)
  unfold Memory.unmap
  split
  · exact kept
  split
  · exact kept
  split
  · exact spaces.unmapBlocks kept _ _ _
  split
  · rename_i same
    rw [same] at cleared
    exact spaces.releaseEmptyTables cleared _ _ _
  · rename_i same
    rwa [same] at cleared

end SpaceInvariant

/-- A property that survives rewriting an address space and asking the heap for
memory, which is all that page-table updates do. -/
structure TableInvariant (holds : Machine → Prop) : Prop where
  setSpace : ∀ machine process space, holds machine → holds (machine.setSpace process space)
  heapAlloc : ∀ machine, holds machine → holds machine.heapAlloc.2

namespace TableInvariant

variable {holds : Machine → Prop}

variable (table : TableInvariant holds)
include table

theorem spaceInvariant : SpaceInvariant holds :=
  table.setSpace

theorem resolveLevel3Entry (kept : holds machine) (process address : ℕ) (createMissing : Bool) :
    holds (Memory.resolveLevel3Entry machine process address createMissing).2 := by
  have allocated := table.heapAlloc _ kept
  unfold Memory.resolveLevel3Entry
  split
  · exact kept
  split
  · exact kept
  split
  · split
    · rename_i served same
      rw [same] at allocated
      exact table.spaceInvariant.setDescriptor allocated _ _ _
    · rename_i refused same
      rwa [same] at allocated
  · exact kept

theorem mapPages (kept : holds machine) (process : ℕ) (mapping : VmMapping) (offset count : ℕ) :
    holds (Memory.mapPages machine process mapping offset count).2 := by
  induction count generalizing machine offset with
  | zero => exact kept
  | succ _ ih =>
    have resolution := table.resolveLevel3Entry kept process (mapping.virtualBase + offset) true
    unfold Memory.mapPages
    split
    · rename_i same
      rwa [same] at resolution
    · rename_i same
      rw [same] at resolution
      exact ih (table.spaceInvariant.writeLevel3Entry resolution _ _ _ _) _

theorem map (kept : holds machine) (process : ℕ)
    (mapping : VmMapping) : holds (Memory.map machine process mapping).2 := by
  unfold Memory.map
  split
  · exact kept
  split
  · exact kept
  split
  · exact table.spaceInvariant.mapBlocks kept _ _ _ _
  · exact table.mapPages kept _ _ _ _

end TableInvariant

/-- Page-table updates change no ownership. -/
theorem tableInvariant_owned (owned : Multiset ℕ) :
    TableInvariant fun machine => machine.Owned owned :=
  ⟨fun _ _ _ ownership => ownership.congr rfl rfl, fun _ ownership => ownership.heapAlloc⟩

theorem Owned.map (ownership : machine.Owned owned) (process : ℕ) (mapping : VmMapping) :
    (Memory.map machine process mapping).2.Owned owned :=
  (tableInvariant_owned owned).map ownership process mapping

theorem Owned.unmap (ownership : machine.Owned owned) (process address length : ℕ) :
    (Memory.unmap machine process address length).2.Owned owned :=
  (tableInvariant_owned owned).spaceInvariant.unmap ownership process address length

/-- A property that survives handing out and taking back a page, which is all that pools do. -/
structure PageInvariant (kept : Machine → Prop) : Prop where
  allocPage : ∀ machine, kept machine → kept machine.allocPage.2
  freePage : ∀ machine phys, kept machine → kept (machine.freePage phys)

end RosKernel.Memory.Machine
