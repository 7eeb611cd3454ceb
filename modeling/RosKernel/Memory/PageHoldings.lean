import RosKernel.Memory.FreeListRuns
import RosKernel.Memory.RecordPool

/-!
# Which pages are free

`Holds` joins what a service owns with an exact free list: a page of the pool is free
exactly when neither the service nor anybody else refers to it. So a service that
owns the same pages before and after an operation has left the free pages alone.
-/

namespace RosKernel.Memory

open Multiset

namespace PhysicalMemory

variable {memory : PhysicalMemory} {held : Multiset ℕ}

@[simp] theorem pool_allocPage (memory : PhysicalMemory) :
    memory.allocPage.2.pool = memory.pool := by
  unfold allocPage
  split
  · split <;> rfl
  · rfl

@[simp] theorem pool_popReserved (count : ℕ) (memory : PhysicalMemory) :
    (popReserved count memory).pool = memory.pool := by
  induction count generalizing memory with
  | zero => rfl
  | succ _ ih =>
    unfold popReserved
    split
    · rfl
    · rw [ih]
      rfl

@[simp] theorem pool_reserveContiguousPages (memory : PhysicalMemory) (pageCount : ℕ) :
    (memory.reserveContiguousPages pageCount).2.pool = memory.pool := by
  unfold reserveContiguousPages
  split
  · rfl
  split
  · rfl
  split
  · rfl
  split
  · exact pool_popReserved _ _
  · rfl

@[simp] theorem pool_releaseContiguousPages (memory : PhysicalMemory) (base pageCount : ℕ) :
    (memory.releaseContiguousPages base pageCount).pool = memory.pool := by
  have loop : ∀ pages : List ℕ,
      (pages.foldr (fun phys released => releaseRunPage released phys) memory).pool =
        memory.pool := by
    intro pages
    induction pages with
    | nil => rfl
    | cons _ _ ih =>
      rw [List.foldr_cons, releaseRunPage]
      split
      · exact ih
      · exact ih
  unfold releaseContiguousPages
  split
  · rfl
  · exact loop _

@[simp] theorem pool_retainPage (memory : PhysicalMemory) (phys : ℕ) :
    (memory.retainPage phys).pool = memory.pool := by
  unfold retainPage
  split
  · split <;> rfl
  · rfl

/-- Releasing a run that is held keeps the free list exact. -/
theorem Exact.releaseContiguousPages (exact : memory.Exact) {base pageCount : ℕ}
    (sound : memory.Sound ((runPages base pageCount : Multiset ℕ) + held)) :
    (memory.releaseContiguousPages base pageCount).Exact := by
  have managed : ∀ phys ∈ runPages base pageCount, memory.Manages phys := by
    intro phys mem
    exact sound.managesHeld phys (mem_add.mpr (.inl (mem_coe.mpr mem)))
  unfold PhysicalMemory.releaseContiguousPages
  split
  · exact exact
  · refine (exact.releasePages ?_ ?_).1
    · refine List.Pairwise.imp_of_mem ?_ (runPages_nodup base pageCount)
      intro left right leftMember rightMember ne page leftFound rightFound
      rw [(managed left leftMember).pageFromPhys] at leftFound
      rw [(managed right rightMember).pageFromPhys] at rightFound
      exact ne (Option.some.inj (leftFound.trans rightFound.symm))
    · intro phys mem _ found
      rw [(managed phys mem).pageFromPhys] at found
      obtain rfl := Option.some.inj found
      have counted := sound.accounts.count_pos (mem_add.mpr (.inl (mem_coe.mpr mem)))
      exact Nat.pos_iff_ne_zero.mp counted

/-- With an exact free list the free pages are those nobody holds. -/
theorem Exact.mem_freePages_iff (exact : memory.Exact) (sound : memory.Sound held) (phys : ℕ) :
    phys ∈ memory.freePages ↔ memory.Manages phys ∧ phys ∉ held := by
  constructor
  · intro free
    exact ⟨exact.managed phys free, fun mem => sound.accounts.not_mem_free mem free⟩
  · rintro ⟨managed, unheld⟩
    rw [exact.free_iff phys managed]
    exact (sound.accounts.counted phys).trans (count_eq_zero_of_notMem unheld)

end PhysicalMemory

namespace Machine

variable {machine : Machine} {pagePool : PagePool} {owned : Multiset ℕ} {phys : ℕ}

/-- The service owns exactly these pages of the pool and the free list is exact. -/
structure Holds (machine : Machine) (pagePool : PagePool) (owned : Multiset ℕ) : Prop where
  ownership : machine.Owned owned
  exact : machine.physical.Exact
  pool : machine.physical.pool = pagePool

section

variable (holds : machine.Holds pagePool owned)
include holds

/-- Equal holdings leave equal free lists. -/
theorem Holds.free_iff {other : Machine}
    (otherHolds : other.Holds pagePool owned) (same : other.otherPages = machine.otherPages) :
    phys ∈ other.physical.freePages ↔ phys ∈ machine.physical.freePages := by
  rw [holds.exact.mem_freePages_iff holds.ownership.sound,
    otherHolds.exact.mem_freePages_iff otherHolds.ownership.sound, same]
  unfold PhysicalMemory.Manages
  rw [holds.pool, otherHolds.pool]

theorem Holds.congr {other : Machine} (physical : other.physical = machine.physical)
    (otherPages : other.otherPages = machine.otherPages) : other.Holds pagePool owned :=
  ⟨holds.ownership.congr physical otherPages, physical ▸ holds.exact, physical ▸ holds.pool⟩

theorem Holds.heapAppendGrowth (pageCount : ℕ)
    (appended : Bool) : (machine.heapAppendGrowth pageCount appended).Holds pagePool owned := by
  refine ⟨holds.ownership.heapAppendGrowth pageCount appended, ?_, ?_⟩
  · have reserved := (holds.exact.reserveContiguousPages pageCount).1
    unfold Machine.heapAppendGrowth
    dsimp only
    split
    · exact reserved
    rename_i nonzero
    split
    · exact reserved
    · rcases holds.ownership.sound.reserveContiguousPages pageCount with
        ⟨zero, _⟩ | ⟨_, sound⟩
      · exact absurd zero nonzero
      · exact reserved.releaseContiguousPages sound
  · unfold Machine.heapAppendGrowth
    dsimp only
    split
    · simpa using holds.pool
    split
    · simpa using holds.pool
    · simpa using holds.pool

theorem Holds.heapAlloc : machine.heapAlloc.2.Holds pagePool owned := by
  rw [Machine.heapAlloc]
  cases machine.heapCalls with
  | nil => exact holds
  | cons call => exact (holds.heapAppendGrowth call.growthPages call.appended).congr rfl rfl

end

/-- Page-table updates change no holdings. -/
theorem tableInvariant_holds (pagePool : PagePool) (owned : Multiset ℕ) :
    TableInvariant fun machine => machine.Holds pagePool owned :=
  ⟨fun _ _ _ holds => holds.congr rfl rfl, fun _ holds => holds.heapAlloc⟩

/-- `reserve_contiguous_pages` on behalf of the service. -/
theorem Holds.reserveContiguousPages (holds : machine.Holds pagePool owned) (pageCount : ℕ) :
    ((machine.physical.reserveContiguousPages pageCount).1 = 0 ∧
      (machine.physical.reserveContiguousPages pageCount).2 = machine.physical) ∨
    (machine.physical.reserveContiguousPages pageCount).1 ≠ 0 ∧
    ({ machine with
        physical := (machine.physical.reserveContiguousPages pageCount).2 } : Machine).Holds
      pagePool
      ((PhysicalMemory.runPages (machine.physical.reserveContiguousPages pageCount).1 pageCount :
        Multiset ℕ) + owned) := by
  rcases holds.ownership.sound.reserveContiguousPages pageCount with
    unchanged | ⟨fresh, sound⟩
  · exact .inl unchanged
  by_cases zero : (machine.physical.reserveContiguousPages pageCount).1 = 0
  · cases pageCount with
    | zero => exact .inl ⟨zero, by simp [PhysicalMemory.reserveContiguousPages]⟩
    | succ =>
      -- Address 0 is never managed, so no run starts there.
      have manages := sound.managesHeld 0 (by
        rw [zero, PhysicalMemory.runPages_succ]
        exact mem_add.mpr (.inl (mem_coe.mpr (.head _))))
      exact absurd manages.pos (Nat.lt_irrefl 0)
  · refine .inr ⟨zero, ⟨?_, ?_, ?_⟩, (holds.exact.reserveContiguousPages pageCount).1, ?_⟩
    · rw [Multiset.add_assoc]
      exact sound
    · refine Multiset.nodup_add.mpr ⟨PhysicalMemory.runPages_nodup _ _,
        holds.ownership.distinct, ?_⟩
      rw [disjoint_left]
      intro phys mem again
      exact fresh phys (mem_coe.mp mem) (mem_add.mpr (.inl again))
    · intro phys mem other
      rcases mem_add.mp mem with new | old
      · exact fresh phys (mem_coe.mp new) (mem_add.mpr (.inr (mem_coe.mpr other)))
      · exact holds.ownership.apart phys old other
    · simpa using holds.pool

/-- `release_contiguous_pages` of one of the service's runs. -/
theorem Holds.releaseContiguousPages {base pageCount : ℕ} (holds : machine.Holds pagePool
      ((PhysicalMemory.runPages base pageCount : Multiset ℕ) + owned)) :
    ({ machine with
        physical := machine.physical.releaseContiguousPages base pageCount } : Machine).Holds
      pagePool owned := by
  have sound := holds.ownership.sound
  rw [Multiset.add_assoc] at sound
  obtain ⟨_, distinct, apart⟩ := Multiset.nodup_add.mp holds.ownership.distinct
  refine ⟨⟨?_, distinct, ?_⟩, holds.exact.releaseContiguousPages sound, ?_⟩
  · refine sound.releaseContiguousPages ?_
    intro phys mem again
    rcases mem_add.mp again with old | other
    · exact disjoint_left.mp apart (mem_coe.mpr mem) old
    · exact holds.ownership.apart phys (mem_add.mpr (.inl (mem_coe.mpr mem))) (mem_coe.mp other)
  · intro phys mem
    exact holds.ownership.apart phys (mem_add.mpr (.inr mem))
  · simpa using holds.pool

theorem pageInvariant_exact (pagePool : PagePool) :
    PageInvariant fun machine => machine.physical.Exact ∧ machine.physical.pool = pagePool := by
  refine ⟨?_, ?_⟩
  · rintro machine ⟨exact, pool⟩
    exact ⟨exact.allocPage.1, (PhysicalMemory.pool_allocPage _).trans pool⟩
  · rintro _ phys ⟨exact, pool⟩
    exact ⟨exact.freePage phys, (PhysicalMemory.pool_freePage _ _).trans pool⟩

end Machine

end RosKernel.Memory
