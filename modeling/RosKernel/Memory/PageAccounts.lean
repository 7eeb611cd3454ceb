import Mathlib.Data.List.Dedup
import RosKernel.Memory.Physical

/-!
# Accounting for physical pages

`Sound` relates the page manager to the references its clients hold. Each
operation of the manager has one rule: what it does to the multiset of held
references when its caller keeps to the references it owns.
-/

namespace RosKernel.Memory.PhysicalMemory

open List

variable {memory : PhysicalMemory} {held : Multiset ℕ} {phys : ℕ}

/-- The address belongs to a page of the managed pool. -/
def Manages (memory : PhysicalMemory) (phys : ℕ) : Prop :=
  ∃ index < memory.pool.numPages, phys = memory.pool.base + index * pageSize

/-- The manager's free list and counts as a reference pool. -/
def ledger (memory : PhysicalMemory) : ReferencePool ℕ where
  free := memory.freePages
  count := fun phys => (memory.pageArray phys).refCount

/-- The manager agrees with the references that are held. -/
structure Sound (memory : PhysicalMemory) (held : Multiset ℕ) : Prop where
  initialized : memory.initialized = true
  accounts : memory.ledger.Accounts held
  managesFree : ∀ phys ∈ memory.freePages, memory.Manages phys
  managesHeld : ∀ phys ∈ held, memory.Manages phys

/-! ## Addresses of managed pages -/

theorem Manages.pos (manages : memory.Manages phys) : 0 < phys := by
  obtain ⟨_, _, rfl⟩ := manages
  have := memory.pool.base_pos
  omega

theorem Manages.aligned (manages : memory.Manages phys) : phys / pageSize * pageSize = phys := by
  obtain ⟨_, _, rfl⟩ := manages
  exact Nat.div_mul_cancel (Nat.dvd_add memory.pool.base_aligned (Nat.dvd_mul_left _ _))

theorem Manages.pageFromPhys (manages : memory.Manages phys) :
    memory.pageFromPhys phys = some phys := by
  obtain ⟨index, bound, rfl⟩ := manages
  have inside : index * pageSize < memory.pool.numPages * pageSize :=
    Nat.mul_lt_mul_of_pos_right bound (by decide)
  have offset : memory.pool.base + index * pageSize - memory.pool.base = index * pageSize := by
    omega
  rw [PhysicalMemory.pageFromPhys, offset, if_neg (by omega), Nat.mul_div_cancel _ (by decide)]

@[simp] theorem pool_freePage (memory : PhysicalMemory) (phys : ℕ) :
    (memory.freePage phys).pool = memory.pool := by
  unfold freePage
  split
  · split
    · rfl
    · dsimp only
      split
      · rfl
      split <;> rfl
  · rfl

/-- Rewriting a record rewrites one count of the ledger. -/
theorem count_setPage (page : Page) :
    (fun other => ((memory.setPage phys page).pageArray other).refCount) =
      Function.update memory.ledger.count phys page.refCount := by
  funext other
  by_cases same : other = phys
  · subst same
    simp [setPage]
  · simp [setPage, ledger, same]

/-! ## Boot -/

theorem runPages_nodup (base count : ℕ) : (runPages base count).Nodup := by
  refine List.Nodup.map ?_ nodup_range
  intro _ _ equal
  have positive : 0 < pageSize := by decide
  exact Nat.eq_of_mul_eq_mul_right positive (Nat.add_left_cancel equal)

theorem manages_of_mem_poolPages (pool : PagePool)
    (same : memory.pool = pool) (mem : phys ∈ poolPages pool) : memory.Manages phys := by
  obtain ⟨index, bound, rfl⟩ := mem_map.mp mem
  exact ⟨index, by rw [same]; exact mem_range.mp bound, by rw [same]⟩

/-- After `init` the manager holds exactly the pages of its own metadata. -/
theorem sound_init (pool : PagePool) : (init pool).Sound (metadataPages pool : Multiset ℕ) := by
  have split : (init pool).freePages ++ metadataPages pool = poolPages pool := take_append_drop _ _
  have distinct : ((init pool).freePages ++ metadataPages pool).Nodup := by
    rw [split]
    exact runPages_nodup pool.base pool.numPages
  obtain ⟨freeDistinct, metadataDistinct, disjoint⟩ := nodup_append.mp distinct
  refine ⟨rfl, ⟨freeDistinct, ?_, ?_⟩, ?_, ?_⟩
  · intro phys free metadata
    exact disjoint phys free phys (Multiset.mem_coe.mp metadata) rfl
  · intro phys
    rw [Multiset.coe_count]
    by_cases metadata : phys ∈ metadataPages pool
    · rw [count_eq_one_of_mem metadataDistinct metadata]
      simp [ledger, init, metadata, allocatedPage]
    · rw [count_eq_zero_of_not_mem metadata]
      simp [ledger, init, metadata, unusedPage]
  · intro phys free
    refine manages_of_mem_poolPages pool rfl ?_
    rw [← split]
    exact mem_append_left _ free
  · intro _ metadata
    refine manages_of_mem_poolPages pool rfl ?_
    rw [← split]
    exact mem_append_right _ (Multiset.mem_coe.mp metadata)

/-! ## Single pages -/

/-- Handing one free page out makes its caller the only holder. -/
theorem Sound.takePage (sound : memory.Sound held) {rest : List ℕ}
    (split : memory.freePages.Perm (phys :: rest)) :
    ({ memory.setPage phys allocatedPage with freePages := rest } : PhysicalMemory).Sound
      (phys ::ₘ held) := by
  have taken : memory.Manages phys := sound.managesFree phys (split.mem_iff.mpr (.head _))
  refine ⟨sound.initialized, ?_, ?_, ?_⟩
  · have accounts := sound.accounts.take split
    rwa [ReferencePool.take, ← show allocatedPage.refCount = 1 from rfl, ← count_setPage]
      at accounts
  · intro other free
    exact sound.managesFree other (split.mem_iff.mpr (.tail _ free))
  · intro other mem
    rcases Multiset.mem_cons.mp mem with same | old
    · subst same
      exact taken
    · exact sound.managesHeld other old

/-- `alloc_page` returns 0 and changes nothing, or hands out a page nobody
refers to. -/
theorem Sound.allocPage (sound : memory.Sound held) :
    ((memory.allocPage).1 = 0 ∧ (memory.allocPage).2 = memory) ∨
      ((memory.allocPage).1 ≠ 0 ∧ (memory.allocPage).1 ∉ held ∧
        (memory.allocPage).2.Sound ((memory.allocPage).1 ::ₘ held)) := by
  rw [PhysicalMemory.allocPage, if_pos sound.initialized]
  cases last : memory.freePages.getLast? with
  | none => exact .inl ⟨rfl, rfl⟩
  | some phys =>
    have split : memory.freePages.Perm (phys :: memory.freePages.dropLast) := by
      have joined := dropLast_append_getLast? phys last
      nth_rewrite 1 [← joined]
      exact perm_append_singleton _ _
    have free : phys ∈ memory.freePages := split.mem_iff.mpr (.head _)
    refine .inr ⟨?_, sound.accounts.freeUnheld phys free, sound.takePage split⟩
    exact (sound.managesFree phys free).pos.ne'

/-- `retain_page` of a held page adds one reference to it. -/
theorem Sound.retainPage (sound : memory.Sound held) (mem : phys ∈ held) :
    (memory.retainPage phys).Sound (phys ::ₘ held) := by
  have manages := sound.managesHeld phys mem
  rw [PhysicalMemory.retainPage, if_pos sound.initialized, manages.pageFromPhys]
  refine ⟨sound.initialized, ?_, sound.managesFree, ?_⟩
  · have accounts := sound.accounts.retain mem
    rw [ledger, count_setPage]
    exact accounts
  · intro other retained
    rcases Multiset.mem_cons.mp retained with same | old
    · subst same
      exact manages
    · exact sound.managesHeld other old

/-- `free_page` of a held reference gives exactly that reference back. -/
theorem Sound.freePage (sound : memory.Sound (phys ::ₘ held)) :
    (memory.freePage phys).Sound held := by
  have mem : phys ∈ phys ::ₘ held := Multiset.mem_cons_self phys held
  have manages := sound.managesHeld phys mem
  have counted : 0 < (memory.pageArray phys).refCount := sound.accounts.count_pos mem
  have managesRest : ∀ other ∈ held, memory.Manages other := by
    intro other old
    exact sound.managesHeld other (Multiset.mem_cons_of_mem old)
  rw [PhysicalMemory.freePage, if_pos sound.initialized, manages.aligned, manages.pageFromPhys]
  dsimp only
  rw [if_neg counted.ne']
  split
  · rename_i shared
    have again : phys ∈ held := by
      by_contra absent
      have one : (memory.pageArray phys).refCount = 1 := sound.accounts.count_eq_one_iff.mpr absent
      omega
    refine ⟨sound.initialized, ?_, sound.managesFree, managesRest⟩
    have accounts := sound.accounts.drop again
    rw [ledger, count_setPage]
    exact accounts
  · rename_i last
    have one : (memory.pageArray phys).refCount = 1 := by omega
    have absent : phys ∉ held := sound.accounts.count_eq_one_iff.mp one
    refine ⟨sound.initialized, ?_, ?_, managesRest⟩
    · have accounts := sound.accounts.giveBack absent
        (perm_append_singleton phys memory.freePages)
      rw [ReferencePool.giveBack, ← show unusedPage.refCount = 0 from rfl, ← count_setPage]
        at accounts
      exact accounts
    · intro other free
      rcases mem_append.mp free with old | new
      · exact sound.managesFree other old
      · rw [mem_singleton.mp new]
        exact manages

/-! ## Contiguous runs -/

theorem runPages_succ (base count : ℕ) :
    runPages base (count + 1) = base :: runPages (base + pageSize) count := by
  rw [runPages, range_succ_eq_map, map_cons, map_map, runPages, Nat.zero_mul, Nat.add_zero]
  refine congrArg _ (map_congr_left ?_)
  intro _ _
  simp only [Function.comp_apply, Nat.succ_eq_add_one, Nat.add_mul]
  omega

/-- The contiguity scan accepts exactly the pages of a run. -/
theorem take_of_contiguousFrom {pages : List ℕ} {expected count : ℕ}
    (accepted : contiguousFrom pages expected count = true) :
    pages.take count = runPages expected count := by
  induction count generalizing pages expected with
  | zero => simp [runPages]
  | succ _ ih =>
    cases pages with
    | nil => simp [contiguousFrom] at accepted
    | cons =>
      rw [contiguousFrom, Bool.and_eq_true, beq_iff_eq] at accepted
      rw [take_succ_cons, runPages_succ, ih accepted.2, accepted.1]

/-- Popping a run makes the caller the only holder of each of its pages. -/
theorem Sound.popReserved {count : ℕ} (sound : memory.Sound held)
    (enough : count ≤ memory.freePages.length) :
    (PhysicalMemory.popReserved count memory).Sound
      ((memory.freePages.take count : Multiset ℕ) + held) := by
  induction count generalizing memory held with
  | zero => simpa [PhysicalMemory.popReserved] using sound
  | succ _ ih =>
    cases free : memory.freePages with
    | nil => simp [free] at enough
    | cons =>
      have taken := sound.takePage (List.Perm.of_eq free)
      have popped := ih taken (by
        rw [free, length_cons] at enough
        exact Nat.le_of_succ_le_succ enough)
      rw [PhysicalMemory.popReserved, free]
      rw [Multiset.add_cons] at popped
      rw [take_succ_cons, ← Multiset.cons_coe, Multiset.cons_add]
      exact popped

/-- `reserve_contiguous_pages` returns 0 and changes nothing, or hands out a run
of pages nobody refers to. -/
theorem Sound.reserveContiguousPages (sound : memory.Sound held) (pageCount : ℕ) :
    ((memory.reserveContiguousPages pageCount).1 = 0 ∧
        (memory.reserveContiguousPages pageCount).2 = memory) ∨
      ((∀ phys ∈ runPages (memory.reserveContiguousPages pageCount).1 pageCount, phys ∉ held) ∧
        (memory.reserveContiguousPages pageCount).2.Sound
          ((runPages (memory.reserveContiguousPages pageCount).1 pageCount : Multiset ℕ) +
            held)) := by
  unfold PhysicalMemory.reserveContiguousPages
  split
  · exact .inl ⟨rfl, rfl⟩
  split
  · exact .inl ⟨rfl, rfl⟩
  rename_i enough
  split
  · exact .inl ⟨rfl, rfl⟩
  split
  · rename_i contiguous
    have run := take_of_contiguousFrom contiguous
    have popped := sound.popReserved (Nat.le_of_not_lt enough)
    rw [run] at popped
    refine .inr ⟨?_, popped⟩
    intro phys mem
    rw [← run] at mem
    exact sound.accounts.freeUnheld phys (mem_of_mem_take mem)
  · exact .inl ⟨rfl, rfl⟩

theorem Sound.releaseRunPage (sound : memory.Sound (phys ::ₘ held)) (last : phys ∉ held) :
    (PhysicalMemory.releaseRunPage memory phys).Sound held := by
  have manages := sound.managesHeld phys (Multiset.mem_cons_self phys held)
  rw [PhysicalMemory.releaseRunPage, manages.pageFromPhys]
  refine ⟨sound.initialized, ?_, ?_, ?_⟩
  · have accounts := sound.accounts.giveBack last (List.Perm.refl _)
    rw [ReferencePool.giveBack, ← show unusedPage.refCount = 0 from rfl, ← count_setPage]
      at accounts
    exact accounts
  · intro other free
    rcases mem_cons.mp free with same | old
    · subst same
      exact manages
    · exact sound.managesFree other old
  · intro other old
    exact sound.managesHeld other (Multiset.mem_cons_of_mem old)

/-- Releasing distinct pages that have no other holder gives them all back. -/
theorem Sound.releaseRun {pages : List ℕ} (sound : memory.Sound ((pages : Multiset ℕ) + held))
    (distinct : pages.Nodup) (last : ∀ phys ∈ pages, phys ∉ held) :
    (pages.foldr (fun phys released => PhysicalMemory.releaseRunPage released phys)
      memory).Sound held := by
  induction pages generalizing held with
  | nil => simpa using sound
  | cons phys _ ih =>
    obtain ⟨notRest, restDistinct⟩ := nodup_cons.mp distinct
    rw [← Multiset.cons_coe, Multiset.cons_add, ← Multiset.add_cons] at sound
    have released := ih sound restDistinct (by
      intro other mem again
      rcases Multiset.mem_cons.mp again with same | old
      · subst same
        exact notRest mem
      · exact last other (.tail _ mem) old)
    exact released.releaseRunPage (last phys (.head _))

/-- `release_contiguous_pages` of a run held once gives the run back. -/
theorem Sound.releaseContiguousPages {base pageCount : ℕ}
    (sound : memory.Sound ((runPages base pageCount : Multiset ℕ) + held))
    (last : ∀ phys ∈ runPages base pageCount, phys ∉ held) :
    (memory.releaseContiguousPages base pageCount).Sound held := by
  have released := sound.releaseRun (runPages_nodup base pageCount) last
  rw [PhysicalMemory.releaseContiguousPages]
  split
  · rename_i skipped
    simp only [sound.initialized, Bool.not_true, Bool.false_or, Bool.or_eq_true,
      beq_iff_eq] at skipped
    cases pageCount with
    | zero => exact released
    | succ =>
      -- A run at address 0 would hold an unmanaged page.
      have manages := sound.managesHeld base (by
        rw [runPages_succ]
        exact Multiset.mem_add.mpr (.inl (Multiset.mem_coe.mpr (.head _))))
      exact absurd manages.pos (by omega)
  · exact released

end RosKernel.Memory.PhysicalMemory
