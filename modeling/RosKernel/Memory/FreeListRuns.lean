import RosKernel.Memory.PageLinks

/-!
# The free list over whole runs

The linked page manager simulates the one with a plain list, and the plain one keeps its free
list exact: a managed page is listed once when nobody refers to it, and not at all otherwise.
-/

namespace RosKernel.Memory

open List Function

variable {page : Page}

namespace PhysicalMemory

variable {memory : PhysicalMemory} {phys : ℕ}

/-- The free list holds exactly the managed pages without references, each once. -/
structure Exact (memory : PhysicalMemory) : Prop where
  initialized : memory.initialized = true
  distinct : memory.freePages.Nodup
  managed : ∀ phys ∈ memory.freePages, memory.Manages phys
  free_iff : ∀ phys, memory.Manages phys →
    (phys ∈ memory.freePages ↔ (memory.pageArray phys).refCount = 0)

/-- `page_from_phys` finds managed pages only. -/
theorem manages_of_pageFromPhys {page : ℕ} (found : memory.pageFromPhys phys = some page) :
    memory.Manages page := by
  unfold pageFromPhys at found
  split at found
  · cases found
  · rename_i inside
    cases found
    refine ⟨(phys - memory.pool.base) / pageSize, ?_, rfl⟩
    exact (Nat.div_lt_iff_lt_mul (by decide)).mpr (by omega)

theorem refCount_setPage {other : ℕ} :
    ((memory.setPage phys page).pageArray other).refCount =
      if other = phys then page.refCount else (memory.pageArray other).refCount := by
  simp only [setPage, update_apply]
  split <;> rfl

theorem exact_init (pool : PagePool) : (init pool).Exact := by
  have sound := sound_init pool
  have split : (init pool).freePages ++ metadataPages pool = poolPages pool := take_append_drop _ _
  refine ⟨rfl, sound.accounts.freeDistinct, sound.managesFree, ?_⟩
  rintro _ ⟨index, bound, rfl⟩
  have listed : pool.base + index * pageSize ∈ (init pool).freePages ++ metadataPages pool := by
    rw [split]
    exact mem_map.mpr ⟨index, mem_range.mpr bound, rfl⟩
  have unheld := sound.accounts.freeUnheld (pool.base + index * pageSize)
  have counted : ((init pool).pageArray (pool.base + index * pageSize)).refCount = _ :=
    sound.accounts.counted (pool.base + index * pageSize)
  change pool.base + index * pageSize ∈ (init pool).freePages ↔
    ((init pool).pageArray (pool.base + index * pageSize)).refCount = 0
  rw [counted, Multiset.count_eq_zero]
  constructor
  · exact unheld
  · intro notMetadata
    exact (mem_append.mp listed).resolve_right fun metadata =>
      notMetadata (Multiset.mem_coe.mpr metadata)

section

variable (exact : memory.Exact)
include exact

/-- Handing out a free page keeps the list exact. -/
theorem Exact.takePage {rest : List ℕ} (split : memory.freePages.Perm (phys :: rest)) :
    ({ memory.setPage phys allocatedPage with freePages := rest } : PhysicalMemory).Exact := by
  obtain ⟨fresh, distinct⟩ := nodup_cons.mp (split.nodup_iff.mp exact.distinct)
  refine ⟨exact.initialized, distinct, ?_, ?_⟩
  · intro other listed
    exact exact.managed other (split.mem_iff.mpr (mem_cons_of_mem phys listed))
  · intro other managed
    change other ∈ rest ↔ ((memory.setPage phys allocatedPage).pageArray other).refCount = 0
    rw [refCount_setPage]
    split
    · rename_i same
      simp [same, fresh, allocatedPage]
    · rename_i ne
      rw [← exact.free_iff other managed, split.mem_iff, mem_cons]
      simp [ne]

/-- Listing a page whose last reference went keeps the list exact. -/
theorem Exact.givePage (managed : memory.Manages phys)
    (referenced : (memory.pageArray phys).refCount ≠ 0) {listed : List ℕ}
    (joined : listed.Perm (phys :: memory.freePages)) :
    ({ memory.setPage phys unusedPage with freePages := listed } : PhysicalMemory).Exact := by
  have fresh : phys ∉ memory.freePages := fun free =>
    referenced ((exact.free_iff phys managed).mp free)
  refine ⟨exact.initialized, joined.nodup_iff.mpr (nodup_cons.mpr ⟨fresh, exact.distinct⟩), ?_, ?_⟩
  · intro other mem
    rcases mem_cons.mp (joined.mem_iff.mp mem) with rfl | old
    · exact managed
    · exact exact.managed other old
  · intro other otherManaged
    change other ∈ listed ↔ ((memory.setPage phys unusedPage).pageArray other).refCount = 0
    rw [refCount_setPage, joined.mem_iff, mem_cons]
    split
    · rename_i same
      simp [same, unusedPage]
    · rename_i ne
      rw [← exact.free_iff other otherManaged]
      simp [ne]

/-- Counting a referenced page up or down keeps the list exact. -/
theorem Exact.recount (managed : memory.Manages phys)
    (referenced : (memory.pageArray phys).refCount ≠ 0)
    (positive : page.refCount ≠ 0) : (memory.setPage phys page).Exact := by
  refine ⟨exact.initialized, exact.distinct, exact.managed, ?_⟩
  intro other otherManaged
  rw [refCount_setPage]
  have before := exact.free_iff other otherManaged
  split
  · rename_i same
    subst same
    exact (iff_false_right positive).mpr ((iff_false_right referenced).mp before)
  · exact before

/-- `alloc_page` hands out a page without references. -/
theorem Exact.allocPage :
    memory.allocPage.2.Exact ∧ (memory.allocPage.1 ≠ 0 →
      memory.Manages memory.allocPage.1 ∧ (memory.pageArray memory.allocPage.1).refCount = 0) := by
  rw [PhysicalMemory.allocPage, if_pos exact.initialized]
  cases last : memory.freePages.getLast? with
  | none => exact ⟨exact, fun nonzero => absurd rfl nonzero⟩
  | some phys =>
    have joined := dropLast_append_getLast? phys last
    have split : memory.freePages.Perm (phys :: memory.freePages.dropLast) := by
      nth_rewrite 1 [← joined]
      exact perm_append_singleton _ _
    have free : phys ∈ memory.freePages := split.mem_iff.mpr (.head _)
    have managed := exact.managed phys free
    exact ⟨exact.takePage split, fun _ => ⟨managed, (exact.free_iff phys managed).mp free⟩⟩

theorem Exact.popReserved {count : ℕ} (enough : count ≤ memory.freePages.length) :
    (PhysicalMemory.popReserved count memory).Exact := by
  induction count generalizing memory with
  | zero => exact exact
  | succ _ ih =>
    cases free : memory.freePages with
    | nil => simp [free] at enough
    | cons =>
      rw [PhysicalMemory.popReserved, free]
      refine ih (exact.takePage (List.Perm.of_eq free)) ?_
      rw [free, length_cons] at enough
      exact Nat.le_of_succ_le_succ enough

/-- `reserve_contiguous_pages` hands out pages without references. -/
theorem Exact.reserveContiguousPages (pageCount : ℕ) :
    (memory.reserveContiguousPages pageCount).2.Exact ∧
      ((memory.reserveContiguousPages pageCount).1 ≠ 0 →
        ∀ phys ∈ runPages (memory.reserveContiguousPages pageCount).1 pageCount,
          memory.Manages phys ∧ (memory.pageArray phys).refCount = 0) := by
  unfold PhysicalMemory.reserveContiguousPages
  split
  · exact ⟨exact, fun nonzero => absurd rfl nonzero⟩
  split
  · exact ⟨exact, fun nonzero => absurd rfl nonzero⟩
  rename_i enough
  split
  · exact ⟨exact, fun nonzero => absurd rfl nonzero⟩
  rename_i base rest free
  split
  · rename_i contiguous
    refine ⟨exact.popReserved (Nat.le_of_not_lt enough), fun _ phys mem => ?_⟩
    change phys ∈ runPages base pageCount at mem
    rw [← take_of_contiguousFrom contiguous] at mem
    have listed := mem_of_mem_take mem
    have managed := exact.managed phys listed
    exact ⟨managed, (exact.free_iff phys managed).mp listed⟩
  · exact ⟨exact, fun nonzero => absurd rfl nonzero⟩

/-- `free_page` keeps the list exact. -/
theorem Exact.freePage (phys : ℕ) : (memory.freePage phys).Exact := by
  rw [PhysicalMemory.freePage, if_pos exact.initialized]
  split
  · exact exact
  · rename_i page found
    have managed := manages_of_pageFromPhys found
    dsimp only
    split
    · exact exact
    rename_i referenced
    split
    · rename_i shared
      exact exact.recount managed referenced (Nat.pos_iff_ne_zero.mp shared)
    · exact exact.givePage managed referenced (perm_append_singleton page _)

/-- `retain_page` of a referenced page keeps the list exact. -/
theorem Exact.retainPage (referenced : ∀ page, memory.pageFromPhys phys = some page →
      1 ≤ (memory.pageArray page).refCount) :
    (memory.retainPage phys).Exact := by
  rw [PhysicalMemory.retainPage, if_pos exact.initialized]
  split
  · exact exact
  · rename_i page found
    exact exact.recount (manages_of_pageFromPhys found)
      (Nat.one_le_iff_ne_zero.mp (referenced page found)) (Nat.succ_ne_zero _)

end

@[simp]
theorem pageFromPhys_releaseRunPage (other : ℕ) :
    (releaseRunPage memory phys).pageFromPhys other = memory.pageFromPhys other := by
  unfold releaseRunPage
  split <;> rfl

/-- Releasing pages that are referenced and not the same keeps the list exact. -/
theorem Exact.releasePages {addresses : List ℕ} (exact : memory.Exact)
    (apart : addresses.Pairwise fun left right => ∀ page,
      memory.pageFromPhys left = some page → memory.pageFromPhys right ≠ some page)
    (referenced : ∀ phys ∈ addresses, ∀ page, memory.pageFromPhys phys = some page →
      (memory.pageArray page).refCount ≠ 0) :
    (addresses.foldr (fun phys released => releaseRunPage released phys) memory).Exact ∧
      (∀ other, (addresses.foldr (fun phys released => releaseRunPage released phys)
        memory).pageFromPhys other = memory.pageFromPhys other) ∧
      ∀ page, (∀ phys ∈ addresses, memory.pageFromPhys phys ≠ some page) →
        ((addresses.foldr (fun phys released => releaseRunPage released phys)
          memory).pageArray page) = memory.pageArray page := by
  induction addresses with
  | nil => exact ⟨exact, fun _ => rfl, fun _ _ => rfl⟩
  | cons phys rest ih =>
    obtain ⟨others, apart⟩ := pairwise_cons.mp apart
    obtain ⟨restExact, sameFind, untouched⟩ := ih apart
      fun other mem => referenced other (mem_cons_of_mem phys mem)
    rw [foldr_cons]
    cases found : memory.pageFromPhys phys with
    | none =>
      have skipped : releaseRunPage (rest.foldr
          (fun phys released => releaseRunPage released phys) memory) phys =
          rest.foldr (fun phys released => releaseRunPage released phys) memory := by
        rw [releaseRunPage, sameFind, found]
      rw [skipped]
      exact ⟨restExact, sameFind, fun page notListed =>
        untouched page fun other mem => notListed other (mem_cons_of_mem phys mem)⟩
    | some page =>
      have foundLater := (sameFind phys).trans found
      have kept := untouched page fun other mem same =>
        others other mem page found same
      refine ⟨?_, fun other => ?_, fun otherPage notListed => ?_⟩
      · rw [releaseRunPage, foundLater]
        refine restExact.givePage (manages_of_pageFromPhys foundLater) ?_ (List.Perm.refl _)
        rw [kept]
        exact referenced phys (.head _) page found
      · rw [pageFromPhys_releaseRunPage, sameFind]
      · have ne : otherPage ≠ page := fun same =>
          notListed phys (.head _) (same ▸ found)
        rw [releaseRunPage, foundLater, ← untouched otherPage fun other mem =>
          notListed other (mem_cons_of_mem phys mem)]
        exact update_of_ne ne _ _

end PhysicalMemory

namespace LinkedMemory

open PhysicalMemory

variable {memory : LinkedMemory} {plain : PhysicalMemory}

/-- The linked manager stands for a manager with a plain free list. -/
structure Refines (memory : LinkedMemory) (plain : PhysicalMemory) : Prop where
  pool : memory.pool = plain.pool
  pageArray : memory.pageArray = plain.pageArray
  freePages : memory.freePages.Represents plain.freePages
  initialized : memory.initialized = plain.initialized

theorem Refines.pageFromPhys (refines : memory.Refines plain) (phys : ℕ) :
    memory.pageFromPhys phys = plain.pageFromPhys phys := by
  unfold LinkedMemory.pageFromPhys PhysicalMemory.pageFromPhys
  rw [refines.pool]

variable {nodes : List ℕ}

/-- Both managers rewrite a record and relink a page. -/
theorem Refines.update (refines : memory.Refines plain) {phys : ℕ}
    {links : Links ℕ} (represents : links.Represents nodes) :
    ({ memory.setPage phys page with freePages := links } : LinkedMemory).Refines
      { plain.setPage phys page with freePages := nodes } :=
  ⟨refines.pool, by simp [setPage, PhysicalMemory.setPage, refines.pageArray], represents,
    refines.initialized⟩

theorem Refines.allocPage (refines : memory.Refines plain) :
    memory.allocPage.1 = plain.allocPage.1 ∧ memory.allocPage.2.Refines plain.allocPage.2 := by
  unfold LinkedMemory.allocPage PhysicalMemory.allocPage
  rw [refines.initialized]
  split
  · rcases eq_nil_or_concat plain.freePages with empty | ⟨front, last, split⟩
    · have none : memory.freePages.popTail = (none, memory.freePages) := by
        have ends : memory.freePages.tail = none := by simpa [empty] using refines.freePages.tail
        simp [Links.popTail, ends]
      rw [none, empty]
      exact ⟨rfl, refines⟩
    · rw [concat_eq_append] at split
      obtain ⟨popped, rest⟩ := Links.Represents.popTail (split ▸ refines.freePages)
      rcases result : memory.freePages.popTail with ⟨phys, _⟩
      rw [result] at popped rest
      obtain rfl : phys = some last := popped
      have listed : plain.freePages.getLast? = some last := by simp [split]
      have shortened : plain.freePages.dropLast = front := by simp [split]
      rw [listed, shortened]
      exact ⟨rfl, refines.update rest⟩
  · exact ⟨rfl, refines⟩

/-- The cursor loop reads the list off the links. -/
theorem contiguousFrom_eq {links : Links ℕ} {front : List ℕ}
    (represents : links.Represents (front ++ nodes)) (expected count : ℕ) :
    contiguousFrom links nodes.head? expected count =
      PhysicalMemory.contiguousFrom nodes expected count := by
  induction count generalizing front nodes expected with
  | zero => simp [contiguousFrom, PhysicalMemory.contiguousFrom]
  | succ _ ih =>
    cases nodes with
    | nil => rfl
    | cons phys rest =>
      have following := represents.neighbours.2
      have shifted : links.Represents (front ++ [phys] ++ rest) := by
        rwa [append_assoc, singleton_append]
      rw [List.head?_cons, contiguousFrom, PhysicalMemory.contiguousFrom, following, ih shifted]

theorem Refines.popReserved (count : ℕ) {memory : LinkedMemory} {plain : PhysicalMemory}
    (refines : memory.Refines plain) (enough : count ≤ plain.freePages.length) :
    (LinkedMemory.popReserved count memory).1 = true ∧
      (LinkedMemory.popReserved count memory).2.Refines
        (PhysicalMemory.popReserved count plain) := by
  induction count generalizing memory plain with
  | zero => exact ⟨rfl, refines⟩
  | succ _ ih =>
    cases free : plain.freePages with
    | nil => simp [free] at enough
    | cons phys =>
      obtain ⟨popped, remaining⟩ := Links.Represents.popHead (free ▸ refines.freePages)
      rcases result : memory.freePages.popHead with ⟨found, _⟩
      rw [result] at popped remaining
      obtain rfl : found = some phys := popped
      rw [LinkedMemory.popReserved, PhysicalMemory.popReserved, result, free]
      refine ih (refines.update remaining) ?_
      rw [free, length_cons] at enough
      exact Nat.le_of_succ_le_succ enough

section

variable (refines : memory.Refines plain)
include refines

theorem Refines.reserveContiguousPages (pageCount : UInt32) :
    (memory.reserveContiguousPages pageCount).1 = (plain.reserveContiguousPages pageCount.toNat).1 ∧
      (memory.reserveContiguousPages pageCount).2.Refines
        (plain.reserveContiguousPages pageCount.toNat).2 := by
  have sameZero : (pageCount == 0) = (pageCount.toNat == 0) := by
    rw [Bool.eq_iff_iff, beq_iff_eq, beq_iff_eq, ← UInt32.toNat_inj]
    rfl
  unfold LinkedMemory.reserveContiguousPages PhysicalMemory.reserveContiguousPages
  rw [refines.initialized, sameZero, refines.freePages.size, refines.freePages.head]
  split
  · exact ⟨rfl, refines⟩
  split
  · exact ⟨rfl, refines⟩
  rename_i enough
  cases free : plain.freePages with
  | nil => exact ⟨rfl, refines⟩
  | cons base =>
    have scanned := contiguousFrom_eq
      (show memory.freePages.Represents ([] ++ plain.freePages) from refines.freePages)
      base pageCount.toNat
    rw [free, List.head?_cons] at scanned
    simp only [List.head?_cons, scanned]
    split
    · obtain ⟨complete, popped⟩ := Refines.popReserved pageCount.toNat refines
        (Nat.le_of_not_lt enough)
      rcases result : LinkedMemory.popReserved pageCount.toNat memory with ⟨ended, _⟩
      rw [result] at complete popped
      obtain rfl : ended = true := complete
      exact ⟨rfl, popped⟩
    · exact ⟨rfl, refines⟩

/-- The simulations whose runs relink one page need it to be off the list. -/
theorem Refines.releaseRunPage (exact : plain.Exact) {phys : ℕ}
    (referenced : ∀ page, plain.pageFromPhys phys = some page →
      (plain.pageArray page).refCount ≠ 0) :
    (memory.releaseRunPage phys).Refines (plain.releaseRunPage phys) := by
  unfold LinkedMemory.releaseRunPage PhysicalMemory.releaseRunPage
  rw [refines.pageFromPhys]
  cases found : plain.pageFromPhys phys with
  | none => exact refines
  | some page =>
    have fresh : page ∉ plain.freePages := fun free => referenced page found
      ((exact.free_iff page (manages_of_pageFromPhys found)).mp free)
    exact refines.update (refines.freePages.prepend fresh)

theorem Refines.releasePages {addresses : List ℕ} (exact : plain.Exact)
    (apart : addresses.Pairwise fun left right => ∀ page,
      plain.pageFromPhys left = some page → plain.pageFromPhys right ≠ some page)
    (referenced : ∀ phys ∈ addresses, ∀ page, plain.pageFromPhys phys = some page →
      (plain.pageArray page).refCount ≠ 0) :
    (addresses.foldr (fun phys released => LinkedMemory.releaseRunPage released phys)
      memory).Refines
      (addresses.foldr (fun phys released => PhysicalMemory.releaseRunPage released phys)
        plain) := by
  induction addresses with
  | nil => exact refines
  | cons phys rest ih =>
    obtain ⟨others, apart⟩ := pairwise_cons.mp apart
    have restReferenced : ∀ other ∈ rest, ∀ page, plain.pageFromPhys other = some page →
        (plain.pageArray page).refCount ≠ 0 :=
      fun other mem => referenced other (mem_cons_of_mem phys mem)
    obtain ⟨restExact, sameFind, untouched⟩ := exact.releasePages apart restReferenced
    refine Refines.releaseRunPage (ih apart restReferenced) restExact ?_
    intro page found
    rw [sameFind] at found
    rw [untouched page fun other mem same => others other mem page found same]
    exact referenced phys (.head _) page found

theorem Refines.freePage (exact : plain.Exact)
    (phys : UInt64) : (memory.freePage phys).Refines (plain.freePage phys.toNat) := by
  unfold LinkedMemory.freePage PhysicalMemory.freePage
  rw [refines.initialized, refines.pageFromPhys, refines.pageArray]
  split
  · cases found : plain.pageFromPhys (phys.toNat / pageSize * pageSize) with
    | none => exact refines
    | some page =>
      dsimp only
      split
      · exact refines
      rename_i referenced
      split
      · exact refines.update refines.freePages
      · have fresh : page ∉ plain.freePages := fun free => referenced
          ((exact.free_iff page (manages_of_pageFromPhys found)).mp free)
        exact refines.update (refines.freePages.append fresh)
  · exact refines

theorem Refines.retainPage {phys : UInt64}
    (below : ∀ page, plain.pageFromPhys phys.toNat = some page →
      (plain.pageArray page).refCount < 2 ^ 32 - 1) :
    (memory.retainPage phys).Refines (plain.retainPage phys.toNat) := by
  unfold LinkedMemory.retainPage PhysicalMemory.retainPage
  rw [refines.initialized, refines.pageFromPhys, refines.pageArray]
  split
  · cases found : plain.pageFromPhys phys.toNat with
    | none => exact refines
    | some page =>
      have small := below page found
      dsimp only
      rw [Nat.mod_eq_of_lt (by omega)]
      exact refines.update refines.freePages
  · exact refines

end

/-- The first loop of `init` links the pages in order. -/
theorem linkPages_spec {pages : List ℕ} (memory : LinkedMemory)
    (unused : ∀ phys, memory.pageArray phys = unusedPage)
    (represents : memory.freePages.Represents nodes) (distinct : (nodes ++ pages).Nodup) :
    (memory.linkPages pages).pool = memory.pool ∧
      (∀ phys, (memory.linkPages pages).pageArray phys = unusedPage) ∧
      (memory.linkPages pages).freePages.Represents (nodes ++ pages) := by
  induction pages generalizing memory nodes with
  | nil => exact ⟨rfl, unused, by simpa [linkPages] using represents⟩
  | cons phys rest ih =>
    have fresh : phys ∉ nodes := fun mem =>
      (nodup_append.mp distinct).2.2 phys mem phys (by simp) rfl
    have shifted : nodes ++ phys :: rest = nodes ++ [phys] ++ rest := by simp
    rw [shifted] at distinct ⊢
    refine ih _ (fun other => ?_) (represents.append fresh) distinct
    simp only [setPage, update_apply]
    split
    · rfl
    · exact unused other

/-- The second loop of `init` takes the pages at the end out again. -/
theorem takeMetadata_spec {pages : List ℕ} (memory : LinkedMemory)
    (represents : memory.freePages.Represents (nodes ++ pages)) :
    (memory.takeMetadata pages).pool = memory.pool ∧
      (∀ phys, (memory.takeMetadata pages).pageArray phys =
        if phys ∈ pages then allocatedPage else memory.pageArray phys) ∧
      (memory.takeMetadata pages).freePages.Represents nodes := by
  induction pages generalizing memory with
  | nil => exact ⟨rfl, fun _ => by simp [takeMetadata], by simpa [takeMetadata] using represents⟩
  | cons phys _ ih =>
    obtain ⟨samePool, marked, represented⟩ := ih
      { memory.setPage phys allocatedPage with
        freePages := memory.freePages.remove phys } represents.remove
    refine ⟨samePool, fun other => ?_, represented⟩
    refine (marked other).trans ?_
    by_cases same : other = phys
    · simp [same, setPage]
    · simp [same, setPage]

theorem refines_init (pool : PagePool) : (init pool).Refines (PhysicalMemory.init pool) := by
  have pages : (PhysicalMemory.init pool).freePages ++ PhysicalMemory.metadataPages pool =
      poolPages pool := take_append_drop _ _
  obtain ⟨linkedPool, unused, linked⟩ := linkPages_spec
    { pool, pageArray := fun _ => unusedPage
      freePages := .empty, initialized := false }
    (fun _ => rfl) Links.represents_empty
    (by rw [nil_append]; exact runPages_nodup pool.base pool.numPages)
  obtain ⟨takenPool, marked, represented⟩ := takeMetadata_spec _ (by rw [pages]; exact linked)
  refine ⟨takenPool.trans linkedPool, funext fun phys => ?_, represented, rfl⟩
  refine (marked phys).trans ?_
  rw [unused]
  rfl

/-- The address belongs to a page of the managed pool. -/
def Manages (memory : LinkedMemory) (phys : ℕ) : Prop :=
  ∃ index < memory.pool.numPages, phys = memory.pool.base + index * pageSize

theorem Refines.manages_iff (refines : memory.Refines plain) (phys : ℕ) :
    memory.Manages phys ↔ plain.Manages phys := by
  unfold LinkedMemory.Manages PhysicalMemory.Manages
  rw [refines.pool]

/-- Addresses of one page lie in the same block of the address space. -/
theorem div_pageSize_eq {left right page : ℕ} (leftFound : plain.pageFromPhys left = some page)
    (rightFound : plain.pageFromPhys right = some page) : left / pageSize = right / pageSize := by
  obtain ⟨_, _⟩ := plain.pool.base_aligned
  unfold PhysicalMemory.pageFromPhys at leftFound rightFound
  split at leftFound
  · cases leftFound
  split at rightFound
  · cases rightFound
  rw [Option.some.injEq] at leftFound rightFound
  simp only [pageSize] at *
  omega

/-- The addresses of a run belong to different pages. -/
theorem runAddresses_apart (plain : PhysicalMemory) (base : UInt64) (pageCount : UInt32) :
    (runAddresses base pageCount).Pairwise fun left right => ∀ page,
      plain.pageFromPhys left = some page → plain.pageFromPhys right ≠ some page := by
  rw [runAddresses, pairwise_map]
  refine List.Pairwise.imp_of_mem ?_ pairwise_lt_range
  intro _ right _ rightInRun _ _ leftFound rightFound
  have bound : right < 2 ^ 32 :=
    (mem_range.mp rightInRun).trans_le (Nat.le_of_lt pageCount.toNat_lt)
  have sameBlock := div_pageSize_eq leftFound rightFound
  simp only [pageSize] at sameBlock
  omega

/-- One disciplined call below the counter's limit keeps the simulation. -/
theorem Refines.perform (refines : memory.Refines plain) (exact : plain.Exact) {call : Call}
    (disciplined : memory.Disciplined call) (below : memory.BelowLimit call) :
    ∃ after : PhysicalMemory, (memory.perform call).Refines after ∧ after.Exact := by
  cases call with
  | allocPage => exact ⟨_, refines.allocPage.2, exact.allocPage.1⟩
  | freePage phys => exact ⟨_, refines.freePage exact phys, exact.freePage phys.toNat⟩
  | reserveContiguousPages pageCount =>
    exact ⟨_, (refines.reserveContiguousPages pageCount).2,
      (exact.reserveContiguousPages pageCount.toNat).1⟩
  | releaseContiguousPages base pageCount =>
    have referenced : ∀ phys ∈ runAddresses base pageCount, ∀ page,
        plain.pageFromPhys phys = some page → (plain.pageArray page).refCount ≠ 0 := by
      intro phys mem page found
      have one := disciplined phys mem page ((refines.pageFromPhys phys).trans found)
      rw [← refines.pageArray, one]
      exact Nat.one_ne_zero
    have apart := runAddresses_apart plain base pageCount
    change ∃ after, (memory.releaseContiguousPages base pageCount).Refines after ∧ _
    unfold LinkedMemory.releaseContiguousPages
    split
    · exact ⟨plain, refines, exact⟩
    · exact ⟨_, refines.releasePages exact apart referenced,
        (exact.releasePages apart referenced).1⟩
  | retainPage phys =>
    have counted : ∀ page, plain.pageFromPhys phys.toNat = some page →
        1 ≤ (plain.pageArray page).refCount ∧ (plain.pageArray page).refCount < 2 ^ 32 - 1 := by
      intro page found
      rw [← refines.pageFromPhys] at found
      rw [← refines.pageArray]
      exact ⟨disciplined page found, below page found⟩
    exact ⟨_, refines.retainPage fun page found => (counted page found).2,
      exact.retainPage fun page found => (counted page found).1⟩

/-- A disciplined call that keeps the counters below their limit. -/
def Accountable (memory : LinkedMemory) (call : Call) : Prop :=
  memory.Disciplined call ∧ memory.BelowLimit call

/-- Below the limit of the counters the linked manager refines the plain one. -/
theorem Reachable.refines {pool : PagePool} (reachable : Reachable Accountable pool memory) :
    ∃ plain : PhysicalMemory, memory.Refines plain ∧ plain.Exact := by
  induction reachable with
  | start isInit => exact isInit ▸ ⟨_, refines_init pool, exact_init pool⟩
  | step _ _ meets stepped ih =>
    cases stepped
    obtain ⟨_, refines, exact⟩ := ih
    exact refines.perform exact meets.1 meets.2

/-- In every run of disciplined calls that keep the counters below their limit, the links
stand for a list that holds each managed page without references once and no other page, and
no page that is handed out is still referenced. -/
theorem freeList_exact {pool : PagePool} (reachable : Reachable Accountable pool memory) :
    ∃ nodes, memory.freePages.Represents nodes ∧ (∀ phys ∈ nodes, memory.Manages phys) ∧
      (∀ phys, memory.Manages phys →
        nodes.count phys = if (memory.pageArray phys).refCount = 0 then 1 else 0) ∧
      (memory.allocPage.1 ≠ 0 → (memory.pageArray memory.allocPage.1).refCount = 0) ∧
      ∀ pageCount, (memory.reserveContiguousPages pageCount).1 ≠ 0 →
        ∀ phys ∈ runPages (memory.reserveContiguousPages pageCount).1
          pageCount.toNat, (memory.pageArray phys).refCount = 0 := by
  obtain ⟨plain, refines, exact⟩ := reachable.refines
  refine ⟨plain.freePages, refines.freePages, ?_, ?_, ?_, ?_⟩
  · intro phys free
    exact (refines.manages_iff phys).mpr (exact.managed phys free)
  · intro phys managed
    have listed := exact.free_iff phys ((refines.manages_iff phys).mp managed)
    rw [refines.pageArray]
    split
    · rename_i unreferenced
      exact count_eq_one_of_mem exact.distinct (listed.mpr unreferenced)
    · rename_i referenced
      exact count_eq_zero_of_not_mem (listed.not.mpr referenced)
  · intro nonzero
    rw [refines.allocPage.1] at nonzero ⊢
    rw [refines.pageArray]
    exact (exact.allocPage.2 nonzero).2
  · intro pageCount nonzero phys member
    rw [(refines.reserveContiguousPages pageCount).1] at nonzero member
    rw [refines.pageArray]
    exact ((exact.reserveContiguousPages pageCount.toNat).2 nonzero phys member).2

/-- Retaining a page over and over counts its references modulo the counter's width. -/
theorem Reachable.retained {pool : PagePool} {phys : UInt64} {references : ℕ}
    (reachable : Reachable Disciplined pool memory) (initialized : memory.initialized = true)
    (found : memory.pageFromPhys phys.toNat = some phys.toNat)
    (one : (memory.pageArray phys.toNat).refCount = 1) (bound : references < 2 ^ 32) :
    ∃ after : LinkedMemory, Reachable Disciplined pool after ∧ after.initialized = true ∧
      after.pool = memory.pool ∧ after.freePages = memory.freePages ∧
      (after.pageArray phys.toNat).refCount = (1 + references) % 2 ^ 32 := by
  induction references with
  | zero => exact ⟨memory, reachable, initialized, rfl, rfl, one⟩
  | succ _ ih =>
    obtain ⟨earlier, earlierReachable, running, samePool, sameList, count⟩ := ih (by omega)
    have foundEarlier : earlier.pageFromPhys phys.toNat = some phys.toNat := by
      rw [← found]
      unfold LinkedMemory.pageFromPhys
      rw [samePool]
    have disciplined : earlier.Disciplined (.retainPage phys) := by
      intro _ foundPage
      cases foundEarlier.symm.trans foundPage
      omega
    have retained : earlier.perform (.retainPage phys) = earlier.setPage phys.toNat
          { earlier.pageArray phys.toNat with
            allocated := true
            refCount := ((earlier.pageArray phys.toNat).refCount + 1) % 2 ^ 32 } := by
      rw [perform, LinkedMemory.retainPage, if_pos running, foundEarlier]
    refine ⟨_, .step earlierReachable _ disciplined rfl, ?_⟩
    rw [retained]
    refine ⟨running, samePool, sameList, ?_⟩
    simp only [setPage, update_self, count]
    omega

/-- A manager with free pages hands one out, which then has one reference and is not listed. -/
theorem Refines.allocated (refines : memory.Refines plain) (exact : plain.Exact)
    (nonempty : plain.freePages ≠ []) :
    ∃ phys, (memory.perform .allocPage).initialized = true ∧
      (memory.perform .allocPage).pool = plain.pool ∧ plain.Manages phys ∧
      (memory.perform .allocPage).pageFromPhys phys = some phys ∧
      ((memory.perform .allocPage).pageArray phys).refCount = 1 ∧
      ∀ nodes, (memory.perform .allocPage).freePages.Represents nodes → phys ∉ nodes := by
  obtain ⟨phys, last⟩ := Option.ne_none_iff_exists'.mp (List.getLast?_eq_none_iff.not.mpr nonempty)
  have managed : plain.Manages phys := exact.managed phys (mem_of_mem_getLast? last)
  obtain ⟨-, allocated⟩ := refines.allocPage
  have allocatedExact := exact.allocPage.1
  have handedOut : plain.allocPage.2 = { plain.setPage phys allocatedPage with
        freePages := plain.freePages.dropLast } := by
    rw [PhysicalMemory.allocPage, if_pos exact.initialized, last]
  have one : (plain.allocPage.2.pageArray phys).refCount = 1 := by
    rw [handedOut]
    simp [PhysicalMemory.setPage, allocatedPage]
  have managedLater : plain.allocPage.2.Manages phys := by
    rw [handedOut]
    exact managed
  refine ⟨phys, allocated.initialized.trans allocatedExact.initialized,
    allocated.pool.trans (by rw [handedOut]; rfl), managed,
    (allocated.pageFromPhys phys).trans managedLater.pageFromPhys,
    (congrArg Page.refCount (congrFun allocated.pageArray phys)).trans one, ?_⟩
  intro _ represents listed
  rw [represents.unique allocated.freePages, allocatedExact.free_iff phys managedLater, one]
    at listed
  exact absurd listed Nat.one_ne_zero

/-- A page that was retained until its counter came round to 0 is referenced, but counted as
free, and not on the list. -/
theorem freeList_countWrapped :
    ∃ (memory : LinkedMemory) (phys : ℕ), Reachable Disciplined raspi3Pool memory ∧
      memory.Manages phys ∧ (memory.pageArray phys).refCount = 0 ∧
      ∀ nodes, memory.freePages.Represents nodes → phys ∉ nodes := by
  have nonempty : (PhysicalMemory.init raspi3Pool).freePages ≠ [] := by
    refine ne_nil_of_length_pos ?_
    simp only [PhysicalMemory.init, length_take, poolPages, length_map, length_range]
    decide
  obtain ⟨phys, initialized, pool, managed, found, one, unlisted⟩ :=
    (refines_init raspi3Pool).allocated (exact_init raspi3Pool) nonempty
  have width : (UInt64.ofNat phys).toNat = phys := by
    obtain ⟨index, bound, rfl⟩ := managed
    change index < 0x39000 at bound
    change (0x06000000 + index * 4096) % 2 ^ 64 = 0x06000000 + index * 4096
    omega
  rw [← width] at found one
  have reachable : Reachable Disciplined raspi3Pool ((init raspi3Pool).perform .allocPage) :=
    .step (.start rfl) .allocPage trivial rfl
  have bound : 2 ^ 32 - 1 < 2 ^ 32 := by omega
  obtain ⟨memory, retained, -, samePool, sameList, count⟩ :=
    reachable.retained initialized found one bound
  rw [width] at count
  refine ⟨memory, phys, retained, ?_, count, ?_⟩
  · unfold LinkedMemory.Manages
    rw [samePool, pool]
    exact managed
  · rw [sameList]
    exact unlisted

/-- A pool of four pages, of which one holds the metadata. -/
def fourPages : PagePool where
  base := 0x1000
  numPages := 4
  base_pos := by decide
  base_aligned := by decide
  numPages_pos := by decide

/-- A page is handed out and retained, a run is reserved and released, and the page loses one
of its references: it stays off the list, and the run is back on it. -/
theorem freeList_exact_fourPages :
    ∃ memory nodes, Reachable Accountable fourPages memory ∧
      memory.freePages.Represents nodes ∧ nodes.count 0x1000 = 1 ∧ nodes.count 0x3000 = 0 := by
  have start : Reachable Accountable fourPages _ := .start rfl
  have allocated := start.step .allocPage ⟨trivial, trivial⟩ rfl
  have retained := allocated.step (.retainPage 0x3000)
    ⟨show ∀ page ∈ LinkedMemory.pageFromPhys _ _, _ from by decide +kernel,
      show ∀ page ∈ LinkedMemory.pageFromPhys _ _, _ from by decide +kernel⟩ rfl
  have reserved := retained.step (.reserveContiguousPages 2) ⟨trivial, trivial⟩ rfl
  have released := reserved.step (.releaseContiguousPages 0x1000 2)
    ⟨show ∀ phys ∈ runAddresses _ _, ∀ page ∈ LinkedMemory.pageFromPhys _ _, _
      from by decide +kernel, trivial⟩ rfl
  have dropped := released.step (.freePage 0x3000) ⟨trivial, trivial⟩ rfl
  obtain ⟨nodes, represents, -, exact, -⟩ := freeList_exact dropped
  refine ⟨_, nodes, dropped, represents, ?_, ?_⟩
  · exact (exact 0x1000 ⟨0, by decide, rfl⟩).trans (by decide +kernel)
  · exact (exact 0x3000 ⟨2, by decide, rfl⟩).trans (by decide +kernel)

end LinkedMemory

end RosKernel.Memory
