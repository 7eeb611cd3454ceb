import Mathlib.Algebra.Group.Nat.Defs
import Mathlib.Data.List.Range
import RosKernel.Library.ReferencePool

/-!
# The physical page manager

`mm/physical.cpp`: one metadata record a page of the managed pool, and a doubly
linked free list. Single pages leave at the tail and contiguous runs at the
head, so that the kernel heap finds its growth runway at the low end.

A metadata record is named by the address of the page it describes, which is
what `page_array[index].phys_addr` holds from `init` on. Addresses are natural
numbers.
-/

namespace RosKernel.Memory

def pageSize : ℕ := 4096

/-- `sizeof(Page)` of the page metadata. -/
def pageRecordBytes : ℕ := 32

/-- The board's managed range, with the alignment the board headers give it. -/
structure PagePool where
  /-- `PhysicalPagePoolBase`. -/
  base : ℕ
  /-- Pages of `PhysicalPagePoolSize`. -/
  numPages : ℕ
  /-- A zero base is rejected by `init`. -/
  base_pos : 0 < base
  /-- Both boards place the pool on a page boundary. -/
  base_aligned : pageSize ∣ base
  /-- A pool below one page is rejected by `init`. -/
  numPages_pos : 0 < numPages

/-- The Raspberry Pi 3 pool: from the end of the early heap to the devices. -/
def raspi3Pool : PagePool where
  base := 0x06000000
  numPages := 0x39000
  base_pos := by decide
  base_aligned := by decide
  numPages_pos := by decide

/-- One page metadata record; its links are the order of `freePages`. -/
structure Page where
  refCount : ℕ
  allocated : Bool
  kernelPage : Bool
  deriving DecidableEq

/-- The page manager's static state. -/
structure PhysicalMemory where
  /-- `managed_phys_base` and `num_pages`. -/
  pool : PagePool
  /-- `page_array`, by the address of the described page. -/
  pageArray : ℕ → Page
  /-- `free_pages`, head first. -/
  freePages : List ℕ
  initialized : Bool

namespace PhysicalMemory

/-- `page_from_phys`, returning the address the record was set up with. -/
def pageFromPhys (memory : PhysicalMemory) (phys : ℕ) : Option ℕ :=
  if phys < memory.pool.base ∨ memory.pool.numPages * pageSize ≤ phys - memory.pool.base then
    none
  else
    some (memory.pool.base + (phys - memory.pool.base) / pageSize * pageSize)

/-- Rewrite one metadata record. -/
def setPage (memory : PhysicalMemory) (phys : ℕ) (page : Page) : PhysicalMemory :=
  { memory with pageArray := Function.update memory.pageArray phys page }

/-- The record of a page that was just handed out. -/
def allocatedPage : Page := ⟨1, true, true⟩

/-- The record of a page nobody refers to. -/
def unusedPage : Page := ⟨0, false, false⟩

/-- Pages the metadata array occupies at the end of the pool. -/
def pageArrayPages (pool : PagePool) : ℕ :=
  (pool.numPages * pageRecordBytes + pageSize - 1) / pageSize

/-- Every page address of the pool, in the order `init` links them. -/
def poolPages (pool : PagePool) : List ℕ :=
  (List.range pool.numPages).map fun index => pool.base + index * pageSize

/-- The pages under the metadata array itself. -/
def metadataPages (pool : PagePool) : List ℕ :=
  (poolPages pool).drop (pool.numPages - pageArrayPages pool)

/-- `init`: link every page, then take the metadata array's own pages out. -/
def init (pool : PagePool) : PhysicalMemory where
  pool := pool
  pageArray := fun phys =>
    if phys ∈ metadataPages pool then allocatedPage else unusedPage
  freePages := (poolPages pool).take (pool.numPages - pageArrayPages pool)
  initialized := true

/-- `alloc_page`: the tail of the free list, or 0. -/
def allocPage (memory : PhysicalMemory) : ℕ × PhysicalMemory :=
  if memory.initialized then
    match memory.freePages.getLast? with
    | none => (0, memory)
    | some phys =>
      (phys, { memory.setPage phys allocatedPage with freePages := memory.freePages.dropLast })
  else
    (0, memory)

/-- Whether the first `count` listed pages follow each other from `expected`. -/
def contiguousFrom : List ℕ → ℕ → ℕ → Bool
  | _, _, 0 => true
  | [], _, _ + 1 => false
  | phys :: rest, expected, count + 1 =>
    (phys == expected) && contiguousFrom rest (expected + pageSize) count

/-- The pop loop of `reserve_contiguous_pages`. -/
def popReserved : ℕ → PhysicalMemory → PhysicalMemory
  | 0, memory => memory
  | count + 1, memory =>
    match memory.freePages with
    | [] => memory
    | phys :: rest =>
      popReserved count { memory.setPage phys allocatedPage with freePages := rest }

/-- `reserve_contiguous_pages`: a run at the head of the free list, or 0. -/
def reserveContiguousPages (memory : PhysicalMemory) (pageCount : ℕ) :
    ℕ × PhysicalMemory :=
  if !memory.initialized || pageCount == 0 then
    (0, memory)
  else if memory.freePages.length < pageCount then
    (0, memory)
  else
    match memory.freePages with
    | [] => (0, memory)
    | base :: _ =>
      if contiguousFrom memory.freePages base pageCount then
        (base, popReserved pageCount memory)
      else
        (0, memory)

/-- One turn of the loop in `release_contiguous_pages`. -/
def releaseRunPage (memory : PhysicalMemory) (phys : ℕ) : PhysicalMemory :=
  match memory.pageFromPhys phys with
  | none => memory
  | some page =>
    { memory.setPage page unusedPage with freePages := page :: memory.freePages }

/-- The addresses of a run of pages. -/
def runPages (base : ℕ) (pageCount : ℕ) : List ℕ :=
  (List.range pageCount).map fun offset => base + offset * pageSize

/-- `release_contiguous_pages`: prepend the run, last page first. -/
def releaseContiguousPages (memory : PhysicalMemory) (base : ℕ) (pageCount : ℕ) :
    PhysicalMemory :=
  if !memory.initialized || base == 0 || pageCount == 0 then
    memory
  else
    (runPages base pageCount).foldr (fun phys released => releaseRunPage released phys) memory

/-- The counter has no limit here; see `LinkedMemory.Reachable.refines`. -/
def retainPage (memory : PhysicalMemory) (phys : ℕ) : PhysicalMemory :=
  if memory.initialized then
    match memory.pageFromPhys phys with
    | none => memory
    | some page =>
      memory.setPage page
        { memory.pageArray page with
          allocated := true
          refCount := (memory.pageArray page).refCount + 1 }
  else
    memory

/-- `free_page`: the last reference puts the page at the tail of the free list. -/
def freePage (memory : PhysicalMemory) (phys : ℕ) : PhysicalMemory :=
  if memory.initialized then
    match memory.pageFromPhys (phys / pageSize * pageSize) with
    | none => memory
    | some page =>
      let record := memory.pageArray page
      -- A double free is ignored.
      if record.refCount = 0 then
        memory
      else if 0 < record.refCount - 1 then
        memory.setPage page { record with refCount := record.refCount - 1 }
      else
        { memory.setPage page unusedPage with freePages := memory.freePages ++ [page] }
  else
    memory

def pageRefcount (memory : PhysicalMemory) (phys : ℕ) : ℕ :=
  if memory.initialized then
    match memory.pageFromPhys (phys / pageSize * pageSize) with
    | none => 0
    | some page => (memory.pageArray page).refCount
  else
    0

end PhysicalMemory

end RosKernel.Memory
