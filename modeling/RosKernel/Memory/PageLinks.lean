import RosKernel.Library.LinkedList
import RosKernel.Library.Runs
import RosKernel.Memory.PageAccounts

/-!
# The linked free list of the page manager

`mm/physical.cpp` with the links of its free list written out. The manager of
`RosKernel.Memory.Physical`, whose free list is a list, is what this one refines.
Addresses and page counts have the width of the source, and so have the counters.
-/

namespace RosKernel.Memory

/-- The page manager's static state, with `free_pages` as links between pages. -/
structure LinkedMemory where
  /-- `managed_phys_base` and `num_pages`. -/
  pool : PagePool
  /-- `page_array`, by the address of the described page. -/
  pageArray : ℕ → Page
  /-- `free_pages`, with the links in the page records. -/
  freePages : Links ℕ
  initialized : Bool

namespace LinkedMemory

/-- `page_from_phys`, returning the address the record was set up with. -/
def pageFromPhys (memory : LinkedMemory) (phys : ℕ) : Option ℕ :=
  if phys < memory.pool.base ∨ memory.pool.numPages * pageSize ≤ phys - memory.pool.base then
    none
  else
    some (memory.pool.base + (phys - memory.pool.base) / pageSize * pageSize)

/-- Rewrite one metadata record. -/
def setPage (memory : LinkedMemory) (phys : ℕ) (page : Page) : LinkedMemory :=
  { memory with pageArray := Function.update memory.pageArray phys page }

/-- The loop of `init` over all pages. -/
def linkPages (memory : LinkedMemory) (pages : List ℕ) : LinkedMemory :=
  pages.foldl (fun memory phys =>
    { memory.setPage phys PhysicalMemory.unusedPage with
      freePages := memory.freePages.append phys }) memory

/-- The loop of `init` over the pages of the metadata array. -/
def takeMetadata (memory : LinkedMemory) (pages : List ℕ) : LinkedMemory :=
  pages.foldl (fun memory phys =>
    { memory.setPage phys PhysicalMemory.allocatedPage with
      freePages := memory.freePages.remove phys }) memory

def init (pool : PagePool) : LinkedMemory :=
  let zeroed : LinkedMemory :=
    { pool
      pageArray := fun _ => PhysicalMemory.unusedPage
      freePages := .empty
      initialized := false }
  let linked := zeroed.linkPages (PhysicalMemory.poolPages pool)
  { linked.takeMetadata (PhysicalMemory.metadataPages pool) with initialized := true }

def allocPage (memory : LinkedMemory) : ℕ × LinkedMemory :=
  if memory.initialized then
    match memory.freePages.popTail with
    | (none, _) => (0, memory)
    | (some phys, links) =>
      (phys, { memory.setPage phys PhysicalMemory.allocatedPage with freePages := links })
  else
    (0, memory)

/-- The cursor loop of `reserve_contiguous_pages`. -/
def contiguousFrom (links : Links ℕ) : Option ℕ → ℕ → ℕ → Bool
  | _, _, 0 => true
  | none, _, _ + 1 => false
  | some phys, expected, count + 1 =>
    (phys == expected) && contiguousFrom links (links.next phys) (expected + pageSize) count

/-- The pop loop of `reserve_contiguous_pages`; it reports whether it met the end. -/
def popReserved : ℕ → LinkedMemory → Bool × LinkedMemory
  | 0, memory => (true, memory)
  | count + 1, memory =>
    match memory.freePages.popHead with
    | (none, _) => (false, memory)
    | (some phys, links) =>
      popReserved count { memory.setPage phys PhysicalMemory.allocatedPage with freePages := links }

def reserveContiguousPages (memory : LinkedMemory) (pageCount : UInt32) : ℕ × LinkedMemory :=
  if !memory.initialized || pageCount == 0 then
    (0, memory)
  else if memory.freePages.size < pageCount.toNat then
    (0, memory)
  else
    match memory.freePages.head with
    | none => (0, memory)
    | some base =>
      if contiguousFrom memory.freePages memory.freePages.head base pageCount.toNat then
        match popReserved pageCount.toNat memory with
        | (true, reserved) => (base, reserved)
        | (false, popped) => (0, popped)
      else
        (0, memory)

/-- One turn of the loop in `release_contiguous_pages`. -/
def releaseRunPage (memory : LinkedMemory) (phys : ℕ) : LinkedMemory :=
  match memory.pageFromPhys phys with
  | none => memory
  | some page =>
    { memory.setPage page PhysicalMemory.unusedPage with
      freePages := memory.freePages.prepend page }

/-- The addresses `release_contiguous_pages` computes, in 64 bits. -/
def runAddresses (base : UInt64) (pageCount : UInt32) : List ℕ :=
  (List.range pageCount.toNat).map fun offset => (base.toNat + offset * pageSize) % 2 ^ 64

/-- `release_contiguous_pages`: the last page first. -/
def releaseContiguousPages (memory : LinkedMemory) (base : UInt64) (pageCount : UInt32) :
    LinkedMemory :=
  if !memory.initialized || base == 0 || pageCount == 0 then
    memory
  else
    (runAddresses base pageCount).foldr (fun phys released => releaseRunPage released phys) memory

/-- `retain_page`; the counter has 32 bits. -/
def retainPage (memory : LinkedMemory) (phys : UInt64) : LinkedMemory :=
  if memory.initialized then
    match memory.pageFromPhys phys.toNat with
    | none => memory
    | some page =>
      memory.setPage page
        { memory.pageArray page with
          allocated := true
          refCount := ((memory.pageArray page).refCount + 1) % 2 ^ 32 }
  else
    memory

def freePage (memory : LinkedMemory) (phys : UInt64) : LinkedMemory :=
  if memory.initialized then
    match memory.pageFromPhys (phys.toNat / pageSize * pageSize) with
    | none => memory
    | some page =>
      let record := memory.pageArray page
      if record.refCount = 0 then
        memory
      else if 0 < record.refCount - 1 then
        memory.setPage page { record with refCount := record.refCount - 1 }
      else
        { memory.setPage page PhysicalMemory.unusedPage with
          freePages := memory.freePages.append page }
  else
    memory

/-- The calls of the page manager's clients. -/
inductive Call
  | allocPage
  | freePage (phys : UInt64)
  | reserveContiguousPages (pageCount : UInt32)
  | releaseContiguousPages (base : UInt64) (pageCount : UInt32)
  | retainPage (phys : UInt64)

/-- Perform a call. -/
def perform (memory : LinkedMemory) : Call → LinkedMemory
  | .allocPage => memory.allocPage.2
  | .freePage phys => memory.freePage phys
  | .reserveContiguousPages pageCount => (memory.reserveContiguousPages pageCount).2
  | .releaseContiguousPages base pageCount => memory.releaseContiguousPages base pageCount
  | .retainPage phys => memory.retainPage phys

/-- The states of a pool after calls that all met a condition on the state before. -/
abbrev Reachable (condition : LinkedMemory → Call → Prop) (pool : PagePool) :
    LinkedMemory → Prop :=
  Runs.Reachable (· = init pool) (fun memory call => some (memory.perform call)) condition

/-- The discipline of the clients: only referenced pages are retained, and only runs of
pages with one reference are released. -/
def Disciplined (memory : LinkedMemory) : Call → Prop
  | .retainPage phys => ∀ page, memory.pageFromPhys phys.toNat = some page →
      1 ≤ (memory.pageArray page).refCount
  | .releaseContiguousPages base pageCount => ∀ phys ∈ runAddresses base pageCount, ∀ page,
      memory.pageFromPhys phys = some page → (memory.pageArray page).refCount = 1
  | _ => True

/-- No page is retained whose counter is at its limit. -/
def BelowLimit (memory : LinkedMemory) : Call → Prop
  | .retainPage phys => ∀ page, memory.pageFromPhys phys.toNat = some page →
      (memory.pageArray page).refCount < 2 ^ 32 - 1
  | _ => True

end LinkedMemory

end RosKernel.Memory
