import RosKernel.Library.Spans
import RosKernel.Memory.FileMapping

/-!
# Raw user heap

`user_heap.cpp`: blocks that `alloc_raw` places in the upper half of a process's heap
window, and the pages that a fault or a kernel copy populates there one by one. All
processes share one address-sorted list of blocks and one list of page records. The
lower half of the window belongs to the allocator inside the process, so any page of it
may be populated.

Addresses and sizes are 64-bit and wrap where the source adds without a check.
-/

namespace RosKernel.Memory

/-- `user_address_space::HeapBase`. -/
def userHeapBase : ℕ := 256 * l2BlockSize

/-- `user_address_space::HeapLimit`. -/
def userHeapLimit : ℕ := tableEntries * l2BlockSize

/-- `user_address_space::HeapReservedBytes`. -/
def userHeapReservedBytes : ℕ := userHeapLimit - userHeapBase

def heapCompatBase : ℕ := userHeapBase + userHeapReservedBytes / 2

def userHeapAlignment : ℕ := 16

/-- `UserHeapAllocation`. -/
structure HeapAllocation where
  record : Slot
  /-- `owner_process`. -/
  process : ℕ
  userBase : ℕ
  size : ℕ
  /-- What the caller asked for; the source does not keep it. -/
  requested : ℕ
  deriving DecidableEq

/-- `UserHeapMappedPage`. -/
structure HeapPage where
  record : Slot
  process : ℕ
  userPageBase : ℕ
  physicalBase : ℕ
  deriving DecidableEq

/-- The fields of a process that describe its heap window. -/
structure HeapWindow where
  /-- `user_heap_base`. -/
  base : ℕ
  reservedBytes : ℕ
  deriving DecidableEq

/-- The user heap together with the memory it works on. -/
structure UserHeap where
  machine : Machine
  windows : ℕ → HeapWindow
  allocationPool : RecordPool
  /-- `g_user_heap_page_pool`. -/
  pageRecordPool : RecordPool
  /-- `g_user_heap_allocation_head` and its successors. -/
  allocations : List HeapAllocation
  /-- `g_user_heap_page_head` and its successors. -/
  pages : List HeapPage

namespace UserHeap

open KernelHeap (wrap)

/-- `align_up_size` and `align_up_address`. -/
def alignUpSize (value : ℕ) : ℕ :=
  wrap (value + (userHeapAlignment - 1)) / userHeapAlignment * userHeapAlignment

def alignUpPage (value : ℕ) : ℕ :=
  wrap (value + (pageSize - 1)) / pageSize * pageSize

/-- `value & ~(PageSize - 1)`. -/
def pageBaseOf (address : ℕ) : ℕ := address / pageSize * pageSize

/-- The loop `for (page_base = base; page_base < limit; page_base += PageSize)` between
page boundaries. -/
def pageBases (base limit : ℕ) : List ℕ :=
  (List.range ((limit - base) / pageSize)).map fun index => base + index * pageSize

/-! ## Records -/

/-- `user_heap_record_pool_free`: the slot is pushed before the header is looked at, and
retiring the page keeps the order of the free list. -/
def recordPoolFree (pool : RecordPool) (machine : Machine) (slot : Slot) :
    RecordPool × Machine :=
  let pushed : RecordPool := { pool with freeList := slot :: pool.freeList }
  match pool.headerOf slot with
  | none => (pushed, machine)
  | some header =>
    if header.liveSlots = 0 then
      (pushed, machine)
    else
      let returned := pushed.setLive slot.page (· - 1)
      if header.liveSlots - 1 ≠ 0 then
        (returned, machine)
      else
        ({ returned with
            freeList := returned.freeList.filter fun other => other.page ≠ slot.page
            pages := returned.pages.filter fun other => other.pagePhys ≠ slot.page },
          machine.freePage header.pagePhys)

/-- `allocate_user_heap_allocation_record` and `allocate_user_heap_page_record`: tracking
the record takes kernel heap memory. -/
def allocateRecord (pool : RecordPool) (machine : Machine) :
    Option Slot × RecordPool × Machine :=
  match pool.allocate machine with
  | (none, pool, machine) => (none, pool, machine)
  | (some slot, pool, machine) =>
    match machine.heapAlloc with
    | (true, tracked) => (some slot, pool, tracked)
    | (false, refused) =>
      let freed := recordPoolFree pool refused slot
      (none, freed.1, freed.2)

/-! ## Lookups -/

def processHasHeapReservation (state : UserHeap) (process : ℕ) : Bool :=
  (state.windows process).base ≠ 0 && (state.windows process).reservedBytes ≠ 0

/-- The end of the heap window. -/
def reservationLimit (state : UserHeap) (process : ℕ) : ℕ :=
  wrap ((state.windows process).base + (state.windows process).reservedBytes)

def heapContainsAddress (state : UserHeap) (process address : ℕ) : Bool :=
  state.processHasHeapReservation process && (state.windows process).base ≤ address &&
    address < state.reservationLimit process

def sharedAllocatorContainsAddress (state : UserHeap) (process address : ℕ) : Bool :=
  state.processHasHeapReservation process && (state.windows process).base ≤ address &&
    address < heapCompatBase

def findAllocation (state : UserHeap) (process address : ℕ) : Option HeapAllocation :=
  state.allocations.find? fun allocation =>
    allocation.process = process && allocation.userBase = address

def findAllocationCovering (state : UserHeap) (process address : ℕ) : Option HeapAllocation :=
  state.allocations.find? fun allocation =>
    allocation.process = process && allocation.userBase ≤ address &&
      address < wrap (allocation.userBase + allocation.size)

def findPage (state : UserHeap) (process userPageBase : ℕ) : Option HeapPage :=
  state.pages.find? fun page => page.process = process && page.userPageBase = userPageBase

def pageHasLiveAllocation (state : UserHeap) (process userPageBase : ℕ) : Bool :=
  state.allocations.any fun allocation =>
    allocation.process = process && allocation.userBase < wrap (userPageBase + pageSize) &&
      userPageBase < wrap (allocation.userBase + allocation.size)

/-- The loop of `find_gap` over the blocks of one process. -/
def findGapFrom (process size limit : ℕ) : List HeapAllocation → ℕ → Except Status ℕ
  | [], candidate =>
    if limit < wrap (alignUpSize candidate + size) then
      .error .noSpace
    else
      .ok (alignUpSize candidate)
  | allocation :: rest, candidate =>
    if allocation.process ≠ process then
      findGapFrom process size limit rest candidate
    else if wrap (alignUpSize candidate + size) ≤ allocation.userBase then
      .ok (alignUpSize candidate)
    else
      findGapFrom process size limit rest (wrap (allocation.userBase + allocation.size))

def findGap (state : UserHeap) (process size : ℕ) : Except Status ℕ :=
  if size = 0 ∨ !state.processHasHeapReservation process then
    .error .invalidArgument
  else
    findGapFrom process size (state.reservationLimit process) state.allocations heapCompatBase

/-- `link_allocation`: before the first block at a higher address. -/
def linkAllocation (state : UserHeap) (allocation : HeapAllocation) : UserHeap :=
  { state with
    allocations := state.allocations.orderedInsert
      (fun new linked => new.userBase < linked.userBase) allocation }

/-! ## Pages -/

/-- Access bits of a heap page. -/
def pageFlags : MapFlags := ⟨true, false, true⟩

def mapHeapPage (state : UserHeap) (process userPageBase : ℕ) : Status × UserHeap :=
  if !state.heapContainsAddress process userPageBase then
    (.invalidArgument, state)
  else if (state.findPage process userPageBase).isSome then
    (.ok, state)
  else
    let physicalPage := state.machine.allocPage.1
    let allocated := state.machine.allocPage.2
    if physicalPage = 0 then
      (.noMemory, { state with machine := allocated })
    else
      match map allocated process ⟨userPageBase, physicalPage, pageSize, pageFlags⟩ with
      | (.ok, mapped) =>
        match allocateRecord state.pageRecordPool mapped with
        | (none, pool, machine) =>
          let unmapped := (unmap machine process userPageBase pageSize).2
          (.noMemory,
            { state with pageRecordPool := pool, machine := unmapped.freePage physicalPage })
        | (some record, pool, machine) =>
          (.ok,
            { state with
              pageRecordPool := pool
              machine := machine
              pages := state.pages ++
                [{ record := record
                   process := process
                   userPageBase := userPageBase
                   physicalBase := physicalPage }] })
      | (status, failed) => (status, { state with machine := failed.freePage physicalPage })

/-- `release_heap_page` while the process can still unmap. -/
def releaseHeapPage (state : UserHeap) (page : HeapPage) : UserHeap :=
  let unmapped :=
    if (state.machine.spaces page.process).hasRoot then
      (unmap state.machine page.process page.userPageBase pageSize).2
    else
      state.machine
  let freed := recordPoolFree state.pageRecordPool (unmapped.freePage page.physicalBase) page.record
  { state with
    pages := state.pages.filter fun other => other.record ≠ page.record
    pageRecordPool := freed.1
    machine := freed.2 }

/-- `is_heap_population_fault`: a translation or permission fault. -/
def isHeapPopulationFault (esr : ℕ) : Bool :=
  (esr % 64) ∈ [0x04, 0x05, 0x06, 0x07, 0x0d, 0x0e, 0x0f]

/-! ## Entry points -/

def allocRaw (state : UserHeap) (process size : ℕ) : Except Status ℕ × UserHeap :=
  if !state.processHasHeapReservation process then
    (.error .notSupported, state)
  else
    let alignedSize := alignUpSize (if size = 0 then 1 else size)
    match state.findGap process alignedSize with
    | .error status => (.error status, state)
    | .ok address =>
      match allocateRecord state.allocationPool state.machine with
      | (none, pool, machine) =>
        (.error .noMemory, { state with allocationPool := pool, machine := machine })
      | (some record, pool, machine) =>
        (.ok address,
          { state with allocationPool := pool, machine := machine }.linkAllocation
            { record := record
              process := process
              userBase := address
              size := alignedSize
              requested := size })

/-- Unlink a block and free its record. -/
def dropAllocation (state : UserHeap) (allocation : HeapAllocation) : UserHeap :=
  let freed := recordPoolFree state.allocationPool state.machine allocation.record
  { state with
    allocations := state.allocations.filter fun other => other.record ≠ allocation.record
    allocationPool := freed.1
    machine := freed.2 }

/-- One turn of the page loop of `free_raw`. -/
def releaseUnusedPage (process : ℕ) (state : UserHeap) (userPageBase : ℕ) : UserHeap :=
  if state.pageHasLiveAllocation process userPageBase then
    state
  else
    match state.findPage process userPageBase with
    | none => state
    | some page => state.releaseHeapPage page

def freeRaw (state : UserHeap) (process address : ℕ) : Status × UserHeap :=
  if address = 0 then
    (.ok, state)
  else
    match state.findAllocation process address with
    | none => (.notFound, state)
    | some allocation =>
      let releaseBase := pageBaseOf allocation.userBase
      let releaseLimit := alignUpPage (wrap (allocation.userBase + allocation.size))
      (.ok, (pageBases releaseBase releaseLimit).foldl (releaseUnusedPage process)
        (state.dropAllocation allocation))

def handlePageFault (state : UserHeap) (process address esr : ℕ) : Status × UserHeap :=
  if !state.processHasHeapReservation process then
    (.invalidArgument, state)
  else if !isHeapPopulationFault esr then
    (.notSupported, state)
  else if !state.heapContainsAddress process address then
    (.notFound, state)
  else if !state.sharedAllocatorContainsAddress process address &&
      (state.findAllocationCovering process address).isNone then
    (.notFound, state)
  else
    state.mapHeapPage process (pageBaseOf address)

/-- The page loop of `ensure_range_mapped`. -/
def ensurePages (state : UserHeap) (process : ℕ) : List ℕ → Status × UserHeap
  | [] => (.ok, state)
  | userPageBase :: rest =>
    if !state.heapContainsAddress process userPageBase then
      state.ensurePages process rest
    else if !state.sharedAllocatorContainsAddress process userPageBase &&
        !state.pageHasLiveAllocation process userPageBase then
      (.notFound, state)
    else
      match state.mapHeapPage process userPageBase with
      | (.ok, mapped) => mapped.ensurePages process rest
      | (status, failed) => (status, failed)

def ensureRangeMapped (state : UserHeap) (process address size : ℕ) : Status × UserHeap :=
  if size = 0 then
    (.ok, state)
  else
    state.ensurePages process (pageBases (pageBaseOf address) (alignUpPage (wrap (address + size))))

/-- `UserHeap::release_process`: the blocks, then the pages, then the window. -/
def releaseProcess (state : UserHeap) (process : ℕ) : UserHeap :=
  let dropped := (state.allocations.filter fun allocation => allocation.process = process).foldl
    dropAllocation state
  let released := (dropped.pages.filter fun page => page.process = process).foldl
    releaseHeapPage dropped
  { released with windows := Function.update released.windows process ⟨0, 0⟩ }

/-! ## Runs -/

/-- `DeviceBase` and `DeviceLimit` of the Raspberry Pi 3. -/
def deviceBase : ℕ := 0x3F000000

/-- The level-2 table of `map_low_gib`: identity blocks for the kernel. -/
def lowGib (index : ℕ) : Descriptor :=
  .block (index * l2BlockSize) ⟨true, index * l2BlockSize < deviceBase, false⟩

/-- One step of the service or of its surroundings. -/
inductive Operation
  | allocRaw (process size : ℕ)
  | freeRaw (process address : ℕ)
  | handlePageFault (process address esr : ℕ)
  | ensureRangeMapped (process address size : ℕ)
  | releaseProcess (process : ℕ)
  /-- A user process starts in a slot without a heap window. -/
  | createProcess (process : ℕ)
  /-- The address space of a process without a heap window is destroyed. -/
  | destroyAddressSpace (process : ℕ)
  /-- Somebody maps or unmaps below the heap window. -/
  | otherDescriptor (process index : ℕ) (descriptor : Descriptor)
  | otherAllocPage
  | otherFreePage (phys : ℕ)
  | otherRetainPage (phys : ℕ)
  | otherReservePages (pageCount : ℕ)
  | otherReleasePages (base pageCount : ℕ)

/-- The state after one operation. -/
def perform (state : UserHeap) : Operation → UserHeap
  | .allocRaw process size => (state.allocRaw process size).2
  | .freeRaw process address => (state.freeRaw process address).2
  | .handlePageFault process address esr => (state.handlePageFault process address esr).2
  | .ensureRangeMapped process address size => (state.ensureRangeMapped process address size).2
  | .releaseProcess process => state.releaseProcess process
  | .createProcess process =>
    if state.processHasHeapReservation process then
      state
    else
      { state with
        windows := Function.update state.windows process ⟨userHeapBase, userHeapReservedBytes⟩
        machine := state.machine.setSpace process ⟨true, lowGib⟩ }
  | .destroyAddressSpace process =>
    if state.processHasHeapReservation process then
      state
    else
      { state with machine := state.machine.setSpace process ⟨false, fun _ => .invalid⟩ }
  | .otherDescriptor process index descriptor =>
    if index < userHeapBase / l2BlockSize then
      { state with machine := state.machine.setDescriptor process index descriptor }
    else
      state
  | .otherAllocPage => { state with machine := FileMappings.otherAllocPage state.machine }
  | .otherFreePage phys => { state with machine := FileMappings.otherFreePage state.machine phys }
  | .otherRetainPage phys =>
    { state with machine := FileMappings.otherRetainPage state.machine phys }
  | .otherReservePages pageCount =>
    { state with machine := state.machine.heapAppendGrowth pageCount true }
  | .otherReleasePages base pageCount =>
    { state with machine := FileMappings.otherReleasePages state.machine base pageCount }

/-- The same state with the outcomes of the coming kernel heap allocations fixed. -/
def withHeapCalls (state : UserHeap) (calls : List HeapCall) : UserHeap :=
  { state with machine := { state.machine with heapCalls := calls } }

/-- `sizeof` and `alignof` of both records. -/
def recordLayout : SlotLayout := ⟨40, 8, by decide⟩

/-- Before the first user process. -/
def boot (pool : PagePool) : UserHeap where
  machine :=
    { physical := PhysicalMemory.init pool
      spaces := fun _ => ⟨true, lowGib⟩
      heapCalls := []
      otherPages := PhysicalMemory.metadataPages pool }
  windows := fun _ => ⟨0, 0⟩
  allocationPool := ⟨recordLayout, [], []⟩
  pageRecordPool := ⟨recordLayout, [], []⟩
  allocations := []
  pages := []

/-- States reached from boot by steps that meet the condition. -/
abbrev Reachable (condition : UserHeap → Operation → Prop) (pool : PagePool) : UserHeap → Prop :=
  Runs.Reachable (· = boot pool)
    (fun state (call : Operation × List HeapCall) =>
      some ((state.withHeapCalls call.2).perform call.1))
    fun state call => condition state call.1

end UserHeap

end RosKernel.Memory
