import RosKernel.Memory.Physical
import RosKernel.Status

/-!
# Address spaces and the page manager's clients

The memory a kernel service works on: the page manager, one user address space
a process, and the kernel heap. The page tables follow
`mm/arch/aarch64/mm.cpp` for user addresses, whose level-0 and level-1 tables
have a single entry. The heap appears through the outcome of each allocation,
since an allocation may grow the arena by a run of physical pages.
-/

namespace RosKernel.Memory

def l2BlockSize : ℕ := 0x200000

def tableEntries : ℕ := 512

/-- The bits of `VmMapping::flags`. -/
structure MapFlags where
  writable : Bool
  executable : Bool
  user : Bool
  deriving DecidableEq

structure VmMapping where
  virtualBase : ℕ
  physicalBase : ℕ
  length : ℕ
  flags : MapFlags

/-- A level-2 descriptor; a table carries its level-3 page descriptors. -/
inductive Descriptor
  | invalid
  | block (phys : ℕ) (flags : MapFlags)
  | table (entries : ℕ → Option (ℕ × MapFlags))

/-- A user address space. -/
structure AddressSpace where
  /-- `page_table_root` is not 0. -/
  hasRoot : Bool
  levelTwo : ℕ → Descriptor

/-- What one call of `Heap::alloc` does. -/
structure HeapCall where
  /-- Pages the arena asks for, 0 when it does not grow. -/
  growthPages : ℕ
  /-- Whether the reserved run extends the arena. -/
  appended : Bool
  served : Bool
  deriving DecidableEq

/-- The memory state the kernel services share. -/
structure Machine where
  physical : PhysicalMemory
  spaces : ℕ → AddressSpace
  /-- Outcomes of the coming heap allocations. -/
  heapCalls : List HeapCall
  /-- References to pages held outside the modelled service. -/
  otherPages : List ℕ

namespace Machine

def allocPage (machine : Machine) : ℕ × Machine :=
  (machine.physical.allocPage.1, { machine with physical := machine.physical.allocPage.2 })

def freePage (machine : Machine) (phys : ℕ) : Machine :=
  { machine with physical := machine.physical.freePage phys }

/-- `heap_append_growth_locked`: the run joins the arena or goes back. -/
def heapAppendGrowth (machine : Machine) (pageCount : ℕ) (appended : Bool) : Machine :=
  let base := (machine.physical.reserveContiguousPages pageCount).1
  let reserved := (machine.physical.reserveContiguousPages pageCount).2
  if base = 0 then
    { machine with physical := reserved }
  else if appended then
    { machine with
      physical := reserved
      otherPages := PhysicalMemory.runPages base pageCount ++ machine.otherPages }
  else
    { machine with physical := reserved.releaseContiguousPages base pageCount }

/-- `Heap::alloc`: whether it returned memory. -/
def heapAlloc (machine : Machine) : Bool × Machine :=
  match machine.heapCalls with
  | [] => (false, machine)
  | call :: rest =>
    (call.served,
      { machine.heapAppendGrowth call.growthPages call.appended with heapCalls := rest })

/-- Rewrite one address space. -/
def setSpace (machine : Machine) (process : ℕ) (space : AddressSpace) : Machine :=
  { machine with spaces := Function.update machine.spaces process space }

/-- Rewrite one level-2 descriptor. -/
def setDescriptor (machine : Machine) (process index : ℕ) (descriptor : Descriptor) : Machine :=
  machine.setSpace process
    { machine.spaces process with
      levelTwo := Function.update (machine.spaces process).levelTwo index descriptor }

end Machine

/-! ## Page tables -/

/-- `level_index` of one translation level. -/
def levelIndex (address shift : ℕ) : ℕ :=
  address / 2 ^ shift % tableEntries

/-- `resolve_level2_entry`: the level-2 index of a user address. -/
def resolveLevel2Entry (space : AddressSpace) (address : ℕ) : Option ℕ :=
  if space.hasRoot && levelIndex address 39 == 0 && levelIndex address 30 == 0 then
    some (levelIndex address 21)
  else
    none

/-- `resolve_level3_entry`: the level-2 index whose table holds the address, with
the table when it had to be created. -/
def resolveLevel3Entry (machine : Machine) (process address : ℕ) (createMissing : Bool) :
    Except Status ℕ × Machine :=
  match resolveLevel2Entry (machine.spaces process) address with
  | none => (.error .notSupported, machine)
  | some index =>
    match (machine.spaces process).levelTwo index with
    | .table _ => (.ok index, machine)
    | _ =>
      if createMissing then
        match machine.heapAlloc with
        | (true, served) => (.ok index, served.setDescriptor process index (.table fun _ => none))
        | (false, refused) => (.error .noMemory, refused)
      else
        (.error .notSupported, machine)

/-- Write one level-3 descriptor of a level-2 table. -/
def writeLevel3Entry (machine : Machine) (process index address : ℕ)
    (entry : Option (ℕ × MapFlags)) : Machine :=
  match (machine.spaces process).levelTwo index with
  | .table entries =>
    machine.setDescriptor process index
      (.table (Function.update entries (levelIndex address 12) entry))
  | _ => machine

/-- `release_empty_level3_table`: an empty table gives way to an invalid entry. -/
def releaseEmptyLevel3Table (machine : Machine) (process address : ℕ) : Machine :=
  match resolveLevel2Entry (machine.spaces process) address with
  | none => machine
  | some index =>
    match (machine.spaces process).levelTwo index with
    | .table entries =>
      if (List.range tableEntries).all fun entry => (entries entry).isNone then
        machine.setDescriptor process index .invalid
      else
        machine
    | _ => machine

/-- The block loop of `MemoryManager::map`, from one block on. -/
def mapBlocks (machine : Machine) (process : ℕ) (mapping : VmMapping) (offset : ℕ) :
    ℕ → Status × Machine
  | 0 => (.ok, machine)
  | count + 1 =>
    match resolveLevel2Entry (machine.spaces process) (mapping.virtualBase + offset) with
    | none => (.notSupported, machine)
    | some index =>
      mapBlocks
        (machine.setDescriptor process index (.block (mapping.physicalBase + offset) mapping.flags))
        process mapping (offset + l2BlockSize) count

/-- The page loop of `MemoryManager::map`, from one page on. -/
def mapPages (machine : Machine) (process : ℕ) (mapping : VmMapping) (offset : ℕ) :
    ℕ → Status × Machine
  | 0 => (.ok, machine)
  | count + 1 =>
    match resolveLevel3Entry machine process (mapping.virtualBase + offset) true with
    | (.error status, failed) => (status, failed)
    | (.ok index, resolved) =>
      mapPages
        (writeLevel3Entry resolved process index (mapping.virtualBase + offset)
          (some (mapping.physicalBase + offset, mapping.flags)))
        process mapping (offset + pageSize) count

def map (machine : Machine) (process : ℕ) (mapping : VmMapping) : Status × Machine :=
  if mapping.length = 0 then
    (.invalidArgument, machine)
  else if mapping.virtualBase % pageSize ≠ 0 ∨ mapping.physicalBase % pageSize ≠ 0 ∨
      mapping.length % pageSize ≠ 0 then
    (.notSupported, machine)
  else if mapping.virtualBase % l2BlockSize = 0 ∧ mapping.physicalBase % l2BlockSize = 0 ∧
      mapping.length % l2BlockSize = 0 then
    mapBlocks machine process mapping 0 (mapping.length / l2BlockSize)
  else
    mapPages machine process mapping 0 (mapping.length / pageSize)

/-- The block loop of `MemoryManager::unmap`. -/
def unmapBlocks (machine : Machine) (process address : ℕ) : ℕ → Status × Machine
  | 0 => (.ok, machine)
  | count + 1 =>
    match resolveLevel2Entry (machine.spaces process) address with
    | none => (.notSupported, machine)
    | some index =>
      unmapBlocks (machine.setDescriptor process index .invalid) process
        (address + l2BlockSize) count

/-- The page loop of `MemoryManager::unmap`. -/
def unmapPages (machine : Machine) (process address : ℕ) : ℕ → Status × Machine
  | 0 => (.ok, machine)
  | count + 1 =>
    match resolveLevel3Entry machine process address false with
    | (.error status, failed) => (status, failed)
    | (.ok index, resolved) =>
      unmapPages (writeLevel3Entry resolved process index address none) process
        (address + pageSize) count

/-- The closing loop of `MemoryManager::unmap` over the touched 2 MiB ranges. -/
def releaseEmptyTables (machine : Machine) (process blockBase : ℕ) : ℕ → Machine
  | 0 => machine
  | count + 1 =>
    releaseEmptyTables (releaseEmptyLevel3Table machine process blockBase) process
      (blockBase + l2BlockSize) count

def unmap (machine : Machine) (process address length : ℕ) : Status × Machine :=
  if length = 0 then
    (.invalidArgument, machine)
  else if address % pageSize ≠ 0 ∨ length % pageSize ≠ 0 then
    (.notSupported, machine)
  else if address % l2BlockSize = 0 ∧ length % l2BlockSize = 0 then
    unmapBlocks machine process address (length / l2BlockSize)
  else
    match unmapPages machine process address (length / pageSize) with
    | (.ok, cleared) =>
      let blockBase := address / l2BlockSize * l2BlockSize
      (.ok, releaseEmptyTables cleared process blockBase
        ((address + length - blockBase + l2BlockSize - 1) / l2BlockSize))
    | (status, failed) => (status, failed)

/-! ## How the kernel heap grows

`heap_growth_bytes_for_request` of `heap/heap.cpp`, in 64-bit arithmetic. The page tables ask
for one page on a page boundary; a batch of three pages holds it wherever it starts. -/

namespace KernelHeap

/-- Wrap a result into 64 bits. -/
def wrap (value : ℕ) : ℕ := value % 2 ^ 64

def minimumAlignment : ℕ := 16

/-- `sizeof(HeapSegment)`. -/
def segmentBytes : ℕ := 96

/-- `sizeof(HeapBlockHeader)`. -/
def headerBytes : ℕ := 32

def tailCanaryBytes : ℕ := 8

def growthUnitBytes : ℕ := pageSize

/-- Payload sizes of `HeapSmallBins`. -/
def smallBins : List ℕ := [32, 64, 128, 256, 512]

/-- `align_up` and `align_up_address`: the mask clears the bits below a power of
two. -/
def alignUp (value alignment : ℕ) : ℕ :=
  wrap (value + (alignment - 1)) / alignment * alignment

def smallBinIndexForRequest (size alignment : ℕ) : Option ℕ :=
  if size = 0 ∨ minimumAlignment < alignment then
    none
  else
    smallBins.findIdx? fun payload => size ≤ payload

def slabSegmentBytes : ℕ := alignUp pageSize minimumAlignment

def growthBytesForRequest (size alignment : ℕ) : ℕ :=
  let minimumBytes :=
    if (smallBinIndexForRequest size alignment).isSome && alignment ≤ minimumAlignment then
      slabSegmentBytes
    else
      alignUp (wrap (segmentBytes + headerBytes + size + alignment + tailCanaryBytes))
        minimumAlignment
  alignUp (max minimumBytes growthUnitBytes) growthUnitBytes

/-- Pages by which the arena grows for one page table. -/
def tablePages : ℕ := growthBytesForRequest pageSize pageSize / pageSize

end KernelHeap

end RosKernel.Memory
