import RosKernel.Memory.FileMapping

/-!
# Named shared memory

`shared_memory.cpp`: objects with a case-insensitive name, backed by one contiguous
run of pages, that processes map into 2 MiB view slots. `acquire` collects an object
record, the run, an attachment record and the mapping one after the other and rolls
back when one of them is not available. The last attachment takes the object with it.

The kernel heap appears through its end address: a page table comes from the arena
as it is, or the arena grows by a run that starts exactly at its end.
-/

namespace RosKernel.Memory

def sharedMemoryNameCapacity : ℕ := 64

def sharedMemorySlotBytes : ℕ := l2BlockSize

def sharedMemoryViewBase : ℕ := 0x18200000

def sharedMemoryViewBytes : ℕ := 31 * sharedMemorySlotBytes

/-- `SharedMemoryObject`. -/
structure SharedObject where
  record : Slot
  name : List Char
  requestedSize : ℕ
  backingBytes : ℕ
  physicalBase : ℕ
  attachmentCount : ℕ
  deriving DecidableEq

/-- `SharedMemoryAttachment`. -/
structure SharedAttachment where
  record : Slot
  process : ℕ
  object : Slot
  slotIndex : ℕ
  viewAddress : ℕ
  deriving DecidableEq

/-- The shared-memory registry together with the memory it works on. -/
structure SharedMemory where
  machine : Machine
  /-- Physical address behind `g_heap_end_address`. -/
  heapEnd : ℕ
  objectPool : RecordPool
  attachmentPool : RecordPool
  /-- `g_shared_memory_objects`, head first. -/
  objects : List SharedObject
  /-- `g_shared_memory_attachments`, head first. -/
  attachments : List SharedAttachment

namespace SharedMemory

open FileMappings (alignUpToPage sameTextCaseInsensitive)

/-! ## Records -/

/-- `shared_memory_record_pool_free`: unlike its siblings it retires the page also
when the header already counted no live slot. -/
def recordPoolFree (pool : RecordPool) (machine : Machine) (slot : Slot) :
    RecordPool × Machine :=
  match pool.headerOf slot with
  | none => (pool, machine)
  | some header =>
    let returned := { pool with freeList := slot :: pool.freeList }.setLive slot.page (· - 1)
    if header.liveSlots - 1 ≠ 0 then
      (returned, machine)
    else
      (returned.retirePage slot.page, machine.freePage header.pagePhys)

def textFitsCapacity (text : List Char) (capacity : ℕ) : Bool :=
  text ≠ [] && capacity ≠ 0 && text.length < capacity

/-! ## Lookups -/

/-- The object behind a pointer. -/
def objectAt (state : SharedMemory) (record : Slot) : Option SharedObject :=
  state.objects.find? fun object => object.record = record

def findObjectByName (state : SharedMemory) (name : List Char) : Option SharedObject :=
  state.objects.find? fun object => sameTextCaseInsensitive object.name name

def findAttachment (state : SharedMemory) (process : ℕ) (name : List Char) :
    Option SharedAttachment :=
  state.attachments.find? fun attachment =>
    attachment.process = process && (state.objectAt attachment.object).any fun object =>
        sameTextCaseInsensitive object.name name

def processUsesSlot (state : SharedMemory) (process slotIndex : ℕ) : Bool :=
  state.attachments.any fun attachment =>
    attachment.process = process && attachment.slotIndex = slotIndex

def findFreeSlot (state : SharedMemory) (process : ℕ) : Option ℕ :=
  (List.range (sharedMemoryViewBytes / sharedMemorySlotBytes)).find? fun slotIndex =>
    !state.processUsesSlot process slotIndex

/-- `shared_memory_slot_address`. -/
def slotAddress (slotIndex : ℕ) : ℕ :=
  sharedMemoryViewBase + slotIndex * sharedMemorySlotBytes

/-- Rewrite the object behind a pointer. -/
def modifyObject (state : SharedMemory) (record : Slot) (update : SharedObject → SharedObject) :
    SharedMemory :=
  { state with
    objects := state.objects.map fun object =>
      if object.record = record then update object else object }

/-! ## The kernel heap -/

/-- Whether a run of the given length, reserved now, continues the arena. -/
def growthContinues (state : SharedMemory) (pageCount : ℕ) : Bool :=
  let base := (state.machine.physical.reserveContiguousPages pageCount).1
  base ≠ 0 && base = state.heapEnd

/-- `heap_append_growth_locked`: a run that does not continue the arena goes back. -/
def heapAppendGrowth (state : SharedMemory) (pageCount : ℕ) : SharedMemory :=
  { state with
    machine := state.machine.heapAppendGrowth pageCount (state.growthContinues pageCount)
    heapEnd :=
      if state.growthContinues pageCount then state.heapEnd + pageCount * pageSize
      else state.heapEnd }

/-- `Heap::alloc` of one page table: a free segment serves it, or the arena grows for
it, in which case the growth is enough. -/
def tableCall (state : SharedMemory) (arenaServes : Bool) : HeapCall :=
  if arenaServes then
    ⟨0, false, true⟩
  else
    ⟨KernelHeap.tablePages, state.growthContinues KernelHeap.tablePages,
      state.growthContinues KernelHeap.tablePages⟩

/-- `MemoryManager::map` with the heap behind it; one call maps inside one slot and
needs at most one page table. -/
def mapView (state : SharedMemory) (process : ℕ) (mapping : VmMapping) (arenaServes : Bool) :
    Status × SharedMemory :=
  let call := state.tableCall arenaServes
  let mapped := map { state.machine with heapCalls := [call] } process mapping
  (mapped.1,
    { state with
      machine := { mapped.2 with heapCalls := [] }
      heapEnd :=
        -- The call was made when the list is used up.
        if mapped.2.heapCalls = [] ∧ call.appended then
          state.heapEnd + call.growthPages * pageSize
        else
          state.heapEnd })

/-! ## Releasing -/

def releaseObjectIfUnused (state : SharedMemory) (record : Slot) : SharedMemory :=
  match state.objectAt record with
  | none => state
  | some object =>
    if object.attachmentCount ≠ 0 then
      state
    else
      let released :=
        if object.physicalBase ≠ 0 ∧ object.backingBytes ≠ 0 then
          { state.machine with
            physical := state.machine.physical.releaseContiguousPages object.physicalBase
              (object.backingBytes / pageSize) }
        else
          state.machine
      let pooled := recordPoolFree state.objectPool released record
      { state with
        objects := state.objects.filter fun other => other.record ≠ record
        objectPool := pooled.1
        machine := pooled.2 }

def releaseAttachment (state : SharedMemory) (attachment : SharedAttachment) : SharedMemory :=
  match state.objectAt attachment.object with
  | none => state
  | some object =>
    let unmapped :=
      if (state.machine.spaces attachment.process).hasRoot then
        (unmap state.machine attachment.process attachment.viewAddress object.backingBytes).2
      else
        state.machine
    let pooled := recordPoolFree state.attachmentPool unmapped attachment.record
    let unlinked : SharedMemory :=
      { state with
        attachments := state.attachments.filter fun other => other.record ≠ attachment.record
        attachmentPool := pooled.1
        machine := pooled.2 }
    (unlinked.modifyObject attachment.object fun counted =>
      { counted with attachmentCount := counted.attachmentCount - 1 }).releaseObjectIfUnused
        attachment.object

/-! ## Entry points -/

/-- The creating branch of `acquire`. -/
def createObject (state : SharedMemory) (name : List Char) (requestedSize : ℕ) :
    Except Status SharedObject × SharedMemory :=
  match state.objectPool.allocate state.machine with
  | (none, pool, machine) =>
    (.error .noSpace, { state with objectPool := pool, machine := machine })
  | (some record, pool, machine) =>
    let backingBytes := alignUpToPage requestedSize
    if backingBytes = 0 then
      let pooled := recordPoolFree pool machine record
      (.error .invalidArgument, { state with objectPool := pooled.1, machine := pooled.2 })
    else
      let backingPhys := (machine.physical.reserveContiguousPages (backingBytes / pageSize)).1
      let reserved :=
        { machine with
          physical := (machine.physical.reserveContiguousPages (backingBytes / pageSize)).2 }
      if backingBytes / pageSize = 0 ∨ backingPhys = 0 then
        let pooled := recordPoolFree pool reserved record
        (.error .noMemory, { state with objectPool := pooled.1, machine := pooled.2 })
      else
        let object : SharedObject :=
          { record := record
            name := name
            requestedSize := requestedSize
            backingBytes := backingBytes
            physicalBase := backingPhys
            attachmentCount := 0 }
        (.ok object,
          { state with
            objectPool := pool
            machine := reserved
            objects := object :: state.objects })

/-- Access bits of a shared view. -/
def viewFlags : MapFlags := ⟨true, false, true⟩

/-- The last part of `acquire`: attach the process to the object. -/
def attach (state : SharedMemory) (process : ℕ) (object : SharedObject)
    (arenaServes : Bool) : Except Status ℕ × SharedMemory :=
  match state.findFreeSlot process with
  | none => (.error .noSpace, state)
  | some slotIndex =>
    match state.attachmentPool.allocate state.machine with
    | (none, pool, machine) =>
      (.error .noSpace, { state with attachmentPool := pool, machine := machine })
    | (some record, pool, machine) =>
      let mapped := mapView { state with attachmentPool := pool, machine := machine } process
        ⟨slotAddress slotIndex, object.physicalBase, object.backingBytes, viewFlags⟩ arenaServes
      match mapped.1 with
      | .ok =>
        (.ok (slotAddress slotIndex),
          ({ mapped.2 with
              attachments :=
                { record := record
                  process := process
                  object := object.record
                  slotIndex := slotIndex
                  viewAddress := slotAddress slotIndex } :: state.attachments } :
            SharedMemory).modifyObject object.record fun attached =>
              { attached with attachmentCount := attached.attachmentCount + 1 })
      | status =>
        let pooled := recordPoolFree pool mapped.2.machine record
        (.error status, { mapped.2 with attachmentPool := pooled.1, machine := pooled.2 })

def acquire (state : SharedMemory) (process : ℕ) (name : List Char) (requestedSize : ℕ)
    (arenaServes : Bool) : Except Status ℕ × SharedMemory :=
  if sharedMemorySlotBytes < requestedSize ∨ !textFitsCapacity name sharedMemoryNameCapacity then
    (.error .invalidArgument, state)
  else
    match state.findAttachment process name with
    | some attachment => (.ok attachment.viewAddress, state)
    | none =>
      match state.findObjectByName name with
      | some object =>
        if requestedSize ≠ 0 ∧ object.requestedSize < requestedSize then
          (.error .noSpace, state)
        else
          state.attach process object arenaServes
      | none =>
        if requestedSize = 0 then
          (.error .notFound, state)
        else
          match state.createObject name requestedSize with
          | (.error status, failed) => (.error status, failed)
          | (.ok object, created) =>
            match created.attach process object arenaServes with
            | (.ok address, attached) => (.ok address, attached)
            | (.error status, failed) =>
              (.error status, failed.releaseObjectIfUnused object.record)

/-- `SharedMemoryManager::release_process_mappings`: the attachments of the process, in
link order. -/
def releaseProcessMappings (state : SharedMemory) (process : ℕ) : SharedMemory :=
  (state.attachments.filter fun attachment => attachment.process = process).foldl
    releaseAttachment state

/-! ## Runs -/

/-- One step of the service or of its surroundings. -/
inductive Operation
  | acquire (process : ℕ) (name : List Char) (requestedSize : ℕ) (arenaServes : Bool)
  | releaseProcessMappings (process : ℕ)
  /-- The heap grows for somebody else. -/
  | heapAppendGrowth (pageCount : ℕ)
  | otherAllocPage
  | otherFreePage (phys : ℕ)
  | otherRetainPage (phys : ℕ)
  /-- Some address space is created, changed or destroyed. -/
  | otherSpace (process : ℕ) (space : AddressSpace)

/-- The state after one operation. -/
def perform (state : SharedMemory) : Operation → SharedMemory
  | .acquire process name requestedSize arenaServes =>
    (state.acquire process name requestedSize arenaServes).2
  | .releaseProcessMappings process => state.releaseProcessMappings process
  | .heapAppendGrowth pageCount => state.heapAppendGrowth pageCount
  | .otherAllocPage => { state with machine := FileMappings.otherAllocPage state.machine }
  | .otherFreePage phys => { state with machine := FileMappings.otherFreePage state.machine phys }
  | .otherRetainPage phys =>
    { state with machine := FileMappings.otherRetainPage state.machine phys }
  | .otherSpace process space => { state with machine := state.machine.setSpace process space }

/-- Geometry of the object pool: `sizeof(SharedMemoryObject)` and its alignment. -/
def objectLayout : SlotLayout := ⟨120, 8, by decide⟩

/-- Geometry of the attachment pool. -/
def attachmentLayout : SlotLayout := ⟨48, 8, by decide⟩

/-- The empty registry; the early heap ends where the page pool begins. -/
def boot (pool : PagePool) : SharedMemory where
  machine :=
    { physical := PhysicalMemory.init pool
      spaces := fun _ => ⟨false, fun _ => .invalid⟩
      heapCalls := []
      otherPages := PhysicalMemory.metadataPages pool }
  heapEnd := pool.base
  objectPool := ⟨objectLayout, [], []⟩
  attachmentPool := ⟨attachmentLayout, [], []⟩
  objects := []
  attachments := []

/-- States reached from boot by steps that meet the condition. -/
abbrev Reachable (condition : SharedMemory → Operation → Prop) (pool : PagePool) :
    SharedMemory → Prop :=
  Runs.Reachable (· = boot pool) (fun state operation => some (state.perform operation)) condition

end SharedMemory

end RosKernel.Memory
