import RosKernel.Library.Runs
import RosKernel.Memory.RecordPool

/-!
# File mappings

`file_mapping.cpp`: named, page-backed objects that processes map into fixed view
slots. An object lives while a handle or a view refers to it and its backing
pages go back to the page manager with it. Every entry point runs with
interrupts disabled, so each is one atomic step.

Objects and attachments are named by their record slot, the pointer the source
passes around.
-/

namespace RosKernel.Memory

def fileMappingPathCapacity : ℕ := 260

def fileMappingViewSlotBytes : ℕ := l2BlockSize

def fileMappingViewBase : ℕ := 0x1C000000

def fileMappingViewBytes : ℕ := 0x4000000

/-- `FileMappingObject`. -/
structure Object where
  /-- Address of the record. -/
  record : Slot
  dirty : Bool
  handleValue : ℕ
  handleCount : ℕ
  attachmentCount : ℕ
  requestedSize : ℕ
  backingBytes : ℕ
  backingPageCount : ℕ
  backingPages : List ℕ
  filePath : List Char
  deriving DecidableEq

/-- `FileMappingAttachment`. -/
structure Attachment where
  record : Slot
  slotIndex : ℕ
  process : ℕ
  object : Slot
  viewAddress : ℕ
  viewBytes : ℕ
  deriving DecidableEq

/-- The file-mapping registry together with the memory it works on. -/
structure FileMappings where
  machine : Machine
  objectPool : RecordPool
  attachmentPool : RecordPool
  nextHandle : ℕ
  /-- Linked objects, head first. -/
  objects : List Object
  attachments : List Attachment

namespace FileMappings

/-! ## Text and sizes -/

/-- `copy_path` into the fixed storage. -/
def copyPath (source : List Char) : List Char :=
  source.take (fileMappingPathCapacity - 1)

/-- The letter folding of `same_text_case_insensitive`. -/
def foldLetter (letter : Char) : Char :=
  if 'A' ≤ letter ∧ letter ≤ 'Z' then Char.ofNat (letter.toNat + 32) else letter

def sameTextCaseInsensitive (lhs rhs : List Char) : Bool :=
  lhs.map foldLetter == rhs.map foldLetter

/-- `align_up_to_page` on 64-bit sizes. -/
def alignUpToPage (value : ℕ) : ℕ :=
  if value = 0 then 0 else (value + (pageSize - 1)) % 2 ^ 64 / pageSize * pageSize

/-! ## Lookups -/

def findObjectByHandle (state : FileMappings) (handle : ℕ) : Option Object :=
  state.objects.find? fun object => object.handleValue = handle

def findObjectByPath (state : FileMappings) (path : List Char) : Option Object :=
  state.objects.find? fun object => sameTextCaseInsensitive object.filePath path

def findAttachment (state : FileMappings) (process : ℕ) (object : Slot) : Option Attachment :=
  state.attachments.find? fun attachment =>
    attachment.process = process ∧ attachment.object = object

def findAttachmentByView (state : FileMappings) (process address : ℕ) : Option Attachment :=
  state.attachments.find? fun attachment =>
    attachment.process = process ∧ attachment.viewAddress = address

def processUsesSlot (state : FileMappings) (process slotIndex : ℕ) : Bool :=
  state.attachments.any fun attachment =>
    attachment.process = process ∧ attachment.slotIndex = slotIndex

def reserveViewSlot (state : FileMappings) (process : ℕ) : Option ℕ :=
  (List.range (fileMappingViewBytes / fileMappingViewSlotBytes)).find? fun slotIndex =>
    !state.processUsesSlot process slotIndex

def slotAddress (slotIndex : ℕ) : ℕ :=
  fileMappingViewBase + slotIndex * fileMappingViewSlotBytes

/-- Rewrite the object behind a pointer. -/
def modifyObject (state : FileMappings) (record : Slot) (update : Object → Object) :
    FileMappings :=
  { state with
    objects := state.objects.map fun object =>
      if object.record = record then update object else object }

/-! ## Backing pages -/

/-- `release_backing_pages`: free the listed pages and the list. -/
def releaseBackingPages (pages : List ℕ) (machine : Machine) : Machine :=
  pages.foldl (fun freed phys => if phys ≠ 0 then freed.freePage phys else freed) machine

/-- The allocation loop of `allocate_backing` and `resize_backing`: append pages to
the array, or release the whole array when memory runs out. -/
def fillBackingPages : ℕ → List ℕ → Machine → Option (List ℕ) × Machine
  | 0, pages, machine => (some pages, machine)
  | remaining + 1, pages, machine =>
    if machine.allocPage.1 = 0 then
      (none, releaseBackingPages pages machine.allocPage.2)
    else
      fillBackingPages remaining (pages ++ [machine.allocPage.1]) machine.allocPage.2

/-- `allocate_backing`: the page list of a new object. -/
def allocateBacking (machine : Machine) (size : ℕ) : Except Status (List ℕ) × Machine :=
  let roundedBytes := alignUpToPage size
  let pageCount := roundedBytes / pageSize
  if size = 0 ∨ roundedBytes = 0 ∨ pageCount = 0 then
    (.error .invalidArgument, machine)
  else
    match machine.heapAlloc with
    | (false, refused) => (.error .noMemory, refused)
    | (true, served) =>
      match fillBackingPages pageCount [] served with
      | (none, released) => (.error .noMemory, released)
      | (some pages, filled) => (.ok pages, filled)

/-- Access bits of a mapped view. -/
def viewFlags : MapFlags := ⟨true, false, true⟩

/-- The loop of `map_backing_pages`; a failure unmaps what it had mapped. -/
def mapBackingPagesFrom (process viewAddress : ℕ) (pages : List ℕ) (pageOffset : ℕ) :
    ℕ → ℕ → Machine → Status × Machine
  | _, 0, machine => (.ok, machine)
  | index, count + 1, machine =>
    match map machine process
        ⟨viewAddress + (pageOffset + index) * pageSize, pages.getD (pageOffset + index) 0,
          pageSize, viewFlags⟩ with
    | (.ok, mapped) =>
      mapBackingPagesFrom process viewAddress pages pageOffset (index + 1) count mapped
    | (status, failed) =>
      (status,
        if index ≠ 0 then
          (unmap failed process (viewAddress + pageOffset * pageSize) (index * pageSize)).2
        else
          failed)

def mapBackingPages (machine : Machine) (process viewAddress : ℕ) (pages : List ℕ)
    (pageOffset pageCount : ℕ) : Status × Machine :=
  if pageCount = 0 then
    (.invalidArgument, machine)
  else
    mapBackingPagesFrom process viewAddress pages pageOffset 0 pageCount machine

def unmapBackingPages (machine : Machine) (process viewAddress offsetBytes bytes : ℕ) :
    Machine :=
  if bytes = 0 ∨ (machine.spaces process).hasRoot = false then
    machine
  else
    (unmap machine process (viewAddress + offsetBytes) bytes).2

/-! ## Resizing -/

/-- The fixed data of one growing `resize_backing`. -/
structure Resize where
  /-- The object being resized. -/
  record : Slot
  /-- `resized_pages`. -/
  pages : List ℕ
  /-- `old_backing_bytes`. -/
  oldBytes : ℕ
  /-- `new_backing_bytes`. -/
  newBytes : ℕ
  oldPageCount : ℕ
  newPageCount : ℕ

/-- Whether the view loops touch this attachment: a view of the object with the
given size in a process that still has an address space. -/
def viewOf (machine : Machine) (record : Slot) (bytes : ℕ) (attachment : Attachment) : Bool :=
  attachment.object = record ∧ attachment.viewBytes = bytes ∧
    (machine.spaces attachment.process).hasRoot

/-- The rollback loop of `resize_backing` over the views already extended. -/
def shrinkViews (resize : Resize) :
    List Attachment → Machine → List Attachment × Machine
  | [], machine => ([], machine)
  | attachment :: rest, machine =>
    if viewOf machine resize.record resize.newBytes attachment then
      let unmapped := unmapBackingPages machine attachment.process attachment.viewAddress
        resize.oldBytes ((resize.newPageCount - resize.oldPageCount) * pageSize)
      let rolled := shrinkViews resize rest unmapped
      ({ attachment with viewBytes := resize.oldBytes } :: rolled.1, rolled.2)
    else
      let rolled := shrinkViews resize rest machine
      (attachment :: rolled.1, rolled.2)

/-- The view loop of `resize_backing`: `visited` is done, the list is to come. -/
def extendViews (resize : Resize) :
    List Attachment → List Attachment → Machine → Status × List Attachment × Machine
  | visited, [], machine => (.ok, visited, machine)
  | visited, attachment :: rest, machine =>
    if viewOf machine resize.record resize.oldBytes attachment then
      match mapBackingPages machine attachment.process attachment.viewAddress resize.pages
          resize.oldPageCount (resize.newPageCount - resize.oldPageCount) with
      | (.ok, mapped) =>
        extendViews resize (visited ++ [{ attachment with viewBytes := resize.newBytes }]) rest
          mapped
      | (status, failed) =>
        (status, shrinkViews resize (visited ++ attachment :: rest) failed)
    else
      extendViews resize (visited ++ [attachment]) rest machine

/-- The last part of `resize_backing`, once the new array is filled. -/
def installBacking (state : FileMappings) (object : Object) (size newBytes : ℕ)
    (pages : List ℕ) : Status × FileMappings :=
  let resize : Resize :=
    ⟨object.record, pages, object.backingBytes, newBytes, object.backingPageCount,
      newBytes / pageSize⟩
  let extended :=
    if object.attachmentCount ≠ 0 then
      extendViews resize [] state.attachments state.machine
    else
      (.ok, state.attachments, state.machine)
  match extended with
  | (.ok, attachments, machine) =>
    -- The old array still names the pages that were copied into the new one.
    let installed : FileMappings :=
      { state with
        attachments := attachments
        machine :=
          releaseBackingPages (object.backingPages.take object.backingPageCount) machine }
    (.ok, installed.modifyObject object.record fun resized =>
      { resized with
        backingPages := pages
        backingPageCount := newBytes / pageSize
        backingBytes := newBytes
        requestedSize := size
        dirty := false })
  | (status, attachments, machine) =>
    (status,
      { state with
        attachments := attachments
        machine := (pages.drop object.backingPageCount).foldl Machine.freePage machine })

def resizeBacking (state : FileMappings) (object : Object) (size : ℕ) :
    Status × FileMappings :=
  let newBytes := alignUpToPage size
  let newPageCount := newBytes / pageSize
  if size = 0 then
    (.invalidArgument, state)
  else if size < object.requestedSize then
    (.notSupported, state)
  else if newBytes = 0 then
    (.invalidArgument, state)
  else if fileMappingViewSlotBytes < newBytes then
    (.noSpace, state)
  else if newBytes ≤ object.backingBytes then
    (.ok, state.modifyObject object.record fun resized => { resized with requestedSize := size })
  else
    match state.machine.heapAlloc with
    | (false, refused) => (.noMemory, { state with machine := refused })
    | (true, served) =>
      match fillBackingPages (newPageCount - object.backingPageCount)
          (object.backingPages.take object.backingPageCount) served with
      | (none, released) => (.noMemory, { state with machine := released })
      | (some pages, filled) =>
        installBacking { state with machine := filled } object size newBytes pages

/-! ## Releasing -/

def releaseObjectIfUnused (state : FileMappings) (record : Slot) : FileMappings :=
  match state.objects.find? fun object => object.record = record with
  | none => state
  | some object =>
    if object.handleCount ≠ 0 ∨ object.attachmentCount ≠ 0 then
      state
    else
      let released := releaseBackingPages (object.backingPages.take object.backingPageCount)
        state.machine
      let pooled := state.objectPool.free released record
      { state with
        objects := state.objects.filter fun other => other.record ≠ record
        objectPool := pooled.1
        machine := pooled.2 }

def releaseAttachment (state : FileMappings) (attachment : Attachment) : FileMappings :=
  let unmapped :=
    if (state.machine.spaces attachment.process).hasRoot then
      (unmap state.machine attachment.process attachment.viewAddress attachment.viewBytes).2
    else
      state.machine
  let pooled := state.attachmentPool.free unmapped attachment.record
  let unlinked : FileMappings :=
    { state with
      attachments := state.attachments.filter fun other => other.record ≠ attachment.record
      attachmentPool := pooled.1
      machine := pooled.2 }
  let detached := unlinked.modifyObject attachment.object fun object =>
    { object with attachmentCount := object.attachmentCount - 1 }
  detached.releaseObjectIfUnused attachment.object

/-! ## Entry points -/

/-- The creating branch of `open_or_create`. -/
def createObject (state : FileMappings) (path : List Char) (size : ℕ) :
    Except Status ℕ × FileMappings :=
  match state.objectPool.allocate state.machine with
  | (none, pool, machine) =>
    (.error .noMemory, { state with objectPool := pool, machine := machine })
  | (some record, pool, machine) =>
    match allocateBacking machine size with
    | (.error status, failed) =>
      let pooled := pool.free failed record
      (.error status,
        { state with
          objectPool := pooled.1
          machine := pooled.2
          nextHandle := state.nextHandle + 1 })
    | (.ok pages, filled) =>
      (.ok state.nextHandle,
        { state with
          objectPool := pool
          machine := filled
          nextHandle := state.nextHandle + 1
          objects := state.objects ++
            [{ record := record
               dirty := false
               handleValue := state.nextHandle
               handleCount := 1
               attachmentCount := 0
               requestedSize := size
               backingBytes := alignUpToPage size
               backingPageCount := alignUpToPage size / pageSize
               backingPages := pages
               filePath := copyPath path }] })

def openOrCreate (state : FileMappings) (path : List Char) (size : ℕ)
    (createWhenMissing : Bool) : Except Status ℕ × FileMappings :=
  if path = [] ∨ size = 0 then
    (.error .invalidArgument, state)
  else
    match state.findObjectByPath path with
    | some object =>
      if createWhenMissing then
        (.error .alreadyExists, state)
      else if object.requestedSize < size then
        (.error .noSpace, state)
      else
        (.ok object.handleValue, state.modifyObject object.record fun opened =>
            { opened with handleCount := (opened.handleCount + 1) % 2 ^ 32 })
    | none =>
      if !createWhenMissing then
        (.error .notFound, state)
      else if fileMappingViewSlotBytes < size then
        (.error .noSpace, state)
      else
        state.createObject path size

def createFileMapping (state : FileMappings) (path : List Char) (size : ℕ) :
    Except Status ℕ × FileMappings :=
  state.openOrCreate path size true

def openFileMapping (state : FileMappings) (path : List Char) (size : ℕ) :
    Except Status ℕ × FileMappings :=
  state.openOrCreate path size false

def closeFileMapping (state : FileMappings) (handle : ℕ) : Status × FileMappings :=
  match state.findObjectByHandle handle with
  | none => (.notFound, state)
  | some object =>
    if object.handleCount = 0 then
      (.notFound, state)
    else
      (.ok, (state.modifyObject object.record fun closed =>
          { closed with handleCount := closed.handleCount - 1 }).releaseObjectIfUnused
            object.record)

/-- The last part of `MapViewOfFile`, once the view slot is chosen. -/
def attachView (state : FileMappings) (process : ℕ) (object : Object)
    (offset mappedBytes slotIndex : ℕ) : Except Status ℕ × FileMappings :=
  match state.attachmentPool.allocate state.machine with
  | (none, pool, machine) =>
    (.error .noMemory, { state with attachmentPool := pool, machine := machine })
  | (some record, pool, machine) =>
    match mapBackingPages machine process (slotAddress slotIndex) object.backingPages
        (offset / pageSize) (mappedBytes / pageSize) with
    | (.ok, mapped) =>
      let linked : FileMappings :=
        { state with
          attachmentPool := pool
          machine := mapped
          attachments := state.attachments ++
            [{ record := record
               slotIndex := slotIndex
               process := process
               object := object.record
               viewAddress := slotAddress slotIndex
               viewBytes := mappedBytes }] }
      (.ok (slotAddress slotIndex), linked.modifyObject object.record fun attached =>
          { attached with attachmentCount := attached.attachmentCount + 1 })
    | (status, failed) =>
      let pooled := pool.free failed record
      (.error status, { state with attachmentPool := pooled.1, machine := pooled.2 })

def mapViewOfFile (state : FileMappings) (process handle offset size : ℕ) :
    Except Status ℕ × FileMappings :=
  let mappedBytes := alignUpToPage size
  if size = 0 then
    (.error .invalidArgument, state)
  else if offset % pageSize ≠ 0 then
    (.error .invalidArgument, state)
  else if mappedBytes = 0 ∨ fileMappingViewSlotBytes < mappedBytes then
    (.error .noSpace, state)
  else
    match state.findObjectByHandle handle with
    | none => (.error .notFound, state)
    | some object =>
      if object.handleCount = 0 then
        (.error .notFound, state)
      else if object.backingBytes ≤ offset ∨ object.backingBytes - offset < mappedBytes then
        (.error .invalidArgument, state)
      else
        match state.findAttachment process object.record with
        | some attachment => (.ok attachment.viewAddress, state)
        | none =>
          match state.reserveViewSlot process with
          | none => (.error .noSpace, state)
          | some slotIndex => state.attachView process object offset mappedBytes slotIndex

def resizeFileMapping (state : FileMappings) (handle size : ℕ) : Status × FileMappings :=
  if size = 0 then
    (.invalidArgument, state)
  else
    match state.findObjectByHandle handle with
    | none => (.notFound, state)
    | some object =>
      if object.handleCount = 0 then
        (.notFound, state)
      else
        state.resizeBacking object size

def unmapViewOfFile (state : FileMappings) (process address : ℕ) : Status × FileMappings :=
  if address = 0 then
    (.invalidArgument, state)
  else
    match state.findAttachmentByView process address with
    | none => (.notFound, state)
    | some attachment => (.ok, state.releaseAttachment attachment)

/-- `release_process_mappings`: the views of the process, in link order. -/
def releaseProcessMappings (state : FileMappings) (process : ℕ) : FileMappings :=
  (state.attachments.filter fun attachment => attachment.process = process).foldl
    releaseAttachment state

/-! ## Runs

The entry points in any order, interleaved with everything the rest of the kernel
may do to physical pages and address spaces. The other holders of pages free,
retain and release only references they hold. -/

/-- One step of the service or of its surroundings. -/
inductive Operation
  | createFileMapping (path : List Char) (size : ℕ)
  | openFileMapping (path : List Char) (size : ℕ)
  | closeFileMapping (handle : ℕ)
  | mapViewOfFile (process handle offset size : ℕ)
  | resizeFileMapping (handle size : ℕ)
  | unmapViewOfFile (process address : ℕ)
  | releaseProcessMappings (process : ℕ)
  | otherAllocPage
  | otherFreePage (phys : ℕ)
  | otherRetainPage (phys : ℕ)
  | otherReservePages (pageCount : ℕ)
  | otherReleasePages (base pageCount : ℕ)
  /-- Some address space is created, changed or destroyed. -/
  | otherSpace (process : ℕ) (space : AddressSpace)

/-- `alloc_page` by another holder. -/
def otherAllocPage (machine : Machine) : Machine :=
  if machine.allocPage.1 = 0 then
    machine.allocPage.2
  else
    { machine.allocPage.2 with otherPages := machine.allocPage.1 :: machine.otherPages }

/-- `free_page` by a holder of the page. -/
def otherFreePage (machine : Machine) (phys : ℕ) : Machine :=
  if phys ∈ machine.otherPages then
    { machine.freePage phys with otherPages := machine.otherPages.erase phys }
  else
    machine

/-- `retain_page` by a holder of the page. -/
def otherRetainPage (machine : Machine) (phys : ℕ) : Machine :=
  if phys ∈ machine.otherPages then
    { machine with
      physical := machine.physical.retainPage phys
      otherPages := phys :: machine.otherPages }
  else
    machine

/-- `release_contiguous_pages` by the only holder of the run. -/
def otherReleasePages (machine : Machine) (base pageCount : ℕ) : Machine :=
  let run := PhysicalMemory.runPages base pageCount
  if run.all fun phys => machine.otherPages.count phys = 1 then
    { machine with
      physical := machine.physical.releaseContiguousPages base pageCount
      otherPages := machine.otherPages.diff run }
  else
    machine

/-- The state after one operation. -/
def perform (state : FileMappings) : Operation → FileMappings
  | .createFileMapping path size => (state.createFileMapping path size).2
  | .openFileMapping path size => (state.openFileMapping path size).2
  | .closeFileMapping handle => (state.closeFileMapping handle).2
  | .mapViewOfFile process handle offset size =>
    (state.mapViewOfFile process handle offset size).2
  | .resizeFileMapping handle size => (state.resizeFileMapping handle size).2
  | .unmapViewOfFile process address => (state.unmapViewOfFile process address).2
  | .releaseProcessMappings process => state.releaseProcessMappings process
  | .otherAllocPage => { state with machine := otherAllocPage state.machine }
  | .otherFreePage phys => { state with machine := otherFreePage state.machine phys }
  | .otherRetainPage phys => { state with machine := otherRetainPage state.machine phys }
  | .otherReservePages pageCount =>
    { state with machine := state.machine.heapAppendGrowth pageCount true }
  | .otherReleasePages base pageCount =>
    { state with machine := otherReleasePages state.machine base pageCount }
  | .otherSpace process space => { state with machine := state.machine.setSpace process space }

/-- The same state with the outcomes of the coming heap allocations fixed. -/
def withHeapCalls (state : FileMappings) (calls : List HeapCall) : FileMappings :=
  { state with machine := { state.machine with heapCalls := calls } }

/-- Geometry of the object pool: `sizeof(FileMappingObject)` and its alignment. -/
def objectLayout : SlotLayout := ⟨336, 8, by decide⟩

/-- Geometry of the attachment pool. -/
def attachmentLayout : SlotLayout := ⟨56, 8, by decide⟩

/-- The empty registry right after `PhysicalMemory::init`. -/
def boot (pool : PagePool) : FileMappings where
  machine :=
    { physical := PhysicalMemory.init pool
      spaces := fun _ => ⟨false, fun _ => .invalid⟩
      heapCalls := []
      otherPages := PhysicalMemory.metadataPages pool }
  objectPool := ⟨objectLayout, [], []⟩
  attachmentPool := ⟨attachmentLayout, [], []⟩
  nextHandle := 1
  objects := []
  attachments := []

/-- States reached from boot by steps that meet the condition. -/
abbrev Reachable (condition : FileMappings → Operation → List HeapCall → Prop) (pool : PagePool) :
    FileMappings → Prop :=
  Runs.Reachable (· = boot pool)
    (fun state (call : Operation × List HeapCall) =>
      some ((state.withHeapCalls call.2).perform call.1))
    fun state call => condition state call.1 call.2

end FileMappings

end RosKernel.Memory
