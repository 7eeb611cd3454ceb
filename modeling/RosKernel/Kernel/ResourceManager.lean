import RosKernel.Library.LinkedList
import RosKernel.Library.Runs
import RosKernel.Status
import Mathlib.Algebra.Group.Nat.Defs

/-!
# The kernel resource registry

`KernelResourceManager` (`resource_manager.cpp`) keeps one record for each tracked resource in
a doubly linked list, with live counts and bytes for each kind. `track_external`, `untrack`
and the list part of `release` hold the interrupt lock and are one step each; `allocate` drops
it after `init`, so its calls into the heap, its search and its append are steps between which
other threads run.
-/

namespace RosKernel.ResourceManager

/-- `KernelResourceKind`; `count` is the first value that is no kind. -/
inductive KernelResourceKind
  | loaderStackBacking
  | loaderImageBacking
  | loaderModuleRecord
  | loaderSharedImageRecord
  | loaderImageCachePayload
  | loaderImageCacheRecord
  | userHeapAllocationRecord
  | userHeapMappedPageRecord
  | guiSurfaceRecord
  | guiSurfaceBacking
  | fileMappingBacking
  | count
  deriving DecidableEq

structure KernelResourceStats where
  liveCount : ℕ
  peakCount : ℕ
  liveBytes : ℕ
  peakBytes : ℕ
  deriving DecidableEq

/-- `KernelResourceRecord` without its links. -/
structure KernelResourceRecord where
  kind : KernelResourceKind
  ownsMemory : Bool
  size : ℕ
  ownerId : ℕ
  address : ℕ
  label : List UInt8
  deriving DecidableEq

/-- The globals of the manager, and the memory its records live in. -/
structure Registry where
  initialized : Bool
  /-- Head, tail and links by record address; the counter is not in the source. -/
  links : Links ℕ
  records : ℕ → KernelResourceRecord
  stats : KernelResourceKind → KernelResourceStats

/-- Range of `Size`. -/
def sizeRange : ℕ := 2 ^ 64

/-- `resource_copy_label`: a label keeps 39 characters. -/
def copyLabel (label : List UInt8) : List UInt8 := label.take 39

namespace KernelResourceStats

/-- The counters after one more record. -/
def add (stats : KernelResourceStats) (size : ℕ) : KernelResourceStats :=
  let liveCount := (stats.liveCount + 1) % sizeRange
  let liveBytes := (stats.liveBytes + size) % sizeRange
  { liveCount
    peakCount := if stats.peakCount < liveCount then liveCount else stats.peakCount
    liveBytes
    peakBytes := if stats.peakBytes < liveBytes then liveBytes else stats.peakBytes }

/-- The counters after one record less. -/
def remove (stats : KernelResourceStats) (size : ℕ) : KernelResourceStats :=
  { stats with
    liveCount := if stats.liveCount ≠ 0 then stats.liveCount - 1 else stats.liveCount
    liveBytes := if size ≤ stats.liveBytes then stats.liveBytes - size else 0 }

end KernelResourceStats

namespace Registry

/-- The registry in zeroed storage. -/
def zeroed : Registry where
  initialized := false
  links := Links.empty
  records := fun _ => ⟨.count, false, 0, 0, 0, []⟩
  stats := fun _ => ⟨0, 0, 0, 0⟩

/-- Change the counters of one kind. -/
def updateStats (registry : Registry) (kind : KernelResourceKind)
    (change : KernelResourceStats → KernelResourceStats) : Registry :=
  { registry with stats := Function.update registry.stats kind (change (registry.stats kind)) }

def init (registry : Registry) : Registry :=
  if registry.initialized then registry
  else
    { registry with
      initialized := true
      links := { registry.links with head := none, tail := none, size := 0 }
      stats := fun _ => ⟨0, 0, 0, 0⟩ }

/-- `resource_link_record`, run without a switch. -/
def linkRecord (registry : Registry) (record : ℕ) : Registry :=
  { registry with links := registry.links.append record }.updateStats
    (registry.records record).kind (·.add (registry.records record).size)

/-- `resource_unlink_record`. -/
def unlinkRecord (registry : Registry) (record : ℕ) : Registry :=
  { registry with links := registry.links.remove record }.updateStats
    (registry.records record).kind (·.remove (registry.records record).size)

/-- `resource_find_record` from one record on, with the number of records it may visit. -/
def findRecord (registry : Registry) (address : ℕ) : ℕ → Option ℕ → Option (Option ℕ)
  | _, none => some none
  | 0, some _ => none
  | fuel + 1, some record =>
    if (registry.records record).address = address then some (some record)
    else findRecord registry address fuel (registry.links.next record)

/-- Fill a record. -/
def writeRecord (registry : Registry) (place : ℕ) (record : KernelResourceRecord) : Registry :=
  { registry with records := Function.update registry.records place record }

end Registry

/-! ## The append as a sequence of memory accesses -/

/-- Where a thread stands in `resource_link_record`, with the values it has loaded. -/
inductive LinkStage
  | enter
  | attach
  | attachTo (tail : Option ℕ)
  | publish
  | loadCount
  | storeCount (value : ℕ)
  | loadBytes
  | storeBytes (value : ℕ)
  | loadPeakCount
  | storePeakCount (value : ℕ)
  | loadPeakBytes
  | storePeakBytes (value : ℕ)
  deriving DecidableEq

/-- The next access of `resource_link_record`, and the stage it leads to. -/
def linkStep (registry : Registry) (record : ℕ) : LinkStage → Registry × Option LinkStage
  | .enter =>
    ({ registry with
        links := (registry.links.setPrev record registry.links.tail).setNext record none },
      some .attach)
  | .attach => (registry, some (.attachTo registry.links.tail))
  | .attachTo (some last) =>
    ({ registry with links := registry.links.setNext last (some record) }, some .publish)
  | .attachTo none =>
    ({ registry with links := { registry.links with head := some record } }, some .publish)
  | .publish =>
    ({ registry with
        links := { registry.links with tail := some record, size := registry.links.size + 1 } },
      some .loadCount)
  | .loadCount =>
    (registry, some (.storeCount (registry.stats (registry.records record).kind).liveCount))
  | .storeCount value =>
    (registry.updateStats (registry.records record).kind
        ({ · with liveCount := (value + 1) % sizeRange }),
      some .loadBytes)
  | .loadBytes =>
    (registry, some (.storeBytes (registry.stats (registry.records record).kind).liveBytes))
  | .storeBytes value =>
    (registry.updateStats (registry.records record).kind
        ({ · with liveBytes := (value + (registry.records record).size) % sizeRange }),
      some .loadPeakCount)
  | .loadPeakCount =>
    let stats := registry.stats (registry.records record).kind
    if stats.peakCount < stats.liveCount then (registry, some (.storePeakCount stats.liveCount))
    else (registry, some .loadPeakBytes)
  | .storePeakCount value =>
    (registry.updateStats (registry.records record).kind ({ · with peakCount := value }),
      some .loadPeakBytes)
  | .loadPeakBytes =>
    let stats := registry.stats (registry.records record).kind
    if stats.peakBytes < stats.liveBytes then (registry, some (.storePeakBytes stats.liveBytes))
    else (registry, none)
  | .storePeakBytes value =>
    (registry.updateStats (registry.records record).kind ({ · with peakBytes := value }), none)

/-! ## Threads -/

/-- What a caller asks to track. -/
structure Request where
  kind : KernelResourceKind
  size : ℕ
  ownerId : ℕ
  label : List UInt8
  deriving DecidableEq

/-- The record for a request. -/
def Request.record (request : Request) (address : ℕ) (ownsMemory : Bool) :
    KernelResourceRecord :=
  ⟨request.kind, ownsMemory, request.size, request.ownerId, address, copyLabel request.label⟩

/-- The argument check of `resource_register_record` fails. -/
def Request.Invalid (request : Request) (address : ℕ) : Prop :=
  request.kind = .count ∨ address = 0 ∨ request.size = 0

instance (request : Request) (address : ℕ) : Decidable (request.Invalid address) :=
  inferInstanceAs (Decidable (_ ∨ _ ∨ _))

/-- Where a thread stands between two locked sections. -/
inductive Progress
  | idle
  /-- In `allocate`, before `Heap::alloc`. -/
  | allocating (request : Request)
  /-- At the start of `resource_register_record`. -/
  | registering (request : Request) (address : ℕ)
  /-- In `resource_find_record`, about to test the loop condition and the record's address. -/
  | searching (request : Request) (address : ℕ) (cursor : Option ℕ)
  /-- In `resource_find_record`, about to load the record's successor. -/
  | advancing (request : Request) (address record : ℕ)
  /-- About to allocate and fill the record. -/
  | recording (request : Request) (address : ℕ)
  /-- In `resource_link_record`. -/
  | linking (address record : ℕ) (stage : LinkStage)
  /-- In `allocate`, about to free the payload of a failed registration. -/
  | undoing (address : ℕ)
  /-- In `release`, about to free the payload. -/
  | releasing (address : ℕ)
  deriving DecidableEq

/-- A resource a caller may use: `allocate` or `track_external` succeeded for it, and no
`untrack` or `release` followed. -/
structure LiveResource where
  address : ℕ
  kind : KernelResourceKind
  size : ℕ
  ownsMemory : Bool
  deriving DecidableEq

/-- The resource a record stands for. -/
def KernelResourceRecord.resource (record : KernelResourceRecord) : LiveResource :=
  ⟨record.address, record.kind, record.size, record.ownsMemory⟩

/-- The manager, the heap blocks it holds and every thread's place in it. -/
structure State where
  registry : Registry
  blocks : List ℕ
  progress : ℕ → Progress
  /-- The resources as the callers know them, in the order of tracking. -/
  live : List LiveResource

namespace State

/-- Nothing tracked, no thread in the manager. -/
def boot : State := ⟨.zeroed, [], fun _ => .idle, []⟩

/-- Move one thread. -/
def setProgress (state : State) (thread : ℕ) (progress : Progress) : State :=
  { state with progress := Function.update state.progress thread progress }

/-- `Heap::free`. -/
def heapFree (state : State) (address : ℕ) : State :=
  { state with blocks := state.blocks.filter (· ≠ address) }

/-- An answer `Heap::alloc` may give: `NULL`, or an address of no live block. -/
def HeapAnswers (state : State) (answer : ℕ) : Prop :=
  answer = 0 ∨ answer < 2 ^ 64 ∧ answer ∉ state.blocks

instance (state : State) (answer : ℕ) : Decidable (state.HeapAnswers answer) :=
  inferInstanceAs (Decidable (_ ∨ _ ∧ _))

/-- A resource becomes known to its caller. -/
def track (state : State) (resource : LiveResource) : State :=
  { state with live := state.live ++ [resource] }

/-- A resource is given up by its caller. -/
def forget (state : State) (address : ℕ) : State :=
  { state with live := state.live.filter (·.address ≠ address) }

/-- `resource_register_record` under the lock; `none` if the search does not end within the
fuel. -/
def registerRecord (state : State) (request : Request) (address : ℕ) (ownsMemory : Bool)
    (fuel answer : ℕ) : Option (Status × State) :=
  if request.Invalid address then some (.invalidArgument, state)
  else
    match state.registry.findRecord address fuel state.registry.links.head with
    | none => none
    | some (some _) => some (.alreadyExists, state)
    | some none =>
      if answer = 0 then some (.noMemory, state)
      else
        some (.ok, { state with
          registry :=
            (state.registry.writeRecord answer (request.record address ownsMemory)).linkRecord
              answer
          blocks := answer :: state.blocks })

def trackExternal (state : State) (request : Request) (address fuel answer : ℕ) :
    Option (Status × State) :=
  { state with registry := state.registry.init }.registerRecord request address false fuel answer

def untrack (state : State) (kind : KernelResourceKind) (address fuel : ℕ) :
    Option (Status × State) :=
  if kind = .count ∨ address = 0 then some (.invalidArgument, state)
  else
    match state.registry.findRecord address fuel state.registry.links.head with
    | none => none
    | some none => some (.notFound, state)
    | some (some record) =>
      if (state.registry.records record).kind ≠ kind then some (.notFound, state)
      else
        some (.ok, { state with registry := state.registry.unlinkRecord record }.heapFree record)

/-- The locked part of `KernelResourceManager::release`, and whether the payload is to be
freed. -/
def release (state : State) (address fuel : ℕ) : Option (Bool × State) :=
  if address = 0 then some (false, state)
  else
    match state.registry.findRecord address fuel state.registry.links.head with
    | none => none
    | some none => some (false, state)
    | some (some record) =>
      some ((state.registry.records record).ownsMemory,
        { state with registry := state.registry.unlinkRecord record }.heapFree record)

/-- One step of a thread inside `allocate`, or the last of `release`; `answer` is the heap's
answer to a request the step makes. -/
def advance (state : State) (thread answer : ℕ) : Option State :=
  match state.progress thread with
  | .idle => none
  | .allocating request =>
    if answer = 0 then some (state.setProgress thread .idle)
    else
      some ({ state with blocks := answer :: state.blocks }.setProgress thread
        (.registering request answer))
  | .registering request address =>
    if request.Invalid address then some (state.setProgress thread (.undoing address))
    else
      some (state.setProgress thread (.searching request address state.registry.links.head))
  | .searching request address none =>
    some (state.setProgress thread (.recording request address))
  | .searching request address (some record) =>
    if (state.registry.records record).address = address then
      some (state.setProgress thread (.undoing address))
    else some (state.setProgress thread (.advancing request address record))
  | .advancing request address record =>
    some (state.setProgress thread (.searching request address (state.registry.links.next record)))
  | .recording request address =>
    if answer = 0 then some (state.setProgress thread (.undoing address))
    else
      some ({ state with
        registry := state.registry.writeRecord answer (request.record address true)
        blocks := answer :: state.blocks }.setProgress thread (.linking address answer .enter))
  | .linking address record stage =>
    match linkStep state.registry record stage with
    | (registry, some next) =>
      some ({ state with registry }.setProgress thread (.linking address record next))
    | (registry, none) =>
      -- `allocate` returns the address
      some (({ state with registry }.track (registry.records record).resource).setProgress
        thread .idle)
  | .undoing address => some ((state.heapFree address).setProgress thread .idle)
  | .releasing address => some ((state.heapFree address).setProgress thread .idle)

end State

/-- What a thread does next. -/
inductive Action
  | allocate (thread : ℕ) (request : Request)
  | trackExternal (thread : ℕ) (request : Request) (address fuel answer : ℕ)
  | untrack (thread : ℕ) (kind : KernelResourceKind) (address fuel : ℕ)
  | release (thread : ℕ) (address fuel : ℕ)
  | advance (thread answer : ℕ)

/-- One action; `none` if it is not possible now. -/
def perform (state : State) : Action → Option State
  | .allocate thread request =>
    if state.progress thread = .idle then
      some ({ state with registry := state.registry.init }.setProgress thread (.allocating request))
    else none
  | .trackExternal thread request address fuel answer =>
    if state.progress thread = .idle ∧ state.HeapAnswers answer then
      (state.trackExternal request address fuel answer).map fun (status, later) =>
        if status = .ok then later.track (request.record address false).resource else later
    else none
  | .untrack thread kind address fuel =>
    if state.progress thread = .idle then
      (state.untrack kind address fuel).map fun (status, later) =>
        if status = .ok then later.forget address else later
    else none
  | .release thread address fuel =>
    if state.progress thread = .idle then
      (state.release address fuel).map fun (ownsMemory, later) =>
        (later.forget address).setProgress thread (if ownsMemory then .releasing address else .idle)
    else none
  | .advance thread answer =>
    if state.HeapAnswers answer then state.advance thread answer else none

/-- States reached by actions that meet a condition. -/
abbrev Reachable := Runs.Reachable (· = .boot) perform

end RosKernel.ResourceManager
