import Mathlib.Data.Nat.Bitwise
import RosKernel.Status

/-!
# Kernel event records and subscriptions

The records the event broker publishes, the filter a subscription carries and
the ring in which a subscriber keeps the records it has not read. Text fields
hold the characters before the terminator.
-/

namespace RosKernel

/-- Characters of a kernel text before its terminator. -/
abbrev Text := List Char

/-- Copy into a fixed buffer, leaving room for the terminator. -/
def copyText (capacity : ℕ) (source : Text) : Text :=
  source.take (capacity - 1)

/-- Copy into an object's name buffer, or the fallback when there is no name. -/
def copyTextOr (capacity : ℕ) (source fallback : Text) : Text :=
  copyText capacity (if source = [] then fallback else source)

/-- Every text starts with the empty prefix. -/
def textHasPrefix (text start : Text) : Bool :=
  start.isPrefixOf text

inductive ThreadState
  | initialized
  | ready
  | running
  | waiting
  | suspended
  | terminated
  deriving DecidableEq

inductive ProcessState
  | created
  | running
  | exiting
  | terminated
  deriving DecidableEq

abbrev ThreadId := ℕ
abbrev ProcessId := ℕ
abbrev SubscriptionId := ℕ

namespace EventFamily

def process : ℕ := 1
def thread : ℕ := 2
def filesystem : ℕ := 4
def registration : ℕ := 8
def module : ℕ := 16
/-- `KERNEL_EVENT_FAMILY_ALL`. -/
def all : ℕ := process ||| thread ||| filesystem ||| registration ||| module

end EventFamily

/-- The published members of `KernelEventType`. -/
inductive KernelEventType
  | processCreated
  | processExited
  | threadCreated
  | threadExited
  | threadReady
  | threadRunning
  | filesystemCreated
  | filesystemRemoved
  | deviceRegistered
  | driverRegistered
  | filesystemDriverRegistered
  deriving DecidableEq

/-- `KernelEventRegistrationKind`. -/
inductive RegistrationKind
  | none
  | device
  | driver
  | filesystemDriver
  deriving DecidableEq

def registrationKindForType : KernelEventType → RegistrationKind
  | .deviceRegistered => .device
  | .driverRegistered => .driver
  | .filesystemDriverRegistered => .filesystemDriver
  | _ => .none

/-- `KernelEventPayload`, one constructor for each family that is published. -/
inductive KernelEventPayload
  | process
      (parentProcessId exitCode : ℕ)
      (processState : ProcessState)
      (kernel permanent : Bool)
  | thread
      (parentProcessId : ℕ)
      (previousState currentState : ThreadState)
      (priority : ℕ)
  | filesystem (nodeType : ℕ)
  | registration (kind : RegistrationKind)
  deriving DecidableEq

structure KernelEventRecord where
  sequence : ℕ
  uptimeMsec : ℕ
  family : ℕ
  type : KernelEventType
  status : Status
  sourceProcessId : ℕ
  sourceThreadId : ℕ
  sourceObjectId : ℕ
  name : Text
  path : Text
  payload : KernelEventPayload
  deriving DecidableEq

def eventNameCapacity : ℕ := 64
def eventPathCapacity : ℕ := 160
def eventQueueInitialCapacity : ℕ := 16
def eventQueueMaxCapacity : ℕ := 1024
def eventAbiVersion : ℕ := 1

/-- `KernelEventSubscriptionRequest`. -/
structure SubscriptionRequest where
  version : ℕ
  flags : ℕ
  familyMask : ℕ
  processId : ℕ
  threadId : ℕ
  namePrefix : Text
  pathPrefix : Text
  deriving DecidableEq

/-- `EventSubscriber` without its list links, which the registry keeps. -/
structure EventSubscriber where
  ownerProcessId : ℕ
  request : SubscriptionRequest
  queue : List KernelEventRecord
  queueCapacity : ℕ
  readIndex : ℕ
  writeIndex : ℕ
  queuedCount : ℕ
  droppedCount : ℕ
  newestSequence : ℕ
  waitingThread : Option ThreadId
  deriving DecidableEq

/-- `subscription_matches`: family, source identifiers and text prefixes. -/
def subscriptionMatches (request : SubscriptionRequest) (record : KernelEventRecord) : Bool :=
  (record.family &&& request.familyMask) != 0 &&
    (request.processId == 0 || record.sourceProcessId == request.processId) &&
    (request.threadId == 0 || record.sourceThreadId == request.threadId) &&
    textHasPrefix record.name request.namePrefix &&
    textHasPrefix record.path request.pathPrefix

namespace EventSubscriber

/-- The doubling loop of `reserve_queue_capacity`; thirty-two rounds exceed any
32-bit capacity. -/
def growCapacity (target : ℕ) : ℕ → ℕ → ℕ
  | 0, grown => grown
  | rounds + 1, grown =>
    if grown < target then
      if grown > (2 ^ 32 - 1) / 2 then target
      else growCapacity target rounds
        (if grown * 2 > eventQueueMaxCapacity then eventQueueMaxCapacity
         else grown * 2)
    else grown

/-- The record stored in one ring slot. -/
def slot (subscriber : EventSubscriber) (index : ℕ) : Option KernelEventRecord :=
  subscriber.queue[index]?

/-- Queued records, oldest first. -/
def queuedRecords (subscriber : EventSubscriber) : List KernelEventRecord :=
  (List.range subscriber.queuedCount).filterMap fun index =>
    subscriber.slot ((subscriber.readIndex + index) % subscriber.queueCapacity)

/-- The record that fills the slots of a fresh queue until they are written. -/
def blankRecord : KernelEventRecord where
  sequence := 0
  uptimeMsec := 0
  family := 0
  type := .processCreated
  status := .ok
  sourceProcessId := 0
  sourceThreadId := 0
  sourceObjectId := 0
  name := []
  path := []
  payload := .filesystem 0

/-- Move the queued records to the front of a larger ring. -/
def relocate (subscriber : EventSubscriber) (capacity : ℕ) : EventSubscriber :=
  { subscriber with
    queue := subscriber.queuedRecords ++
      List.replicate (capacity - subscriber.queuedRecords.length) blankRecord
    queueCapacity := capacity
    readIndex := 0
    writeIndex := subscriber.queuedCount }

/-- Whether `reserve_queue_capacity` reaches its heap allocation. -/
def needsAllocation (subscriber : EventSubscriber) (required : ℕ) : Bool :=
  subscriber.queueCapacity < required &&
    subscriber.queueCapacity < min required eventQueueMaxCapacity

/-- `reserve_queue_capacity`; `allocated` is the outcome of the heap call. -/
def reserveQueueCapacity (subscriber : EventSubscriber) (required : ℕ)
    (allocated : Bool) : Status × EventSubscriber :=
  if required ≤ subscriber.queueCapacity then (.ok, subscriber)
  else
    let target := min required eventQueueMaxCapacity
    if target ≤ subscriber.queueCapacity then (.noSpace, subscriber)
    else
      let initial :=
        if subscriber.queueCapacity = 0 then eventQueueInitialCapacity
        else subscriber.queueCapacity
      if allocated then
        (.ok, subscriber.relocate (growCapacity target 32 initial))
      else (.noMemory, subscriber)

/-- Count one lost record. -/
def countDropped (subscriber : EventSubscriber) : EventSubscriber :=
  { subscriber with droppedCount := subscriber.droppedCount + 1 }

/-- Give up the oldest record of a full ring. -/
def discardOldest (subscriber : EventSubscriber) : EventSubscriber :=
  { subscriber with
    readIndex := (subscriber.readIndex + 1) % subscriber.queueCapacity
    queuedCount := subscriber.queuedCount - 1 }

/-- Store a record in the write slot. -/
def appendRecord (subscriber : EventSubscriber) (record : KernelEventRecord) : EventSubscriber :=
  { subscriber with
    queue := subscriber.queue.set subscriber.writeIndex record
    writeIndex := (subscriber.writeIndex + 1) % subscriber.queueCapacity
    queuedCount := subscriber.queuedCount + 1
    newestSequence := record.sequence }

/-- The ring update of `enqueue_record`; the flag says whether a record was
stored, which is when the waiter is woken. -/
def storeRecord (subscriber : EventSubscriber) (record : KernelEventRecord)
    (allocated : Bool) : Bool × EventSubscriber :=
  let (status, reserved) := subscriber.reserveQueueCapacity (subscriber.queuedCount + 1) allocated
  if status ≠ .ok ∧ reserved.queueCapacity = 0 then
    (false, reserved.countDropped)
  else
    let counted :=
      if status = .noSpace ∧ reserved.queueCapacity ≠ 0 then reserved.countDropped
      else reserved
    let vacated :=
      if counted.queuedCount = counted.queueCapacity then
        if status ≠ .noSpace then counted.discardOldest.countDropped
        else counted.discardOldest
      else counted
    (true, vacated.appendRecord record)

/-- Take the oldest record out of the ring. -/
def takeOldest (subscriber : EventSubscriber) : EventSubscriber :=
  { subscriber with
    readIndex := (subscriber.readIndex + 1) % subscriber.queueCapacity
    queuedCount := subscriber.queuedCount - 1 }

/-- The copy loop of `KernelEventBroker::read`. -/
def readRecords :
    ℕ → EventSubscriber → List KernelEventRecord × EventSubscriber
  | 0, subscriber => ([], subscriber)
  | count + 1, subscriber =>
    let (records, rest) := readRecords count subscriber.takeOldest
    ((subscriber.slot subscriber.readIndex).toList ++ records, rest)

/-! ## What the ring operations leave alone -/

/-- Owner, filter and waiter of a subscription. -/
def identity (subscriber : EventSubscriber) :
    ℕ × SubscriptionRequest × Option ThreadId :=
  (subscriber.ownerProcessId, subscriber.request, subscriber.waitingThread)

section

variable (subscriber : EventSubscriber)
include subscriber

@[simp] theorem identity_reserveQueueCapacity (required : ℕ) (allocated : Bool) :
    (subscriber.reserveQueueCapacity required allocated).2.identity = subscriber.identity := by
  unfold reserveQueueCapacity
  dsimp only
  split_ifs <;> rfl

@[simp] theorem queuedCount_reserveQueueCapacity (required : ℕ) (allocated : Bool) :
    (subscriber.reserveQueueCapacity required allocated).2.queuedCount =
      subscriber.queuedCount := by
  unfold reserveQueueCapacity
  dsimp only
  split_ifs <;> rfl

@[simp] theorem identity_storeRecord (record : KernelEventRecord) (allocated : Bool) :
    (subscriber.storeRecord record allocated).2.identity = subscriber.identity := by
  unfold storeRecord
  dsimp only
  split_ifs <;> exact identity_reserveQueueCapacity _ _ _

end

/-- A record that is not stored leaves the number of queued records unchanged. -/
theorem queuedCount_storeRecord_of_dropped
    {subscriber updated : EventSubscriber} {record : KernelEventRecord} {allocated : Bool}
    (dropped : subscriber.storeRecord record allocated = (false, updated)) :
    updated.queuedCount = subscriber.queuedCount := by
  unfold storeRecord at dropped
  dsimp only at dropped
  split at dropped
  · cases dropped
    exact queuedCount_reserveQueueCapacity _ _ _
  · cases dropped

@[simp] theorem identity_readRecords (count : ℕ) (subscriber : EventSubscriber) :
    (readRecords count subscriber).2.identity = subscriber.identity := by
  induction count generalizing subscriber with
  | zero => rfl
  | succ _ ih => exact ih subscriber.takeOldest

theorem queuedCount_readRecords_le (count : ℕ) (subscriber : EventSubscriber) :
    (readRecords count subscriber).2.queuedCount ≤ subscriber.queuedCount := by
  induction count generalizing subscriber with
  | zero => exact le_rfl
  | succ _ ih => exact (ih subscriber.takeOldest).trans (Nat.sub_le _ _)

end EventSubscriber

end RosKernel
