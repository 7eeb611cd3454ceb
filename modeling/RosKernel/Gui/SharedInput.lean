import RosKernel.Library.ByteMemory

/-!
# The shared input region

`gui_service.cpp` keeps one 64 KiB region in contiguous pages, maps it writable
into every attached process and publishes input events into it. The layout is
that of `kernel_gui__.h`: a header, a ring of records and a table of consumers,
the last two wherever the header says they are. The kernel reads the header
through the same bytes a process may write.

Accesses go through the translation in force. A dereference that does not
translate aborts, and so does the remainder by a zero capacity.
-/

namespace RosKernel.Gui

open ByteMemory

/-- Physical bytes. -/
abbrev Memory := ℕ → UInt8

/-- `GuiSharedInputViewBytes`. -/
def viewBytes : ℕ := 65536

/-- `sizeof(RosKernelGuiSharedInputRecord)`. -/
def recordBytes : ℕ := 48

/-- `sizeof(RosKernelGuiSharedInputConsumer)`. -/
def consumerBytes : ℕ := 32

/-- `ROS_KERNEL_GUI_SHARED_INPUT_CAPACITY`. -/
def ringCapacity : ℕ := 64

/-- The region in the kernel's address space, as `gui_shared_input_ensure_region`
leaves it: contiguous addresses over contiguous pages. -/
structure Window where
  /-- `g_gui_shared_input_region_ptr`. -/
  base : ℕ
  /-- `g_gui_shared_input_phys`. -/
  phys : ℕ
  /-- The translation in force for kernel accesses. -/
  translate : ℕ → Option ℕ
  fits : base + viewBytes ≤ 2 ^ 64
  /-- The region's addresses reach its backing pages. -/
  mapped : ∀ offset < viewBytes, translate (base + offset) = some (phys + offset)

/-- Why a publication does not finish. -/
inductive Fault
  | divisionByZero
  | dataAbort (address : ℕ)
  | outOfSteps
  deriving DecidableEq

/-- A field of a structure in memory. -/
structure Field where
  offset : ℕ
  width : ℕ

/-! ## Header fields -/

def maxConsumers : Field := ⟨6, 2⟩

def capacity : Field := ⟨8, 4⟩

def recordSize : Field := ⟨12, 4⟩

def consumerSize : Field := ⟨16, 4⟩

def recordsOffset : Field := ⟨20, 4⟩

def consumersOffset : Field := ⟨24, 4⟩

def tailSequence : Field := ⟨32, 8⟩

def producedCount : Field := ⟨40, 8⟩

def overflowCount : Field := ⟨48, 8⟩

def pointerEventCount : Field := ⟨56, 8⟩

def keyEventCount : Field := ⟨64, 8⟩

def lastPointerState : Field := ⟨72, 16⟩

/-- The arguments of `publish_input_event`. -/
structure InputEvent where
  /-- `type`. -/
  kind : ℕ
  x : ℕ
  y : ℕ
  key : ℕ
  buttons : ℕ

/-- `ROS_KERNEL_GUI_INPUT_EVENT_KEY_DOWN` or `..._KEY_UP`. -/
def InputEvent.isKey (event : InputEvent) : Bool :=
  event.kind == 5 || event.kind == 6

/-- One call of `service_kernel_ipc_notify` by `gui_notify_shared_input_consumer`. -/
structure Notification where
  pid : ℕ
  nextSequence : ℕ
  /-- `type`. -/
  kind : ℕ
  deriving DecidableEq

/-! ## Memory accesses -/

/-- The translation with 64-bit addresses. -/
def Window.translation (window : Window) : Translation ℕ ℕ where
  next := fun address => (address + 1) % 2 ^ 64
  translate := window.translate

/-- Load consecutive bytes. -/
def loadBytes (window : Window) (address count : ℕ) (memory : Memory) :
    Except Fault (List UInt8) :=
  match window.translation.cells address count with
  | none => .error (.dataAbort address)
  | some cells => .ok (read cells memory)

/-- Store consecutive bytes. -/
def storeBytes (window : Window) (address : ℕ) (bytes : List UInt8) (memory : Memory) :
    Except Fault Memory :=
  match window.translation.cells address bytes.length with
  | none => .error (.dataAbort address)
  | some cells => .ok (write cells bytes memory)

/-- Load a header field. -/
def loadField (window : Window) (field : Field) (memory : Memory) : Except Fault ℕ :=
  (loadBytes window (window.base + field.offset) field.width memory).map decode

/-- Store a header field. -/
def storeField (window : Window) (field : Field) (value : ℕ) (memory : Memory) :
    Except Fault Memory :=
  storeBytes window (window.base + field.offset) (encode field.width value) memory

/-- `++` on a header counter. -/
def incrementField (window : Window) (field : Field) (memory : Memory) :
    Except Fault Memory := do
  let value ← loadField window field memory
  storeField window field (value + 1) memory

/-! ## Publication -/

/-- The field assignments to a record, which run through it in address order. -/
def recordImage (sequence uptime : ℕ) (event : InputEvent) : List UInt8 :=
  encode 8 sequence ++ encode 4 uptime ++ encode 4 0 ++
    -- `event`: version, type, x, y, key, buttons, reserved
    encode 4 1 ++ encode 4 event.kind ++ encode 4 event.x ++ encode 4 event.y ++
    encode 4 event.key ++ encode 4 event.buttons ++ encode 4 0 ++ encode 4 0

/-- The assignments to `last_pointer_state`. -/
def pointerImage (event : InputEvent) : List UInt8 :=
  encode 4 event.x ++ encode 4 event.y ++ encode 4 (if event.buttons ≠ 0 then 1 else 0) ++
    encode 4 1

/-- `ros_kernel_gui_shared_input_record_at`. -/
def recordAt (window : Window) (index : ℕ) (memory : Memory) : Except Fault ℕ := do
  let offset ← loadField window recordsOffset memory
  let size ← loadField window recordSize memory
  pure ((window.base + offset + index * size) % 2 ^ 64)

/-- `ros_kernel_gui_shared_input_consumer_at`. -/
def consumerAt (window : Window) (index : ℕ) (memory : Memory) : Except Fault ℕ := do
  let offset ← loadField window consumersOffset memory
  let size ← loadField window consumerSize memory
  pure ((window.base + offset + index * size) % 2 ^ 64)

/-- The first part of `publish_input_event`: fill the slot of the next record. -/
def storeRecord (window : Window) (uptime : ℕ) (event : InputEvent) (memory : Memory) :
    Except Fault (ℕ × Memory) := do
  let sequence ← loadField window tailSequence memory
  let ring ← loadField window capacity memory
  if ring = 0 then
    throw .divisionByZero
  let record ← recordAt window (sequence % ring % 2 ^ 32) memory
  let stored ← storeBytes window record (recordImage sequence uptime event) memory
  pure (sequence, stored)

/-- The counters of `publish_input_event`. -/
def countEvent (window : Window) (event : InputEvent) (memory : Memory) :
    Except Fault Memory :=
  if event.isKey then
    incrementField window keyEventCount memory
  else do
    let counted ← incrementField window pointerEventCount memory
    storeBytes window (window.base + lastPointerState.offset) (pointerImage event) counted

/-- The second part of `publish_input_event`: counters, then the new tail. -/
def updateHeader (window : Window) (event : InputEvent) (sequence : ℕ) (memory : Memory) :
    Except Fault Memory := do
  let counted ← countEvent window event memory
  let ring ← loadField window capacity counted
  let overflowed ←
    (if ring ≤ sequence then incrementField window overflowCount counted else pure counted)
  let produced ← storeField window producedCount (sequence + 1) overflowed
  storeField window tailSequence (sequence + 1) produced

/-- The test of the consumer loop: the process to notify, when the consumer waits for this
record. A consumer without a process is not read any further. -/
def waitingConsumer (window : Window) (consumer sequence : ℕ) (memory : Memory) :
    Except Fault (Option ℕ) := do
  let pid ← loadBytes window consumer 4 memory
  if decode pid = 0 then
    pure none
  else
    let head ← loadBytes window ((consumer + 8) % 2 ^ 64) 8 memory
    pure (if decode head = sequence then some (decode pid) else none)

/-- The last part of `publish_input_event`: notify the consumers that were waiting
for this record. What the notifications write is not in this memory. -/
def walkConsumers (window : Window) (memory : Memory) (sequence kind : ℕ) :
    ℕ → ℕ → Except Fault (List Notification)
  | 0, _ => .error .outOfSteps
  | steps + 1, index => do
    let limit ← loadField window maxConsumers memory
    if index < limit then
      let consumer ← consumerAt window index memory
      let waiting ← waitingConsumer window consumer sequence memory
      let later ← walkConsumers window memory sequence kind steps (index + 1)
      pure ((waiting.map (⟨·, (sequence + 1) % 2 ^ 64, kind⟩)).toList ++ later)
    else
      pure []

/-- The steps the consumer loop may take: `max_consumers` is a 16-bit field. -/
def walkLimit : ℕ := 2 ^ 16

/-- `publish_input_event` on an existing region. -/
def publishInputEvent (window : Window) (uptime : ℕ) (event : InputEvent) (memory : Memory) :
    Except Fault (Memory × List Notification) := do
  let (sequence, stored) ← storeRecord window uptime event memory
  let updated ← updateHeader window event sequence stored
  let notifications ← walkConsumers window updated sequence event.kind walkLimit 0
  pure (updated, notifications)

end RosKernel.Gui
