import RosKernel.Gui.SharedInput

/-!
# What a publication can touch

The kernel takes the place of the record slot and of the consumer table from bytes that every
attached process may write. A publication finishes and writes nothing but the region exactly when
those bytes place the record slot among the region's own bytes and the consumer table in mapped
memory where nobody waits: a notification goes to the message broker, which writes state of its
own.
-/

namespace RosKernel.Gui

open List Function ByteMemory

variable {window : Window} {uptime : ℕ} {event : InputEvent} {memory other after : Memory}

/-! ## The region's own bytes -/

/-- The cell lies in the region's backing pages. -/
def InRegion (window : Window) (cell : ℕ) : Prop :=
  window.phys ≤ cell ∧ cell < window.phys + viewBytes

/-- The cells of a range of the region. -/
def regionCells (window : Window) (offset count : ℕ) : List ℕ :=
  (List.range count).map fun index => window.phys + offset + index

/-- The value of a header field. -/
def fieldValue (window : Window) (field : Field) (memory : Memory) : ℕ :=
  decode (read (regionCells window field.offset field.width) memory)

theorem regionCells_succ (window : Window) (offset count : ℕ) :
    regionCells window offset (count + 1) =
      (window.phys + offset) :: regionCells window (offset + 1) count := by
  rw [regionCells, range_succ_eq_map, map_cons, map_map, regionCells, Nat.add_zero]
  refine congrArg _ (map_congr_left ?_)
  intro _ _
  simp only [comp_apply, Nat.succ_eq_add_one]
  omega

variable {offset count : ℕ}

theorem mem_regionCells {cell : ℕ} :
    cell ∈ regionCells window offset count ↔
      window.phys + offset ≤ cell ∧ cell < window.phys + offset + count := by
  rw [regionCells, mem_map]
  constructor
  · rintro ⟨_, bound, rfl⟩
    rw [mem_range] at bound
    omega
  · rintro ⟨_, _⟩
    exact ⟨cell - (window.phys + offset), by rw [mem_range]; omega, by omega⟩

/-- Accesses inside the region reach the region's cells. -/
theorem cells_window (inside : offset + count ≤ viewBytes) :
    window.translation.cells (window.base + offset) count =
      some (regionCells window offset count) := by
  induction count generalizing offset with
  | zero => rfl
  | succ count ih =>
    have here := window.mapped offset (by omega)
    rw [Translation.cells, show window.translation.translate = window.translate from rfl, here,
      Option.bind_some, regionCells_succ]
    cases count with
    | zero => rfl
    | succ =>
      have fits := window.fits
      have next : window.translation.next (window.base + offset) = window.base + (offset + 1) := by
        rw [show window.translation.next (window.base + offset) =
          (window.base + offset + 1) % 2 ^ 64 from rfl]
        rw [Nat.mod_eq_of_lt (by omega)]
        omega
      rw [next, ih (by omega)]
      rfl

theorem loadBytes_window (inside : offset + count ≤ viewBytes) :
    loadBytes window (window.base + offset) count memory =
      .ok (read (regionCells window offset count) memory) := by
  rw [loadBytes, cells_window inside]

variable {field : Field}

theorem loadField_eq (inside : field.offset + field.width ≤ viewBytes) :
    loadField window field memory = .ok (fieldValue window field memory) := by
  rw [loadField, loadBytes_window inside]
  rfl

theorem storeBytes_window {bytes : List UInt8} (inside : offset + bytes.length ≤ viewBytes) :
    storeBytes window (window.base + offset) bytes memory =
      .ok (write (regionCells window offset bytes.length) bytes memory) := by
  rw [storeBytes, cells_window inside]

theorem storeField_eq (inside : field.offset + field.width ≤ viewBytes) (value : ℕ) :
    storeField window field value memory =
      .ok (write (regionCells window field.offset field.width) (encode field.width value)
        memory) := by
  have bound : field.offset + (encode field.width value).length ≤ viewBytes := by
    rw [length_encode]
    exact inside
  rw [storeField, storeBytes_window bound, length_encode]

/-- Two memories hold the same region. -/
def SameRegion (window : Window) (memory other : Memory) : Prop :=
  ∀ cell, InRegion window cell → memory cell = other cell

theorem fieldValue_congr
    (same : ∀ cell ∈ regionCells window field.offset field.width, memory cell = other cell) :
    fieldValue window field memory = fieldValue window field other := by
  rw [fieldValue, fieldValue, ByteMemory.read, ByteMemory.read, map_congr_left same]

theorem SameRegion.fieldValue (same : SameRegion window memory other)
    (inside : field.offset + field.width ≤ viewBytes) :
    fieldValue window field memory = fieldValue window field other := by
  refine fieldValue_congr ?_
  intro cell mem
  rw [mem_regionCells] at mem
  exact same cell ⟨by omega, by omega⟩

/-! ## The header -/

/-- Only bytes between two offsets of the region differ. -/
def OnlyBetween (window : Window) (low high : ℕ) (memory after : Memory) : Prop :=
  ∀ cell, ¬(window.phys + low ≤ cell ∧ cell < window.phys + high) → after cell = memory cell

theorem OnlyBetween.trans {low high : ℕ} {middle : Memory}
    (first : OnlyBetween window low high memory middle)
    (second : OnlyBetween window low high middle after) :
    OnlyBetween window low high memory after := by
  intro cell outside
  rw [second cell outside, first cell outside]

theorem onlyBetween_write {low high : ℕ} {bytes : List UInt8}
    (above : low ≤ offset) (below : offset + count ≤ high) :
    OnlyBetween window low high memory (write (regionCells window offset count) bytes memory) := by
  intro _ _
  refine write_of_notMem ?_
  rw [mem_regionCells]
  omega

/-- The counters and cursors the kernel writes lie between these header offsets. -/
def Counts (window : Window) (memory after : Memory) : Prop :=
  OnlyBetween window 32 88 memory after

theorem storeField_counts (window : Window) (field : Field) (value : ℕ) (memory : Memory)
    (above : 32 ≤ field.offset) (below : field.offset + field.width ≤ 88) :
    ∃ after, storeField window field value memory = .ok after ∧ Counts window memory after :=
  ⟨_, storeField_eq (by rw [viewBytes]; omega) value, onlyBetween_write above below⟩

theorem incrementField_counts (window : Window) (field : Field) (memory : Memory)
    (above : 32 ≤ field.offset) (below : field.offset + field.width ≤ 88) :
    ∃ after, incrementField window field memory = .ok after ∧ Counts window memory after := by
  rw [incrementField, loadField_eq (by rw [viewBytes]; omega)]
  exact storeField_counts window field _ memory above below

theorem countEvent_counts (window : Window) (event : InputEvent) (memory : Memory) :
    ∃ after, countEvent window event memory = .ok after ∧ Counts window memory after := by
  rw [countEvent]
  split
  · exact incrementField_counts window keyEventCount memory (by decide) (by decide)
  · obtain ⟨_, increment, first⟩ :=
      incrementField_counts window pointerEventCount memory (by decide) (by decide)
    rw [increment]
    have length : (pointerImage event).length = 16 := by simp [pointerImage]
    refine ⟨_, storeBytes_window (by rw [length]; decide), first.trans ?_⟩
    exact onlyBetween_write (by decide) (by rw [length]; decide)

/-- The header update always succeeds and writes counters and cursors only. -/
theorem updateHeader_counts (window : Window) (event : InputEvent) (sequence : ℕ)
    (memory : Memory) :
    ∃ after, updateHeader window event sequence memory = .ok after ∧
      Counts window memory after := by
  obtain ⟨counted, counting, first⟩ := countEvent_counts window event memory
  have overflow : ∃ overflowed, (if fieldValue window capacity counted ≤ sequence then
        incrementField window overflowCount counted else pure counted) = .ok overflowed ∧
      Counts window counted overflowed := by
    split
    · exact incrementField_counts window overflowCount counted (by decide) (by decide)
    · exact ⟨counted, rfl, fun _ _ => rfl⟩
  obtain ⟨overflowed, overflowing, second⟩ := overflow
  obtain ⟨produced, producing, third⟩ :=
    storeField_counts window producedCount (sequence + 1) overflowed (by decide) (by decide)
  obtain ⟨final, storing, fourth⟩ :=
    storeField_counts window tailSequence (sequence + 1) produced (by decide) (by decide)
  refine ⟨final, ?_, ((first.trans second).trans third).trans fourth⟩
  simp (disch := decide) only [updateHeader, counting, bind, Except.bind, loadField_eq,
    overflowing, producing, storing]

theorem Counts.of_updateHeader {sequence : ℕ}
    (updated : updateHeader window event sequence memory = .ok after) :
    Counts window memory after := by
  obtain ⟨_, updating, counts⟩ := updateHeader_counts window event sequence memory
  rw [updating, Except.ok.injEq] at updated
  exact updated ▸ counts

/-! ## The record slot -/

/-- The address of the next record, as the header describes it. -/
def slotAddress (window : Window) (memory : Memory) : ℕ :=
  (window.base + fieldValue window recordsOffset memory +
    fieldValue window tailSequence memory % fieldValue window capacity memory % 2 ^ 32 *
      fieldValue window recordSize memory) % 2 ^ 64

/-- The bytes of the next record. -/
def nextImage (window : Window) (uptime : ℕ) (event : InputEvent) (memory : Memory) :
    List UInt8 :=
  recordImage (fieldValue window tailSequence memory) uptime event

@[simp] theorem length_nextImage : (nextImage window uptime event memory).length = recordBytes := by
  simp [nextImage, recordImage, recordBytes]

theorem storeRecord_eq (ring : fieldValue window capacity memory ≠ 0) :
    storeRecord window uptime event memory =
      match window.translation.cells (slotAddress window memory) recordBytes with
      | none => .error (.dataAbort (slotAddress window memory))
      | some cells => .ok (fieldValue window tailSequence memory,
          write cells (nextImage window uptime event memory) memory) := by
  have length : (recordImage (fieldValue window tailSequence memory) uptime event).length =
    recordBytes := length_nextImage
  simp (disch := decide) only [storeRecord, recordAt, loadField_eq, bind, Except.bind,
    if_neg ring, pure, Except.pure, storeBytes, length]
  rw [← slotAddress]
  cases window.translation.cells (slotAddress window memory) recordBytes <;> rfl

theorem storeRecord_zero (ring : fieldValue window capacity memory = 0) :
    storeRecord window uptime event memory = .error .divisionByZero := by
  simp (disch := decide) only [storeRecord, loadField_eq, bind, Except.bind, if_pos ring]
  rfl

theorem SameRegion.slotAddress (same : SameRegion window memory other) :
    slotAddress window memory = slotAddress window other := by
  rw [Gui.slotAddress, Gui.slotAddress, same.fieldValue (by decide), same.fieldValue (by decide),
    same.fieldValue (by decide), same.fieldValue (by decide)]

theorem SameRegion.nextImage (same : SameRegion window memory other) :
    nextImage window uptime event memory = nextImage window uptime event other := by
  rw [Gui.nextImage, Gui.nextImage, same.fieldValue (by decide)]

/-! ## The consumer table -/

/-- The address of a consumer record, as the header describes it. -/
def consumerAddress (window : Window) (memory : Memory) (index : ℕ) : ℕ :=
  (window.base + fieldValue window consumersOffset memory +
    index * fieldValue window consumerSize memory) % 2 ^ 64

theorem consumerAt_eq (window : Window) (memory : Memory) (index : ℕ) :
    consumerAt window index memory = .ok (consumerAddress window memory index) := by
  simp (disch := decide) only [consumerAt, loadField_eq, bind, Except.bind, pure, Except.pure]
  rfl

/-- Who waits in a slot of the consumer table. -/
def waitingAt (window : Window) (sequence : ℕ) (memory : Memory) (index : ℕ) :
    Except Fault (Option ℕ) :=
  waitingConsumer window (consumerAddress window memory index) sequence memory

/-- One turn of the consumer loop. -/
theorem walkConsumers_succ {sequence kind steps index : ℕ} :
    walkConsumers window memory sequence kind (steps + 1) index =
      if index < fieldValue window maxConsumers memory then do
        let waiting ← waitingAt window sequence memory index
        let later ← walkConsumers window memory sequence kind steps (index + 1)
        pure ((waiting.map (⟨·, (sequence + 1) % 2 ^ 64, kind⟩)).toList ++ later)
      else
        pure [] := by
  rw [walkConsumers, loadField_eq (by decide)]
  simp only [bind, Except.bind, consumerAt_eq]
  rfl

/-- With enough steps the walk notifies nobody exactly when every slot it visits can be read and
nobody waits there. -/
theorem walkConsumers_nil_iff {sequence kind steps index : ℕ}
    (within : index ≤ fieldValue window maxConsumers memory)
    (enough : fieldValue window maxConsumers memory < index + steps) :
    walkConsumers window memory sequence kind steps index = .ok [] ↔
      ∀ visited, index ≤ visited → visited < fieldValue window maxConsumers memory →
        waitingAt window sequence memory visited = .ok none := by
  induction steps generalizing index with
  | zero => omega
  | succ steps ih =>
    rw [walkConsumers_succ]
    split
    · rename_i more
      constructor
      · intro walked visited low high
        cases here : waitingAt window sequence memory index with
        | error => simp [here, bind, Except.bind] at walked
        | ok waiting =>
          cases rest : walkConsumers window memory sequence kind steps (index + 1) with
          | error => simp [here, rest, bind, Except.bind] at walked
          | ok later =>
            simp only [here, rest, bind, Except.bind, pure, Except.pure, Except.ok.injEq,
              append_eq_nil_iff, Option.toList_eq_nil_iff, Option.map_eq_none_iff] at walked
            obtain ⟨rfl, rfl⟩ := walked
            rcases Nat.eq_or_lt_of_le low with rfl | later
            · exact here
            · exact (ih more (by omega)).mp rest visited later high
      · intro idle
        rw [idle index (Nat.le_refl _) more,
          (ih more (by omega)).mpr fun visited low => idle visited (by omega)]
        rfl
    · exact ⟨fun _ _ _ _ => by omega, fun _ => rfl⟩

/-- `max_consumers` is a 16-bit field. -/
theorem maxConsumers_lt (window : Window) (memory : Memory) :
    fieldValue window maxConsumers memory < walkLimit := by
  have bound := decode_lt (read (regionCells window maxConsumers.offset maxConsumers.width) memory)
  rwa [ByteMemory.read, length_map, regionCells, length_map, length_range] at bound

/-! ## Publications -/

/-- Whatever the rest of memory holds, a publication over these region bytes
finishes within the step limit, changes bytes of the region only and notifies nobody, so that the
message broker has nothing to write. -/
def Confined (window : Window) (uptime : ℕ) (event : InputEvent) (memory : Memory) : Prop :=
  ∀ other, SameRegion window memory other →
    ∃ after, publishInputEvent window uptime event other = .ok (after, []) ∧
      ∀ cell, ¬InRegion window cell → after cell = other cell

/-- The region bytes describe a ring and a consumer table the kernel can use: the
next record lies in the region, and once it is stored and counted every slot of the consumer
table can be read, with nobody in it who waits for the record. -/
def Contained (window : Window) (uptime : ℕ) (event : InputEvent) (memory : Memory) : Prop :=
  fieldValue window capacity memory ≠ 0 ∧
    ∃ cells, window.translation.cells (slotAddress window memory) recordBytes = some cells ∧
      (∀ cell ∈ cells, InRegion window cell) ∧
      ∀ other after, SameRegion window memory other →
        updateHeader window event (fieldValue window tailSequence memory)
          (write cells (nextImage window uptime event memory) other) = .ok after →
        ∀ index < fieldValue window maxConsumers after,
          waitingAt window (fieldValue window tailSequence memory) after index = .ok none

/-- The whole walk of `publish_input_event` has enough steps. -/
theorem walkConsumers_limit_nil_iff {sequence kind : ℕ} :
    walkConsumers window memory sequence kind walkLimit 0 = .ok [] ↔
      ∀ index < fieldValue window maxConsumers memory,
        waitingAt window sequence memory index = .ok none := by
  rw [walkConsumers_nil_iff (Nat.zero_le _)
    (by rw [Nat.zero_add]; exact maxConsumers_lt window memory)]
  exact ⟨fun idle index => idle index (Nat.zero_le _), fun idle index _ => idle index⟩

/-- What a publication that finishes has gone through. -/
theorem publishInputEvent_ok_iff {notifications : List Notification} :
    publishInputEvent window uptime event memory = .ok (after, notifications) ↔
      fieldValue window capacity memory ≠ 0 ∧
        ∃ cells, window.translation.cells (slotAddress window memory) recordBytes = some cells ∧
          updateHeader window event (fieldValue window tailSequence memory)
            (write cells (nextImage window uptime event memory) memory) = .ok after ∧
          walkConsumers window after (fieldValue window tailSequence memory) event.kind walkLimit
            0 = .ok notifications := by
  by_cases ring : fieldValue window capacity memory = 0
  · simp [publishInputEvent, storeRecord_zero ring, ring, bind, Except.bind]
  cases reached : window.translation.cells (slotAddress window memory) recordBytes with
  | none => simp [publishInputEvent, storeRecord_eq ring, reached, bind, Except.bind]
  | some cells =>
    obtain ⟨updated, updating, _⟩ := updateHeader_counts window event
      (fieldValue window tailSequence memory)
      (write cells (nextImage window uptime event memory) memory)
    simp only [publishInputEvent, storeRecord_eq ring, reached, bind, Except.bind, updating,
      ne_eq, ring, not_false_eq_true, true_and, Option.some.injEq, exists_eq_left',
      Except.ok.injEq]
    cases walk : walkConsumers window updated (fieldValue window tailSequence memory)
        event.kind walkLimit 0 with
    | error fault =>
      simp only [reduceCtorEq, false_iff]
      rintro ⟨rfl, walked⟩
      cases walk.symm.trans walked
    | ok later =>
      simp only [pure, Except.pure, Except.ok.injEq, Prod.mk.injEq]
      refine and_congr_right ?_
      rintro rfl
      rw [walk, Except.ok.injEq]

/-- What the publication stores lies in the region. -/
theorem Counts.outside {cells : List ℕ} {bytes : List UInt8}
    (counts : Counts window (write cells bytes memory) after)
    (inside : ∀ cell ∈ cells, InRegion window cell) {cell : ℕ} (outside : ¬InRegion window cell) :
    after cell = memory cell := by
  rw [counts cell fun _ => outside ⟨by omega, by rw [viewBytes]; omega⟩]
  exact write_of_notMem fun mem => outside (inside cell mem)

/-- Region bytes decide where the next record goes and what it holds, so a record
byte outside the region would overwrite whatever is there. -/
theorem Confined.cells_inRegion (confined : Confined window uptime event memory) {cells : List ℕ}
    (reached : window.translation.cells (slotAddress window memory) recordBytes = some cells) :
    ∀ cell ∈ cells, InRegion window cell := by
  intro cell mem
  by_contra outside
  -- Two memories that differ in this byte only end with the same byte there.
  let flipped : Memory := Function.update memory cell (memory cell + 1)
  have same : SameRegion window memory flipped := by
    intro inner inside
    have ne : inner ≠ cell := by
      rintro rfl
      exact outside inside
    exact (update_of_ne ne _ _).symm
  have settled : ∀ start, SameRegion window memory start →
      start cell = write cells (nextImage window uptime event memory) start cell := by
    intro start agrees
    obtain ⟨_, finished, kept⟩ := confined start agrees
    obtain ⟨_, _, address, updated, _⟩ := publishInputEvent_ok_iff.mp finished
    rw [← agrees.slotAddress, reached, Option.some.injEq] at address
    subst address
    rw [← kept cell outside, Counts.of_updateHeader updated cell (by
      intro _
      exact outside ⟨by omega, by rw [viewBytes]; omega⟩), agrees.nextImage]
  have long : cells.length = (nextImage window uptime event memory).length := by
    rw [Translation.length_cells reached, length_nextImage]
  have equal := write_determined (Nat.le_of_eq long) mem memory flipped
  rw [← settled memory fun _ _ => rfl, ← settled flipped same] at equal
  have successor : flipped cell = memory cell + 1 := update_self _ _ _
  rw [successor] at equal
  exact absurd equal (by simp)

/-- A confined publication has a usable layout. -/
theorem Confined.contained (confined : Confined window uptime event memory) :
    Contained window uptime event memory := by
  obtain ⟨_, finished, _⟩ := confined memory fun _ _ => rfl
  obtain ⟨ring, cells, reached, -⟩ := publishInputEvent_ok_iff.mp finished
  refine ⟨ring, cells, reached, confined.cells_inRegion reached, fun other after same stored => ?_⟩
  obtain ⟨_, published, _⟩ := confined other same
  obtain ⟨_, _, address, updated, walked⟩ := publishInputEvent_ok_iff.mp published
  rw [← same.slotAddress, reached, Option.some.injEq] at address
  subst address
  rw [← same.fieldValue (by decide), ← same.nextImage, stored, Except.ok.injEq] at updated
  subst updated
  rw [← same.fieldValue (by decide)] at walked
  exact walkConsumers_limit_nil_iff.mp walked

/-- A usable layout confines the publication. -/
theorem Contained.confined (contained : Contained window uptime event memory) :
    Confined window uptime event memory := by
  obtain ⟨ring, cells, reached, inside, idle⟩ := contained
  intro other same
  obtain ⟨after, updating, counts⟩ := updateHeader_counts window event
    (fieldValue window tailSequence memory)
    (write cells (nextImage window uptime event memory) other)
  refine ⟨after, ?_, fun cell => counts.outside inside⟩
  rw [publishInputEvent_ok_iff, ← same.slotAddress, ← same.nextImage, ← same.fieldValue (by decide),
    ← same.fieldValue (by decide)]
  exact ⟨ring, cells, reached, updating,
    walkConsumers_limit_nil_iff.mpr (idle other after same updating)⟩

/-- The region in a 1 GiB direct map. -/
def directWindow : Window where
  base := 0xFFFF000006000000
  phys := 0x06000000
  translate := fun address =>
    if 0xFFFF000000000000 ≤ address ∧ address < 0xFFFF000040000000 then
      some (address - 0xFFFF000000000000)
    else
      none
  fits := by decide
  mapped := by
    intro offset inside
    rw [viewBytes] at inside
    rw [if_pos ⟨by omega, by omega⟩]
    refine congrArg some ?_
    omega

/-- A region whose header places the ring right behind the view. -/
def tamperedRegion : Memory := fun cell =>
  (encode 4 0x53474955 ++ encode 2 1 ++ encode 2 0 ++ encode 4 ringCapacity ++
    encode 4 recordBytes ++ encode 4 consumerBytes ++ encode 4 viewBytes).getD
      (cell - directWindow.phys) 0

end RosKernel.Gui
