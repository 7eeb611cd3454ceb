import RosKernel.Kernel.Events
import RosKernel.Library.Ring

/-!
# The ring of a subscription

What storing and reading do to the records a subscription holds: a record is dropped
or appended behind the records held so far, of which a full ring loses the oldest, and
a read takes records from the front.
-/

namespace RosKernel

open List

namespace EventSubscriber

/-- The indices of a ring agree with each other. -/
structure RingSound (subscriber : EventSubscriber) : Prop where
  slots : subscriber.queue.length = subscriber.queueCapacity
  fits : subscriber.queuedCount ≤ subscriber.queueCapacity
  read : subscriber.readIndex % subscriber.queueCapacity = subscriber.readIndex
  write : subscriber.writeIndex =
    (subscriber.readIndex + subscriber.queuedCount) % subscriber.queueCapacity

namespace RingSound

variable {subscriber : EventSubscriber}

variable (sound : subscriber.RingSound)
include sound

theorem queuedRecords_eq :
    subscriber.queuedRecords =
      Ring.window subscriber.queue subscriber.readIndex subscriber.queuedCount := by
  unfold queuedRecords slot Ring.window
  rw [sound.slots]

theorem length_queuedRecords : subscriber.queuedRecords.length = subscriber.queuedCount := by
  rw [sound.queuedRecords_eq]
  exact Ring.length_window (sound.slots ▸ sound.fits)

theorem countDropped : subscriber.countDropped.RingSound :=
  { sound with }

theorem takeOldest (held : 0 < subscriber.queuedCount) :
    subscriber.takeOldest.RingSound where
  slots := sound.slots
  fits := (Nat.sub_le _ _).trans sound.fits
  read := Nat.mod_mod _ _
  write := by
    change subscriber.writeIndex = ((subscriber.readIndex + 1) % subscriber.queueCapacity +
      (subscriber.queuedCount - 1)) % subscriber.queueCapacity
    rw [Nat.mod_add_mod, sound.write]
    congr 1
    omega

theorem queuedRecords_takeOldest (held : 0 < subscriber.queuedCount) :
    subscriber.takeOldest.queuedRecords = subscriber.queuedRecords.tail := by
  obtain ⟨count, isCount⟩ := Nat.exists_eq_add_one.mpr held
  have fits : count + 1 ≤ subscriber.queue.length := by
    rw [sound.slots, ← isCount]
    exact sound.fits
  rw [(sound.takeOldest held).queuedRecords_eq, sound.queuedRecords_eq, isCount,
    ← Ring.window_tail fits, ← Ring.window_mod _ (subscriber.readIndex + 1), sound.slots]
  change Ring.window _ _ (subscriber.queuedCount - 1) = _
  rw [isCount]
  rfl

section

variable (space : subscriber.queuedCount < subscriber.queueCapacity) (record : KernelEventRecord)
include space record

theorem appendRecord : (subscriber.appendRecord record).RingSound where
  slots := by
    change (subscriber.queue.set _ record).length = _
    rw [length_set]
    exact sound.slots
  fits := space
  read := sound.read
  write := by
    change (subscriber.writeIndex + 1) % subscriber.queueCapacity = _
    rw [sound.write, Nat.mod_add_mod]
    rfl

theorem queuedRecords_appendRecord :
    (subscriber.appendRecord record).queuedRecords = subscriber.queuedRecords ++ [record] := by
  rw [(sound.appendRecord space record).queuedRecords_eq, sound.queuedRecords_eq,
    ← Ring.window_push (sound.slots ▸ space), sound.slots, ← sound.write]
  rfl

end

theorem relocate {capacity : ℕ} (larger : subscriber.queuedCount < capacity) :
    (subscriber.relocate capacity).RingSound where
  slots := by
    have held := sound.length_queuedRecords
    simp only [EventSubscriber.relocate, length_append, length_replicate]
    omega
  fits := larger.le
  read := Nat.zero_mod _
  write := by
    change subscriber.queuedCount = (0 + subscriber.queuedCount) % capacity
    rw [Nat.zero_add, Nat.mod_eq_of_lt larger]

theorem queuedRecords_relocate {capacity : ℕ} (larger : subscriber.queuedCount < capacity) :
    (subscriber.relocate capacity).queuedRecords = subscriber.queuedRecords := by
  rw [(sound.relocate larger).queuedRecords_eq]
  change Ring.window (subscriber.queuedRecords ++ _) 0 subscriber.queuedCount = _
  rw [← sound.length_queuedRecords]
  exact Ring.window_append _ _

end RingSound

variable {target rounds grown : ℕ}

/-- The doubling loop reaches its target. -/
theorem le_growCapacity (bounded : target ≤ eventQueueMaxCapacity)
    (enough : target ≤ grown * 2 ^ rounds) : target ≤ growCapacity target rounds grown := by
  induction rounds generalizing grown with
  | zero => simpa [growCapacity] using enough
  | succ rounds ih =>
    unfold growCapacity
    split
    · split
      · exact le_rfl
      · refine ih ?_
        split
        · exact bounded.trans (Nat.le_mul_of_pos_right _ (Nat.two_pow_pos rounds))
        · rw [Nat.mul_assoc, ← Nat.pow_succ']
          exact enough
    · exact not_lt.mp ‹_›

/-- Room for one more record is there, is allocated, or is refused when the ring is
full. -/
theorem reserveQueueCapacity_cases
    {subscriber reserved : EventSubscriber} (sound : subscriber.RingSound)
    {allocated : Bool} {status : Status}
    (result : subscriber.reserveQueueCapacity (subscriber.queuedCount + 1) allocated =
      (status, reserved)) :
    (status = .ok ∧ reserved.RingSound ∧ reserved.queuedCount < reserved.queueCapacity ∧
        reserved.queuedRecords = subscriber.queuedRecords ∧
        reserved.droppedCount = subscriber.droppedCount) ∨
      (reserved = subscriber ∧ subscriber.queuedCount = subscriber.queueCapacity ∧
        (status = .noSpace ∧ subscriber.queueCapacity ≠ 0 ∨ status = .noMemory)) := by
  have fits := sound.fits
  unfold reserveQueueCapacity at result
  split at result
  · cases result
    exact .inl ⟨rfl, sound, by omega, rfl, rfl⟩
  dsimp only at result
  split at result
  · rename_i capped
    cases result
    simp only [eventQueueMaxCapacity] at capped
    exact .inr ⟨rfl, by omega, .inl ⟨rfl, by omega⟩⟩
  split at result
  · rename_i target _
    cases result
    have larger : subscriber.queuedCount < growCapacity
        (min (subscriber.queuedCount + 1) eventQueueMaxCapacity) 32
        (if subscriber.queueCapacity = 0 then eventQueueInitialCapacity
         else subscriber.queueCapacity) := by
      refine lt_of_lt_of_le ?_ (le_growCapacity (min_le_right _ _) ((min_le_right _ _).trans ?_))
      · omega
      · simp only [eventQueueMaxCapacity, eventQueueInitialCapacity]
        split <;> omega
    exact .inl ⟨rfl, sound.relocate larger, larger, sound.queuedRecords_relocate larger, rfl⟩
  · cases result
    exact .inr ⟨rfl, by omega, .inr rfl⟩

/-- Appending behind what is left of the records held so far. -/
theorem appendRecord_spec {subscriber vacated : EventSubscriber} (sound : vacated.RingSound)
    (space : vacated.queuedCount < vacated.queueCapacity)
    (kept : vacated.queuedRecords <:+ subscriber.queuedRecords) (record : KernelEventRecord) :
    (vacated.appendRecord record).RingSound ∧
      (vacated.appendRecord record).newestSequence = record.sequence ∧
      ∃ kept, kept <:+ subscriber.queuedRecords ∧
        (vacated.appendRecord record).queuedRecords = kept ++ [record] :=
  ⟨sound.appendRecord space record, rfl, vacated.queuedRecords, kept,
    sound.queuedRecords_appendRecord space record⟩

/-- Storing a record drops it, or appends it behind the records that are kept. -/
theorem storeRecord_spec {subscriber updated : EventSubscriber} (sound : subscriber.RingSound)
    {record : KernelEventRecord} {allocated stored : Bool}
    (result : subscriber.storeRecord record allocated = (stored, updated)) :
    updated.RingSound ∧ updated.queuedCount + updated.droppedCount =
        subscriber.queuedCount + subscriber.droppedCount + 1 ∧
      (stored = false ∧ updated.queuedRecords = subscriber.queuedRecords ∧
          updated.newestSequence = subscriber.newestSequence ∧ subscriber.queuedCount = 0 ∨
        stored = true ∧ updated.newestSequence = record.sequence ∧
          ∃ kept, kept <:+ subscriber.queuedRecords ∧
            updated.queuedRecords = kept ++ [record]) := by
  unfold storeRecord at result
  rcases reserve : subscriber.reserveQueueCapacity (subscriber.queuedCount + 1) allocated with
    ⟨status, reserved⟩
  rw [reserve] at result
  rcases reserveQueueCapacity_cases sound reserve with
    ⟨rfl, reservedSound, space, same, dropped⟩ | ⟨rfl, full, refused⟩
  · simp only [ne_eq, not_true_eq_false, false_and, if_false, reduceCtorEq, space.ne] at result
    cases result
    have kept : reserved.queuedRecords <:+ subscriber.queuedRecords := ⟨[], same⟩
    obtain ⟨stillSound, appended⟩ := appendRecord_spec reservedSound space kept record
    have held := congrArg List.length same
    rw [reservedSound.length_queuedRecords, sound.length_queuedRecords] at held
    refine ⟨stillSound, ?_, .inr ⟨rfl, appended⟩⟩
    change reserved.queuedCount + 1 + reserved.droppedCount = _
    omega
  -- The ring is full: its oldest record is given up, unless it has no slots at all.
  by_cases empty : reserved.queueCapacity = 0
  · have noMemory : status = .noMemory := refused.resolve_left fun space => space.2 empty
    subst noMemory
    simp only [ne_eq, reduceCtorEq, not_false_eq_true, empty, and_self, if_true] at result
    cases result
    exact ⟨sound.countDropped, rfl, .inl ⟨rfl, rfl, rfl, full.trans empty⟩⟩
  have held : 0 < reserved.queuedCount := by omega
  have overwritten := appendRecord_spec (sound.takeOldest held)
    (show reserved.queuedCount - 1 < reserved.queueCapacity by omega)
    (sound.queuedRecords_takeOldest held ▸ tail_suffix _) record
  obtain ⟨stillSound, appended⟩ := overwritten
  have counted : reserved.queuedCount - 1 + 1 + (reserved.droppedCount + 1) =
      reserved.queuedCount + reserved.droppedCount + 1 := by omega
  rcases refused with ⟨rfl, -⟩ | rfl
  · have stillFull : reserved.countDropped.queuedCount = reserved.countDropped.queueCapacity := full
    simp only [ne_eq, reduceCtorEq, not_false_eq_true, empty, and_false, if_false, and_self,
      if_true, stillFull, not_true_eq_false] at result
    cases result
    exact ⟨{ stillSound with }, counted, .inr ⟨rfl, appended⟩⟩
  · simp only [ne_eq, reduceCtorEq, not_false_eq_true, empty, and_false, if_false, false_and,
      if_true, full] at result
    cases result
    exact ⟨{ stillSound with }, counted, .inr ⟨rfl, appended⟩⟩

variable {subscriber : EventSubscriber}

/-- Reading takes records from the front. -/
theorem readRecords_spec (sound : subscriber.RingSound)
    {count : ℕ} (available : count ≤ subscriber.queuedCount) :
    (readRecords count subscriber).2.RingSound ∧
      (readRecords count subscriber).2.newestSequence = subscriber.newestSequence ∧
      (readRecords count subscriber).1 = subscriber.queuedRecords.take count ∧
      (readRecords count subscriber).2.queuedRecords = subscriber.queuedRecords.drop count := by
  induction count generalizing subscriber with
  | zero => exact ⟨sound, rfl, rfl, rfl⟩
  | succ count ih =>
    have held : 0 < subscriber.queuedCount := by omega
    obtain ⟨stillSound, newest, read, rest⟩ :=
      ih (sound.takeOldest held) (Nat.le_sub_one_of_lt available)
    have front : subscriber.queuedRecords =
        (subscriber.slot subscriber.readIndex).toList ++ subscriber.queuedRecords.tail := by
      obtain ⟨previous, isCount⟩ := Nat.exists_eq_add_one.mpr held
      have fits : previous + 1 ≤ subscriber.queue.length := by
        rw [sound.slots, ← isCount]
        exact sound.fits
      rw [sound.queuedRecords_eq, isCount, ← Ring.window_tail fits, Ring.window_succ,
        sound.slots, sound.read]
      rfl
    have present : (subscriber.slot subscriber.readIndex).toList.length = 1 := by
      have lengths := congrArg List.length front
      rw [length_append, length_tail, sound.length_queuedRecords] at lengths
      omega
    rw [sound.queuedRecords_takeOldest held] at read rest
    refine ⟨stillSound, newest, ?_, ?_⟩
    · change (subscriber.slot subscriber.readIndex).toList ++
        (readRecords count subscriber.takeOldest).1 = _
      rw [read]
      conv_rhs => rw [front]
      rw [Nat.add_comm count 1, ← present, take_length_add_append]
    · change (readRecords count subscriber.takeOldest).2.queuedRecords = _
      rw [rest, drop_tail]

/-! ## Accounting for every record -/

theorem growCapacity_le (capped : target ≤ eventQueueMaxCapacity)
    (bounded : grown ≤ eventQueueMaxCapacity) :
    growCapacity target rounds grown ≤ eventQueueMaxCapacity := by
  induction rounds generalizing grown with
  | zero => exact bounded
  | succ _ ih =>
    unfold growCapacity
    split
    · split
      · exact capped
      · apply ih
        split
        · exact le_rfl
        · exact not_lt.mp ‹_›
    · exact bounded

theorem queueCapacity_storeRecord_le
    (bounded : subscriber.queueCapacity ≤ eventQueueMaxCapacity) (record : KernelEventRecord)
    (allocated : Bool) :
    (subscriber.storeRecord record allocated).2.queueCapacity ≤ eventQueueMaxCapacity := by
  have reserved : (subscriber.reserveQueueCapacity (subscriber.queuedCount + 1)
      allocated).2.queueCapacity ≤ eventQueueMaxCapacity := by
    unfold reserveQueueCapacity
    dsimp only
    split_ifs
    · exact bounded
    · exact bounded
    · exact growCapacity_le (min_le_right _ _) (by decide)
    · exact growCapacity_le (min_le_right _ _) bounded
    · exact bounded
  unfold storeRecord
  dsimp only
  split_ifs <;> exact reserved

theorem readRecords_kept (count : ℕ) (subscriber : EventSubscriber) :
    (readRecords count subscriber).2.droppedCount = subscriber.droppedCount ∧
      (readRecords count subscriber).2.queueCapacity = subscriber.queueCapacity := by
  induction count generalizing subscriber with
  | zero => exact ⟨rfl, rfl⟩
  | succ _ ih => exact ih subscriber.takeOldest

/-- A subscription as `subscribe` leaves it, without a queue. -/
def withoutQueue (subscriber : EventSubscriber) : EventSubscriber :=
  { subscriber with
    queue := []
    queueCapacity := 0
    readIndex := 0
    writeIndex := 0
    queuedCount := 0
    droppedCount := 0 }

end EventSubscriber

/-- A subscription with the records that went in and out. -/
structure RingHistory where
  subscriber : EventSubscriber
  /-- The records given to `enqueue_record`, oldest first. -/
  enqueued : List KernelEventRecord
  /-- The records handed out by `read`. -/
  delivered : List KernelEventRecord

/-- A call that touches the ring. -/
inductive RingCall
  /-- `enqueue_record`, with the outcome of the heap call if it makes one. -/
  | enqueueRecord (record : KernelEventRecord) (allocated : Bool)
  | read (capacity : ℕ)

namespace RingHistory

open EventSubscriber

def perform (history : RingHistory) : RingCall → RingHistory
  | .enqueueRecord record allocated =>
    { history with
      subscriber := (history.subscriber.storeRecord record allocated).2
      enqueued := history.enqueued ++ [record] }
  | .read capacity =>
    let (records, rest) :=
      readRecords (min capacity history.subscriber.queuedCount) history.subscriber
    { history with subscriber := rest, delivered := history.delivered ++ records }

/-- Every record is delivered, queued or counted as dropped. -/
structure Accounted (history : RingHistory) : Prop where
  sound : history.subscriber.RingSound
  bounded : history.subscriber.queueCapacity ≤ eventQueueMaxCapacity
  counted : history.enqueued.length = history.delivered.length +
    history.subscriber.queuedCount + history.subscriber.droppedCount
  newest : history.subscriber.queuedRecords <:+ history.enqueued

theorem Accounted.perform {history : RingHistory} (accounted : history.Accounted)
    (call : RingCall) : (history.perform call).Accounted := by
  cases call with
  | enqueueRecord record allocated =>
    rcases result : history.subscriber.storeRecord record allocated with ⟨_, _⟩
    obtain ⟨sound, _, outcome⟩ := storeRecord_spec accounted.sound result
    have bounded := queueCapacity_storeRecord_le accounted.bounded record allocated
    rw [result] at bounded
    rw [RingHistory.perform, result]
    refine ⟨sound, bounded, ?_, ?_⟩
    · have earlier := accounted.counted
      dsimp only
      rw [length_append, length_singleton]
      omega
    · rcases outcome with ⟨-, same, -, none⟩ | ⟨-, -, _, isSuffix, appended⟩
      · have held := accounted.sound.length_queuedRecords
        rw [none, length_eq_zero_iff] at held
        rw [same, held]
        exact nil_suffix
      · rw [appended]
        exact suffix_append_self_iff.mpr (isSuffix.trans accounted.newest)
  | read capacity =>
    have available := min_le_right capacity history.subscriber.queuedCount
    obtain ⟨sound, -, front, rest⟩ := readRecords_spec accounted.sound available
    obtain ⟨dropped, same⟩ :=
      readRecords_kept (min capacity history.subscriber.queuedCount) history.subscriber
    refine ⟨sound, same.trans_le accounted.bounded, ?_, ?_⟩
    · have remaining := congrArg List.length rest
      rw [sound.length_queuedRecords, length_drop,
        accounted.sound.length_queuedRecords] at remaining
      have earlier := accounted.counted
      simp only [RingHistory.perform, length_append, front, length_take,
        accounted.sound.length_queuedRecords, dropped, remaining]
      omega
    · change (readRecords _ history.subscriber).2.queuedRecords <:+ history.enqueued
      rw [rest]
      exact (drop_suffix _ _).trans accounted.newest

/-- Whatever is enqueued and read, and however the heap answers, each record is delivered,
queued or counted as dropped, and the queue holds the newest records. -/
theorem ring_accounted (subscriber : EventSubscriber) (calls : List RingCall) :
    let history := calls.foldl perform ⟨subscriber.withoutQueue, [], []⟩
    let ring := history.subscriber
    history.enqueued.length = history.delivered.length + ring.queuedCount + ring.droppedCount ∧
      ring.writeIndex = (ring.readIndex + ring.queuedCount) % ring.queueCapacity ∧
      ring.queuedCount ≤ ring.queueCapacity ∧ ring.queueCapacity ≤ 1024 ∧
      ring.queuedRecords = history.enqueued.drop (history.enqueued.length - ring.queuedCount) := by
  have start : Accounted ⟨subscriber.withoutQueue, [], []⟩ :=
    ⟨⟨rfl, le_rfl, rfl, rfl⟩, Nat.zero_le _, rfl, nil_suffix⟩
  have accounted : ∀ history : RingHistory, history.Accounted →
      (calls.foldl perform history).Accounted := by
    induction calls with
    | nil => exact fun _ accounted => accounted
    | cons call _ ih => exact fun _ accounted => ih _ (accounted.perform call)
  obtain ⟨sound, bounded, counted, newest⟩ := accounted _ start
  refine ⟨counted, sound.write, sound.fits, bounded, ?_⟩
  rw [← sound.length_queuedRecords]
  exact suffix_iff_eq_drop.mp newest

end RingHistory

end RosKernel
