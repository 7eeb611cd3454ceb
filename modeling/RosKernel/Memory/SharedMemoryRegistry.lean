import RosKernel.Memory.FileMappingOwnership
import RosKernel.Memory.PageHoldings
import RosKernel.Memory.SharedMemory
import RosKernel.Memory.Translation

/-!
# The shared-memory registry

One object a name, an object exactly while somebody is attached to it, and every
attachment at its own slot. A failing `acquire` gives back what it took: records,
attachments, page tables and the free pages are as before.
-/

namespace RosKernel.Memory

open List

variable {machine : Machine} {pagePool : PagePool} {rest : Multiset ℕ}

/-- The step touches neither page tables nor what others hold. -/
structure Machine.SameTables (machine after : Machine) : Prop where
  spaces : after.spaces = machine.spaces
  otherPages : after.otherPages = machine.otherPages

theorem Machine.SameTables.trans {after last : Machine} (first : machine.SameTables after)
    (second : after.SameTables last) : machine.SameTables last :=
  ⟨second.spaces.trans first.spaces, second.otherPages.trans first.otherPages⟩

/-! ## Records -/

section

variable {pool : RecordPool} {live : Multiset Slot} {slot : Slot}

/-- A pool that has handed out the live records and keeps no unused page. -/
structure RecordPool.Stocked (pool : RecordPool) (live : Multiset Slot) : Prop where
  serves : pool.Serves live
  busy : pool.Busy

/-- On a live record the pool's `free` behaves like its siblings'. -/
theorem SharedMemory.recordPoolFree_eq (serves : pool.Serves (slot ::ₘ live)) (machine : Machine) :
    SharedMemory.recordPoolFree pool machine slot = pool.free machine slot := by
  obtain ⟨header, found, _, _⟩ := serves.headerOf
  unfold SharedMemory.recordPoolFree RecordPool.free
  rw [found]
  dsimp only
  rw [if_neg (show ¬header.liveSlots = 0 by omega)]

namespace RecordPool

theorem pageInvariant_sameTables (machine : Machine) : Machine.PageInvariant machine.SameTables :=
  ⟨fun _ same => ⟨same.spaces, same.otherPages⟩, fun _ _ same => ⟨same.spaces, same.otherPages⟩⟩

/-- `alloc_page` returns no page that is owned already. -/
theorem allocPage_notMem {owned : Multiset ℕ}
    (holds : machine.Holds pagePool (owned + rest)) : machine.allocPage.1 ∉ owned := by
  rcases holds.ownership.allocPage with ⟨zero, _⟩ | ⟨_, fresh, _⟩
  · rw [zero]
    intro linked
    have manages := holds.ownership.manages (Multiset.mem_add.mpr (.inl linked))
    exact absurd manages.pos (Nat.lt_irrefl 0)
  · intro linked
    exact fresh (Multiset.mem_add.mpr (.inl linked))

/-- `record_pool_allocate` of a stocked pool; freeing the record at once restores the
pages of the pool. -/
theorem Stocked.allocate (stocked : pool.Stocked live)
    (holds : machine.Holds pagePool (pool.pageAddresses + rest)) :
    (∃ after, pool.allocate machine = (none, pool, after) ∧ machine.SameTables after ∧
      after.Holds pagePool (pool.pageAddresses + rest)) ∨
    ∃ slot larger after, pool.allocate machine = (some slot, larger, after) ∧
      machine.SameTables after ∧ larger.Stocked (slot ::ₘ live) ∧
      after.Holds pagePool (larger.pageAddresses + rest) ∧
      ∀ later, (SharedMemory.recordPoolFree larger later slot).1.pages = pool.pages := by
  have tables := kept_allocate (pageInvariant_sameTables machine) ⟨rfl, rfl⟩ pool
  have exact := kept_allocate (Machine.pageInvariant_exact pagePool) ⟨holds.exact, holds.pool⟩ pool
  have busy := stocked.busy.allocate machine
  obtain ⟨owned, outcome⟩ := stocked.serves.allocate holds.ownership
  have unlinked := allocPage_notMem holds
  rcases result : pool.allocate machine with ⟨_, larger, after⟩
  rw [result] at tables exact busy owned outcome
  rcases outcome with ⟨failed, served⟩ | ⟨slot, success, served⟩
  · left
    subst failed
    have same : larger = pool := by
      rcases pool.allocate_cases machine with ⟨_, _, _, other⟩ | ⟨_, _, _, _, _, other⟩ |
        ⟨other, _⟩ | ⟨other, _⟩ <;> rw [result] at other <;> cases other <;> rfl
    rw [same] at owned
    rw [same]
    exact ⟨after, rfl, tables, owned, exact.1, exact.2⟩
  · right
    subst success
    refine ⟨slot, larger, after, rfl, tables, ⟨served, busy⟩, ⟨owned, exact.1, exact.2⟩, ?_⟩
    intro later
    rw [SharedMemory.recordPoolFree_eq served]
    exact (stocked.serves.allocate_free stocked.busy unlinked result served).1 later

/-- `record_pool_free` of a live record. -/
theorem Stocked.free (stocked : pool.Stocked (slot ::ₘ live))
    (holds : machine.Holds pagePool (pool.pageAddresses + rest)) :
    machine.SameTables (SharedMemory.recordPoolFree pool machine slot).2 ∧
      (SharedMemory.recordPoolFree pool machine slot).1.Stocked live ∧
      (SharedMemory.recordPoolFree pool machine slot).2.Holds pagePool
        ((SharedMemory.recordPoolFree pool machine slot).1.pageAddresses + rest) := by
  rw [SharedMemory.recordPoolFree_eq stocked.serves]
  obtain ⟨serves, owned⟩ := stocked.serves.free holds.ownership
  have exact := kept_free (Machine.pageInvariant_exact pagePool) ⟨holds.exact, holds.pool⟩ pool slot
  exact ⟨kept_free (pageInvariant_sameTables machine) ⟨rfl, rfl⟩ pool slot,
    ⟨serves, stocked.busy.free stocked.serves machine⟩, owned, exact.1, exact.2⟩

end RecordPool

end

/-! ## The invariant -/

/-- The pages behind an object. -/
def SharedObject.pages (object : SharedObject) : List ℕ :=
  PhysicalMemory.runPages object.physicalBase (object.backingBytes / pageSize)

/-- The backing of an object is a non-empty run of pages that fits a slot. -/
structure SharedObject.Sound (object : SharedObject) : Prop where
  nonempty : 0 < object.backingBytes
  whole : object.backingBytes % pageSize = 0
  fits : object.backingBytes ≤ sharedMemorySlotBytes
  /-- `reserve_contiguous_pages` returned a run. -/
  based : object.physicalBase ≠ 0

namespace SharedMemory

open FileMappings (alignUpToPage eightPages foldLetter)

variable {state after : SharedMemory}

/-- The name under which an object is found. -/
def foldedName (object : SharedObject) : List Char := object.name.map foldLetter

/-- The pages behind the given objects. -/
def backing (objects : List SharedObject) : Multiset ℕ :=
  (objects.flatMap SharedObject.pages : List ℕ)

theorem backing_cons (object : SharedObject) (objects : List SharedObject) :
    backing (object :: objects) = (object.pages : Multiset ℕ) + backing objects := by
  rfl

theorem backing_perm {objects others : List SharedObject} (perm : objects.Perm others) :
    backing objects = backing others :=
  Multiset.coe_eq_coe.mpr (perm.flatMap_right _)

/-- The pages the registry owns. -/
def ownedPages (state : SharedMemory) : Multiset ℕ :=
  state.objectPool.pageAddresses + (state.attachmentPool.pageAddresses + backing state.objects)

/-- What the registry looks like, also in the middle of `acquire`. -/
structure Invariant (pagePool : PagePool) (state : SharedMemory) : Prop where
  holds : state.machine.Holds pagePool state.ownedPages
  objectRecords : state.objectPool.Stocked (state.objects.map SharedObject.record : List Slot)
  attachmentRecords :
    state.attachmentPool.Stocked (state.attachments.map SharedAttachment.record : List Slot)
  sound : ∀ object ∈ state.objects, object.Sound
  /-- No two objects have the same case-folded name. -/
  names : (state.objects.map foldedName).Nodup
  attached : ∀ attachment ∈ state.attachments, ∃ object ∈ state.objects,
    object.record = attachment.object
  counted : ∀ object ∈ state.objects, object.attachmentCount =
    state.attachments.countP fun attachment => attachment.object = object.record
  placed : ∀ attachment ∈ state.attachments,
    attachment.slotIndex < sharedMemoryViewBytes / sharedMemorySlotBytes ∧
      attachment.viewAddress = slotAddress attachment.slotIndex
  apart : state.attachments.Pairwise fun left right =>
    ¬(left.process = right.process ∧ left.slotIndex = right.slotIndex)

/-- Every object is attached somewhere. -/
def Alive (state : SharedMemory) : Prop :=
  ∀ object ∈ state.objects, 0 < object.attachmentCount

theorem Invariant.recordsDistinct (inv : state.Invariant pagePool) :
    (state.objects.map SharedObject.record).Nodup :=
  Multiset.coe_nodup.mp inv.objectRecords.serves.liveDistinct

theorem Invariant.attachmentsDistinct (inv : state.Invariant pagePool) :
    (state.attachments.map SharedAttachment.record).Nodup :=
  Multiset.coe_nodup.mp inv.attachmentRecords.serves.liveDistinct

variable {machine : Machine}

/-- A step that only touches memory keeps the invariant when it keeps the holdings. -/
theorem Invariant.withMachine (inv : state.Invariant pagePool)
    {heapEnd : ℕ} (holds : machine.Holds pagePool state.ownedPages) :
    ({ state with machine := machine, heapEnd := heapEnd } : SharedMemory).Invariant pagePool :=
  { inv with holds }

variable {object : SharedObject}

/-- The object behind a linked record. -/
theorem Invariant.objectAt (inv : state.Invariant pagePool)
    (mem : object ∈ state.objects) : state.objectAt object.record = some object := by
  unfold SharedMemory.objectAt
  cases found : state.objects.find? fun other => other.record = object.record with
  | none =>
    have absent := List.find?_eq_none.mp found object mem
    simp at absent
  | some other =>
    have same : other.record = object.record := by simpa using List.find?_some found
    rw [inj_on_of_nodup_map inv.recordsDistinct (mem_of_find?_eq_some found) mem same]

theorem objectAt_some {record : Slot} (found : state.objectAt record = some object) :
    object ∈ state.objects ∧ object.record = record :=
  ⟨mem_of_find?_eq_some found, by simpa using List.find?_some found⟩

/-! ## Counting attachments -/

section

variable {record : Slot} {change : ℕ → ℕ}

/-- Change the attachment count of one object. -/
def recount (state : SharedMemory) (record : Slot) (change : ℕ → ℕ) : SharedMemory :=
  state.modifyObject record fun object =>
    { object with attachmentCount := change object.attachmentCount }

/-- Any other fact about an object survives. -/
theorem map_recount {β : Type} (state : SharedMemory) (record : Slot) (change : ℕ → ℕ)
    {view : SharedObject → β}
    (blind : ∀ object count, view { object with attachmentCount := count } = view object) :
    (state.recount record change).objects.map view = state.objects.map view := by
  rw [recount, modifyObject, map_map]
  refine map_congr_left ?_
  intro object _
  simp only [Function.comp_apply]
  split
  · exact blind object _
  · rfl

theorem backing_recount (state : SharedMemory) (record : Slot) (change : ℕ → ℕ) :
    backing (state.recount record change).objects = backing state.objects := by
  rw [backing, backing, flatMap_def, flatMap_def, map_recount state record change fun _ _ => rfl]

/-- Attachments that fit the new count of an object. -/
theorem Invariant.relink (inv : state.Invariant pagePool) {pool : RecordPool} {heapEnd : ℕ}
    {attachments : List SharedAttachment}
    (stocked : pool.Stocked (attachments.map SharedAttachment.record : List Slot))
    (holds : machine.Holds pagePool
      (state.objectPool.pageAddresses + (pool.pageAddresses + backing state.objects)))
    (attached : ∀ attachment ∈ attachments, ∃ object ∈ state.objects,
      object.record = attachment.object)
    (counted : ∀ object ∈ state.objects, (if object.record = record then
        change object.attachmentCount else object.attachmentCount) =
      attachments.countP fun attachment => attachment.object = object.record)
    (placed : ∀ attachment ∈ attachments,
      attachment.slotIndex < sharedMemoryViewBytes / sharedMemorySlotBytes ∧
        attachment.viewAddress = slotAddress attachment.slotIndex)
    (apart : attachments.Pairwise fun left right =>
      ¬(left.process = right.process ∧ left.slotIndex = right.slotIndex)) :
    (({ state with attachments, attachmentPool := pool, machine, heapEnd } : SharedMemory).recount
      record change).Invariant pagePool := by
  refine ⟨?_, ?_, stocked, forall_mem_map.mpr fun object mem => ?_, ?_,
    fun attachment linked => ?_, forall_mem_map.mpr fun object mem => ?_, placed, apart⟩
  · rw [ownedPages, backing_recount]
    exact holds
  · rw [map_recount _ _ _ fun _ _ => by rfl]
    exact inv.objectRecords
  · have sound := inv.sound object mem
    split
    · exact { sound with }
    · exact sound
  · rw [map_recount _ _ _ fun _ _ => by rfl]
    exact inv.names
  · obtain ⟨object, mem, points⟩ := attached attachment linked
    refine ⟨_, mem_map_of_mem mem, ?_⟩
    split <;> exact points
  · have fits := counted object mem
    split <;> rename_i here
    · rwa [if_pos here] at fits
    · rwa [if_neg here] at fits

end

/-! ## Releasing -/

/-- `release_object_if_unused` gives the run and the record of an unused object back. -/
theorem Invariant.releaseObjectIfUnused (inv : state.Invariant pagePool) (record : Slot) :
    (state.releaseObjectIfUnused record).Invariant pagePool := by
  unfold SharedMemory.releaseObjectIfUnused
  split
  · exact inv
  rename_i object found
  obtain ⟨mem, here⟩ := objectAt_some found
  split
  · exact inv
  rename_i unused
  have sound := inv.sound object mem
  have split := perm_cons_filter_key inv.recordsDistinct mem
  rw [here] at split
  have stocked := inv.objectRecords
  rw [Multiset.coe_eq_coe.mpr (split.map _), map_cons, ← Multiset.cons_coe, here] at stocked
  have holds := inv.holds
  rw [ownedPages, backing_perm split, backing_cons, add_left_comm _ (object.pages : Multiset ℕ),
    add_left_comm _ (object.pages : Multiset ℕ)] at holds
  have released := holds.releaseContiguousPages
  rw [if_pos ⟨sound.based, Nat.pos_iff_ne_zero.mp sound.nonempty⟩]
  obtain ⟨_, records, kept⟩ := stocked.free released
  have subset : ∀ other ∈ state.objects.filter fun other => other.record ≠ record,
      other ∈ state.objects := fun other filtered => mem_of_mem_filter filtered
  refine ⟨kept, records, inv.attachmentRecords, ?_, ?_, ?_, ?_, inv.placed, inv.apart⟩
  · intro other filtered
    exact inv.sound other (subset other filtered)
  · exact inv.names.sublist (filter_sublist.map _)
  · intro attachment linked
    obtain ⟨target, targetMember, same⟩ := inv.attached attachment linked
    refine ⟨target, mem_filter.mpr ⟨targetMember, ?_⟩, same⟩
    -- An attachment of the released object would still be counted.
    have none := inv.counted object mem
    rw [Decidable.not_not.mp unused, eq_comm, countP_eq_zero] at none
    have elsewhere := none attachment linked
    rw [← same, here] at elsewhere
    simpa using elsewhere
  · intro other filtered
    exact inv.counted other (subset other filtered)

/-- The part of `release_attachment` before the object is looked at. -/
def unlinkAttachment (state : SharedMemory) (attachment : SharedAttachment)
    (object : SharedObject) : SharedMemory :=
  let unmapped :=
    if (state.machine.spaces attachment.process).hasRoot then
      (unmap state.machine attachment.process attachment.viewAddress object.backingBytes).2
    else
      state.machine
  let pooled := recordPoolFree state.attachmentPool unmapped attachment.record
  ({ state with
      attachments := state.attachments.filter fun other => other.record ≠ attachment.record
      attachmentPool := pooled.1
      machine := pooled.2 } : SharedMemory).recount attachment.object (· - 1)

variable {attachment : SharedAttachment}

theorem releaseAttachment_eq (found : state.objectAt attachment.object = some object) :
    state.releaseAttachment attachment =
      (state.unlinkAttachment attachment object).releaseObjectIfUnused attachment.object := by
  unfold releaseAttachment
  rw [found]
  rfl

/-- Unlinking one attachment and lowering the count of its object. -/
theorem Invariant.unlinkAttachment (inv : state.Invariant pagePool)
    (linked : attachment ∈ state.attachments) (object : SharedObject) :
    (state.unlinkAttachment attachment object).Invariant pagePool := by
  have split := perm_cons_filter_key inv.attachmentsDistinct linked
  have stocked := inv.attachmentRecords
  rw [Multiset.coe_eq_coe.mpr (split.map _), map_cons, ← Multiset.cons_coe] at stocked
  have unmapped : (if (state.machine.spaces attachment.process).hasRoot then
      (unmap state.machine attachment.process attachment.viewAddress object.backingBytes).2
      else state.machine).Holds pagePool (state.attachmentPool.pageAddresses +
        (state.objectPool.pageAddresses + backing state.objects)) := by
    rw [add_left_comm]
    split
    · exact (Machine.tableInvariant_holds pagePool _).spaceInvariant.unmap inv.holds _ _ _
    · exact inv.holds
  obtain ⟨_, records, kept⟩ := stocked.free unmapped
  rw [add_left_comm] at kept
  unfold SharedMemory.unlinkAttachment
  refine inv.relink records kept (fun other filtered => inv.attached other
    (mem_of_mem_filter filtered)) (fun object mem => ?_) (fun other filtered =>
      inv.placed other (mem_of_mem_filter filtered)) (inv.apart.sublist filter_sublist)
  have counts := inv.counted object mem
  rw [split.countP_eq, countP_cons] at counts
  split
  · rename_i here
    simp only [← here, decide_true, if_true] at counts
    simp only [counts, Nat.add_sub_cancel]
  · rename_i elsewhere
    simpa [Ne.symm elsewhere] using counts

theorem Invariant.releaseAttachment (inv : state.Invariant pagePool)
    (linked : attachment ∈ state.attachments) :
    (state.releaseAttachment attachment).Invariant pagePool := by
  obtain ⟨object, mem, same⟩ := inv.attached attachment linked
  rw [releaseAttachment_eq (same ▸ inv.objectAt mem)]
  exact (inv.unlinkAttachment linked object).releaseObjectIfUnused _

theorem attachments_releaseObjectIfUnused (state : SharedMemory) (record : Slot) :
    (state.releaseObjectIfUnused record).attachments = state.attachments := by
  unfold releaseObjectIfUnused
  split
  · rfl
  split <;> rfl

/-- Releasing one attachment unlinks no other. -/
theorem mem_attachments_releaseAttachment {other : SharedAttachment}
    (linked : other ∈ state.attachments) (ne : other.record ≠ attachment.record) :
    other ∈ (state.releaseAttachment attachment).attachments := by
  cases found : state.objectAt attachment.object with
  | none =>
    unfold releaseAttachment
    rw [found]
    exact linked
  | some =>
    rw [releaseAttachment_eq found, attachments_releaseObjectIfUnused]
    exact mem_filter.mpr ⟨linked, by simpa using ne⟩

/-- After looking at the object whose count may have dropped, every object is
attached again. -/
theorem alive_releaseObjectIfUnused {record : Slot} (inv : state.Invariant pagePool)
    (others : ∀ object ∈ state.objects, object.record ≠ record → 0 < object.attachmentCount) :
    (state.releaseObjectIfUnused record).Alive := by
  intro object mem
  unfold SharedMemory.releaseObjectIfUnused at mem
  split at mem
  · rename_i absent
    refine others object mem ?_
    intro same
    have none := List.find?_eq_none.mp absent object mem
    simp [same] at none
  rename_i target found
  obtain ⟨targetMember, here⟩ := objectAt_some found
  split at mem
  · rename_i used
    by_cases same : object.record = record
    · rw [inj_on_of_nodup_map inv.recordsDistinct mem targetMember
        (same.trans here.symm)]
      exact Nat.pos_of_ne_zero used
    · exact others object mem same
  · obtain ⟨present, ne⟩ := mem_filter.mp mem
    exact others object present (by simpa using ne)

theorem Alive.releaseAttachment (alive : state.Alive) (inv : state.Invariant pagePool)
    (linked : attachment ∈ state.attachments) :
    (state.releaseAttachment attachment).Alive := by
  obtain ⟨object, mem, same⟩ := inv.attached attachment linked
  rw [releaseAttachment_eq (same ▸ inv.objectAt mem)]
  refine alive_releaseObjectIfUnused (inv.unlinkAttachment linked object) ?_
  intro _ otherMem ne
  obtain ⟨old, oldMem, rfl⟩ := mem_map.mp otherMem
  split at ne
  · rename_i here
    exact absurd here ne
  · rename_i here
    rw [if_neg here]
    exact alive old oldMem

/-- Releasing distinct linked attachments one after the other. -/
theorem Invariant.releaseAttachments {released : List SharedAttachment}
    (inv : state.Invariant pagePool) (alive : state.Alive)
    (linked : ∀ attachment ∈ released, attachment ∈ state.attachments)
    (distinct : (released.map SharedAttachment.record).Nodup) :
    (released.foldl SharedMemory.releaseAttachment state).Invariant pagePool ∧
      (released.foldl SharedMemory.releaseAttachment state).Alive := by
  induction released generalizing state with
  | nil => exact ⟨inv, alive⟩
  | cons attachment _ ih =>
    obtain ⟨notRest, restDistinct⟩ := nodup_cons.mp distinct
    have here := linked attachment (.head _)
    refine ih (inv.releaseAttachment here) (alive.releaseAttachment inv here) ?_ restDistinct
    intro other later
    refine mem_attachments_releaseAttachment (linked other (.tail _ later)) ?_
    intro same
    exact notRest (same ▸ mem_map_of_mem later)

theorem Invariant.releaseProcessMappings (inv : state.Invariant pagePool)
    (alive : state.Alive) (process : ℕ) :
    (state.releaseProcessMappings process).Invariant pagePool ∧
      (state.releaseProcessMappings process).Alive := by
  refine inv.releaseAttachments alive ?_ ?_
  · intro _ mem
    exact mem_of_mem_filter mem
  · exact inv.attachmentsDistinct.sublist (filter_sublist.map _)

/-! ## Acquiring -/

/-- Everything the registry had before is there again, and nothing else. -/
structure Restored (pagePool : PagePool) (state after : SharedMemory) : Prop where
  invariant : after.Invariant pagePool
  objects : after.objects = state.objects
  attachments : after.attachments = state.attachments
  tables : state.machine.SameTables after.machine
  objectPages : after.objectPool.pages = state.objectPool.pages
  attachmentPages : after.attachmentPool.pages = state.attachmentPool.pages

theorem Invariant.restored (inv : state.Invariant pagePool) : Restored pagePool state state :=
  ⟨inv, rfl, rfl, ⟨rfl, rfl⟩, rfl, rfl⟩

theorem Restored.ownedPages_eq (restored : Restored pagePool state after) :
    after.ownedPages = state.ownedPages := by
  unfold ownedPages RecordPool.pageAddresses
  rw [restored.objects, restored.objectPages, restored.attachmentPages]

section

variable {process slotIndex : ℕ} {mapping : VmMapping} {arenaServes : Bool}

theorem slotAddress_eq (slotIndex : ℕ) :
    slotAddress slotIndex = (sharedMemoryViewBase / l2BlockSize + slotIndex) * l2BlockSize := by
  unfold slotAddress sharedMemorySlotBytes sharedMemoryViewBase l2BlockSize
  omega

theorem slotEntry_lt (bound : slotIndex < sharedMemoryViewBytes / sharedMemorySlotBytes) :
    sharedMemoryViewBase / l2BlockSize + slotIndex < tableEntries := by
  unfold sharedMemoryViewBytes sharedMemorySlotBytes l2BlockSize at bound
  unfold sharedMemoryViewBase l2BlockSize tableEntries
  omega

/-- A page table the heap refuses has not grown the arena. -/
theorem tableCall_refused (refused : (state.tableCall arenaServes).served = false) :
    (state.tableCall arenaServes).appended = false := by
  unfold tableCall at refused ⊢
  split
  · rfl
  · rename_i needed
    rwa [if_neg needed] at refused

/-- `map` of a view keeps all holdings, and a view that cannot be mapped leaves the page
tables alone. -/
theorem mapView_spec (state : SharedMemory) (process : ℕ) (mapping : VmMapping) (arenaServes : Bool)
    {owned : Multiset ℕ} (holds : state.machine.Holds pagePool owned)
    (bound : slotIndex < sharedMemoryViewBytes / sharedMemorySlotBytes)
    (base : mapping.virtualBase = slotAddress slotIndex) (positive : 0 < mapping.length)
    (whole : mapping.length % pageSize = 0) (inside : mapping.length ≤ sharedMemorySlotBytes) :
    ∃ status machine heapEnd, state.mapView process mapping arenaServes =
        (status, { state with machine := machine, heapEnd := heapEnd }) ∧
      machine.Holds pagePool owned ∧ (status ≠ .ok → state.machine.SameTables machine) := by
  have prepared : ({ state.machine with heapCalls := [state.tableCall arenaServes] } :
      Machine).Holds pagePool owned := holds.congr rfl rfl
  refine ⟨_, _, _, rfl, ?_, ?_⟩
  · exact ((Machine.tableInvariant_holds pagePool owned).map prepared process mapping).congr rfl rfl
  · intro failed
    rcases map_range_failed
      { state.machine with heapCalls := [state.tableCall arenaServes] } (slotEntry_lt bound)
      (base.trans (slotAddress_eq slotIndex)) positive whole inside failed with
      untouched | ⟨refused, after⟩
    · refine ⟨?_, ?_⟩
      · rw [untouched]
      · rw [untouched]
    · have notAppended := tableCall_refused
        (show (state.tableCall arenaServes).served = false from refused)
      have others : (Machine.heapAlloc
          { state.machine with heapCalls := [state.tableCall arenaServes] }).2.otherPages =
            state.machine.otherPages := by
        rw [Machine.heapAlloc]
        dsimp only
        rw [notAppended, Machine.heapAppendGrowth]
        split <;> rfl
      refine ⟨?_, ?_⟩
      · rw [after, spaces_heapAlloc]
      · rw [after, others]

end

/-- The slot `find_free_slot` picks is unused. -/
theorem findFreeSlot_unused {process slotIndex : ℕ}
    (found : state.findFreeSlot process = some slotIndex) :
    slotIndex < sharedMemoryViewBytes / sharedMemorySlotBytes ∧ ∀ attachment ∈ state.attachments,
        ¬(process = attachment.process ∧ slotIndex = attachment.slotIndex) := by
  have free := List.find?_some found
  refine ⟨mem_range.mp (mem_of_find?_eq_some found), ?_⟩
  rintro attachment mem ⟨same, occupied⟩
  have used : state.processUsesSlot process slotIndex = true :=
    any_eq_true.mpr ⟨attachment, mem, by simp [same, occupied]⟩
  rw [used] at free
  cases free

section

variable (inv : state.Invariant pagePool)
include inv

/-- Linking a new attachment and raising the count of its object. -/
theorem Invariant.linkAttachment {pool : RecordPool} {heapEnd : ℕ}
    (points : ∃ object ∈ state.objects, object.record = attachment.object) (stocked : pool.Stocked
      (attachment.record ::ₘ (state.attachments.map SharedAttachment.record : List Slot)))
    (holds : machine.Holds pagePool
      (state.objectPool.pageAddresses + (pool.pageAddresses + backing state.objects)))
    (placed : attachment.slotIndex < sharedMemoryViewBytes / sharedMemorySlotBytes ∧
      attachment.viewAddress = slotAddress attachment.slotIndex)
    (unused : ∀ other ∈ state.attachments,
      ¬(attachment.process = other.process ∧ attachment.slotIndex = other.slotIndex)) :
    (({ state with
        attachmentPool := pool
        machine := machine
        heapEnd := heapEnd
        attachments := attachment :: state.attachments } : SharedMemory).recount
          attachment.object (· + 1)).Invariant pagePool := by
  refine inv.relink stocked holds (forall_mem_cons.mpr ⟨points, inv.attached⟩)
    (fun object mem => ?_) (forall_mem_cons.mpr ⟨placed, inv.placed⟩)
    (pairwise_cons.mpr ⟨unused, inv.apart⟩)
  rw [countP_cons, ← inv.counted object mem]
  split
  · rename_i here
    simp [← here]
  · rename_i elsewhere
    simp [Ne.symm elsewhere]

/-- The last part of `acquire` attaches the process, or gives everything back. -/
theorem Invariant.attach (mem : object ∈ state.objects) (process : ℕ) (arenaServes : Bool) :
    (∃ status after, state.attach process object arenaServes = (.error status, after) ∧
      Restored pagePool state after ∧ after.objectPool = state.objectPool) ∨
    ∃ address after, state.attach process object arenaServes = (.ok address, after) ∧
      after.Invariant pagePool ∧
      ((∀ other ∈ state.objects, other.record ≠ object.record → 0 < other.attachmentCount) →
        after.Alive) := by
  unfold SharedMemory.attach
  cases found : state.findFreeSlot process with
  | none => exact .inl ⟨_, _, rfl, inv.restored, rfl⟩
  | some slotIndex =>
    obtain ⟨bound, unused⟩ := findFreeSlot_unused found
    have sound := inv.sound object mem
    have arranged := inv.holds
    rw [ownedPages, add_left_comm] at arranged
    rcases inv.attachmentRecords.allocate arranged with
      ⟨machine, allocation, tables, holds⟩ |
      ⟨record, pool, machine, allocation, tables, stocked, holds, restores⟩
    · left
      rw [add_left_comm] at holds
      refine ⟨.noSpace, { state with machine := machine }, ?_, ?_, rfl⟩
      · rw [allocation]
      · exact ⟨inv.withMachine holds, rfl, rfl, tables, rfl, rfl⟩
    · rw [allocation]
      dsimp only
      obtain ⟨status, mapped, _, view, kept, frame⟩ := mapView_spec
        { state with attachmentPool := pool, machine := machine } process
        ⟨slotAddress slotIndex, object.physicalBase, object.backingBytes, viewFlags⟩ arenaServes
        holds bound rfl sound.nonempty sound.whole sound.fits
      rw [view]
      cases status with
      | ok =>
        right
        rw [add_left_comm] at kept
        refine ⟨_, _, rfl, ?_, ?_⟩
        · exact inv.linkAttachment ⟨object, mem, rfl⟩ stocked kept ⟨bound, rfl⟩ unused
        · intro others _ otherMem
          obtain ⟨old, oldMem, rfl⟩ := mem_map.mp otherMem
          split
          · exact Nat.succ_pos _
          · rename_i elsewhere
            exact others old oldMem elsewhere
      | _ =>
        left
        obtain ⟨freeTables, returned, restored⟩ := stocked.free kept
        rw [add_left_comm] at restored
        refine ⟨_, _, rfl, ⟨{ inv with holds := restored, attachmentRecords := returned },
          rfl, rfl, ?_, rfl, restores mapped⟩, rfl⟩
        exact tables.trans ((frame (by decide)).trans freeTables)

/-- A new object with a new name and its own run. -/
theorem Invariant.linkObject {pool : RecordPool}
    (stocked : pool.Stocked (object.record ::ₘ (state.objects.map SharedObject.record : List Slot)))
    (holds : machine.Holds pagePool ((object.pages : Multiset ℕ) +
      (pool.pageAddresses + (state.attachmentPool.pageAddresses + backing state.objects))))
    (sound : object.Sound) (unattached : object.attachmentCount = 0)
    (fresh : ∀ other ∈ state.objects, foldedName other ≠ foldedName object) :
    ({ state with
        objectPool := pool
        machine := machine
        objects := object :: state.objects } : SharedMemory).Invariant pagePool := by
  have newRecord : ∀ other ∈ state.objects, other.record ≠ object.record := by
    intro other mem same
    refine (Multiset.nodup_cons.mp stocked.serves.liveDistinct).1 ?_
    rw [← same]
    exact Multiset.mem_coe.mpr (mem_map_of_mem mem)
  refine ⟨?_, stocked, inv.attachmentRecords, ?_, ?_, ?_, ?_, inv.placed, inv.apart⟩
  · rw [ownedPages, backing_cons, add_left_comm _ (object.pages : Multiset ℕ),
      add_left_comm _ (object.pages : Multiset ℕ)]
    exact holds
  · intro other mem
    rcases mem_cons.mp mem with same | old
    · rw [same]
      exact sound
    · exact inv.sound other old
  · refine nodup_cons.mpr ⟨?_, inv.names⟩
    intro taken
    obtain ⟨other, mem, same⟩ := mem_map.mp taken
    exact fresh other mem same
  · intro attachment linked
    obtain ⟨target, targetMember, points⟩ := inv.attached attachment linked
    exact ⟨target, .tail _ targetMember, points⟩
  · intro other mem
    rcases mem_cons.mp mem with same | old
    · rw [same, unattached, eq_comm, countP_eq_zero]
      intro attachment linked
      obtain ⟨target, targetMember, points⟩ := inv.attached attachment linked
      simpa [← points] using newRecord target targetMember
    · exact inv.counted other old

omit inv in
/-- An object was linked, and destroying it restores the pages of the record pool. -/
structure Created (state : SharedMemory) (object : SharedObject) (created : SharedMemory) :
    Prop where
  objects : created.objects = object :: state.objects
  attachments : created.attachments = state.attachments
  attachmentPool : created.attachmentPool = state.attachmentPool
  tables : state.machine.SameTables created.machine
  unattached : object.attachmentCount = 0
  restores : ∀ later, (recordPoolFree created.objectPool later object.record).1.pages =
    state.objectPool.pages

/-- The creating branch links a new object, or gives everything back. -/
theorem Invariant.createObject {name : List Char}
    {requestedSize : ℕ} (fits : requestedSize ≤ sharedMemorySlotBytes)
    (fresh : ∀ other ∈ state.objects, foldedName other ≠ name.map foldLetter) :
    (∃ status after, state.createObject name requestedSize = (.error status, after) ∧
      Restored pagePool state after) ∨
    ∃ object created, state.createObject name requestedSize = (.ok object, created) ∧
      created.Invariant pagePool ∧ Created state object created := by
  unfold SharedMemory.createObject
  rcases inv.objectRecords.allocate inv.holds with
    ⟨machine, allocation, tables, holds⟩ |
    ⟨record, pool, machine, allocation, tables, stocked, holds, restores⟩
  · left
    rw [allocation]
    exact ⟨_, _, rfl, inv.withMachine holds, rfl, rfl, tables, rfl, rfl⟩
  · rw [allocation]
    dsimp only
    have back : ∀ other : Machine, machine.SameTables other →
        other.Holds pagePool (pool.pageAddresses +
          (state.attachmentPool.pageAddresses + backing state.objects)) →
        Restored pagePool state
          { state with
            objectPool := (recordPoolFree pool other record).1
            machine := (recordPoolFree pool other record).2 } := by
      intro other same otherHolds
      obtain ⟨freeTables, returned, restored⟩ := stocked.free otherHolds
      exact ⟨{ inv with holds := restored, objectRecords := returned }, rfl, rfl,
        tables.trans (same.trans freeTables), restores other, rfl⟩
    split
    · exact .inl ⟨_, _, rfl, back machine ⟨rfl, rfl⟩ holds⟩
    rename_i nonempty
    have pages : alignUpToPage requestedSize / pageSize ≠ 0 := by
      intro none
      have rounded := FileMappings.alignUpToPage_div_mul requestedSize
      rw [none, Nat.zero_mul] at rounded
      exact nonempty rounded.symm
    rcases holds.reserveContiguousPages (alignUpToPage requestedSize / pageSize) with
      ⟨zero, unchanged⟩ | ⟨granted, reserved⟩
    · rw [if_pos (.inr zero)]
      exact .inl ⟨_, _, rfl, back _ ⟨rfl, rfl⟩ (holds.congr unchanged rfl)⟩
    · rw [if_neg (not_or.mpr ⟨pages, granted⟩)]
      right
      refine ⟨_, _, rfl, ?_, rfl, rfl, rfl, ⟨tables.spaces, tables.otherPages⟩, rfl, restores⟩
      refine inv.linkObject stocked reserved ⟨Nat.pos_of_ne_zero nonempty, ?_,
        FileMappings.alignUpToPage_le fits, granted⟩ rfl fresh
      rw [← FileMappings.alignUpToPage_div_mul]
      exact Nat.mul_mod_left _ _

end

/-- Destroying the object that was just created restores what was there before it. -/
theorem Created.destroy {created : SharedMemory} (isCreated : Created state object created)
    (restored : Restored pagePool created after)
    (objectPool : after.objectPool = created.objectPool) :
    Restored pagePool state (after.releaseObjectIfUnused object.record) := by
  have members : after.objects = object :: state.objects :=
    restored.objects.trans isCreated.objects
  have mem : object ∈ after.objects := by
    rw [members]
    exact .head _
  have found := restored.invariant.objectAt mem
  have newRecord : object.record ∉ state.objects.map SharedObject.record := by
    have distinct := restored.invariant.recordsDistinct
    rw [members] at distinct
    exact (nodup_cons.mp distinct).1
  have inv := restored.invariant.releaseObjectIfUnused object.record
  unfold SharedMemory.releaseObjectIfUnused at inv ⊢
  rw [found] at inv ⊢
  dsimp only at inv ⊢
  rw [if_neg (not_not.mpr isCreated.unattached)] at inv ⊢
  refine ⟨inv, ?_, restored.attachments.trans isCreated.attachments, ?_, ?_, ?_⟩
  · show after.objects.filter (fun other => other.record ≠ object.record) = state.objects
    rw [members, filter_cons_of_neg (by simp), filter_eq_self]
    intro other mem
    have ne : other.record ≠ object.record := by
      intro same
      exact newRecord (same ▸ mem_map_of_mem mem)
    simpa using ne
  · refine isCreated.tables.trans (restored.tables.trans ?_)
    have freed : ∀ machine : Machine,
        machine.SameTables (recordPoolFree after.objectPool machine object.record).2 := by
      intro _
      unfold recordPoolFree
      split
      · exact ⟨rfl, rfl⟩
      split <;> exact ⟨rfl, rfl⟩
    refine Machine.SameTables.trans ?_ (freed _)
    split <;> exact ⟨rfl, rfl⟩
  · rw [← isCreated.restores, ← objectPool]
  · exact restored.attachmentPages.trans (congrArg RecordPool.pages isCreated.attachmentPool)

/-- A name that is not found belongs to no object. -/
theorem unnamed_of_notFound {name : List Char} (unfound : state.findObjectByName name = none) :
    ∀ other ∈ state.objects, foldedName other ≠ name.map foldLetter := by
  intro other mem same
  exact List.find?_eq_none.mp unfound other mem (beq_iff_eq.mpr same)

/-- `acquire` fails without a trace or leaves a registry in order. -/
theorem Invariant.acquire (inv : state.Invariant pagePool) (alive : state.Alive)
    (process : ℕ) (name : List Char) (requestedSize : ℕ) (arenaServes : Bool) :
    (∃ status after, state.acquire process name requestedSize arenaServes = (.error status, after) ∧
      Restored pagePool state after) ∨
    ∃ address after, state.acquire process name requestedSize arenaServes = (.ok address, after) ∧
      after.Invariant pagePool ∧ after.Alive := by
  unfold SharedMemory.acquire
  split
  · exact .inl ⟨_, _, rfl, inv.restored⟩
  split
  · exact .inr ⟨_, _, rfl, inv, alive⟩
  cases found : state.findObjectByName name with
  | some object =>
    have mem : object ∈ state.objects := mem_of_find?_eq_some found
    dsimp only
    split
    · exact .inl ⟨_, _, rfl, inv.restored⟩
    rcases inv.attach mem process arenaServes with
      ⟨status, failed, result, restored, _⟩ | ⟨address, attached, result, kept, others⟩
    · exact .inl ⟨status, failed, result, restored⟩
    · exact .inr ⟨address, attached, result, kept, others fun other otherMem _ =>
        alive other otherMem⟩
  | none =>
    dsimp only
    split
    · exact .inl ⟨_, _, rfl, inv.restored⟩
    rcases inv.createObject
      (show requestedSize ≤ sharedMemorySlotBytes by omega) (unnamed_of_notFound found) with
      ⟨status, failed, result, restored⟩ |
      ⟨object, created, result, kept, isCreated⟩
    · rw [result]
      exact .inl ⟨_, _, rfl, restored⟩
    · rw [result]
      dsimp only
      rcases kept.attach (isCreated.objects ▸ mem_cons_self) process arenaServes with
        ⟨status, failed, attempt, restored, objectPool⟩ |
        ⟨address, attached, attempt, attachedInvariant, others⟩
      · rw [attempt]
        exact .inl ⟨_, _, rfl, isCreated.destroy restored objectPool⟩
      · rw [attempt]
        refine .inr ⟨_, _, rfl, attachedInvariant, others ?_⟩
        intro other otherMem ne
        rw [isCreated.objects] at otherMem
        rcases mem_cons.mp otherMem with same | old
        · exact absurd (congrArg SharedObject.record same) ne
        · exact alive other old

/-! ## Runs -/

/-- The registry between two calls. -/
structure Registered (state : SharedMemory) : Prop where
  names : (state.objects.map foldedName).Nodup
  counted : ∀ object ∈ state.objects, object.attachmentCount =
    state.attachments.countP fun attachment => attachment.object = object.record
  /-- An object that exists is attached somewhere. -/
  alive : ∀ object ∈ state.objects, 0 < object.attachmentCount
  exists_object : ∀ attachment ∈ state.attachments, ∃ object ∈ state.objects,
    object.record = attachment.object
  records : (state.objects.map SharedObject.record).Nodup
  slots : state.attachments.Pairwise fun left right =>
    left.process = right.process → left.slotIndex ≠ right.slotIndex
  views : ∀ attachment ∈ state.attachments,
    attachment.viewAddress = sharedMemoryViewBase + attachment.slotIndex * 0x200000

/-- Objects, attachments, page tables and the set of free pages are as before. -/
structure Unchanged (state after : SharedMemory) : Prop where
  objects : after.objects = state.objects
  attachments : after.attachments = state.attachments
  spaces : after.machine.spaces = state.machine.spaces
  freePages : ∀ phys, phys ∈ after.machine.physical.freePages ↔
    phys ∈ state.machine.physical.freePages

theorem Restored.unchanged (restored : Restored pagePool state after)
    (inv : state.Invariant pagePool) : Unchanged state after := by
  refine ⟨restored.objects, restored.attachments, restored.tables.spaces, ?_⟩
  intro _
  have holds := restored.invariant.holds
  rw [restored.ownedPages_eq] at holds
  exact inv.holds.free_iff holds restored.tables.otherPages

theorem Invariant.registered (inv : state.Invariant pagePool) (alive : state.Alive) :
    state.Registered := by
  refine ⟨inv.names, inv.counted, alive, inv.attached, inv.recordsDistinct, inv.apart.imp ?_, ?_⟩
  · intro _ _ apart process slotIndex
    exact apart ⟨process, slotIndex⟩
  · intro attachment linked
    exact (inv.placed attachment linked).2

theorem invariant_boot (pagePool : PagePool) : (boot pagePool).Invariant pagePool := by
  have empty : (boot pagePool).ownedPages = 0 := rfl
  refine ⟨⟨⟨?_, ?_, ?_⟩, PhysicalMemory.exact_init pagePool, rfl⟩, ⟨⟨?_, ?_, ?_, ?_⟩, ?_⟩,
    ⟨⟨?_, ?_, ?_, ?_⟩, ?_⟩, ?_, ?_, ?_, ?_, ?_, List.Pairwise.nil⟩
  · rw [empty, zero_add]
    exact PhysicalMemory.sound_init pagePool
  · rw [empty]
    exact Multiset.nodup_zero
  · intro _ mem
    cases mem
  all_goals simp [boot, RecordPool.pageAddresses, RecordPool.Busy]

theorem Invariant.otherPages (inv : state.Invariant pagePool)
    (owned : machine.Owned state.ownedPages)
    (exact : machine.physical.Exact ∧ machine.physical.pool = pagePool) :
    ({ state with machine := machine } : SharedMemory).Invariant pagePool :=
  inv.withMachine ⟨owned, exact.1, exact.2⟩

/-- One step. -/
theorem Invariant.perform (inv : state.Invariant pagePool) (alive : state.Alive)
    (operation : Operation) :
    (state.perform operation).Invariant pagePool ∧ (state.perform operation).Alive := by
  have pages := Machine.pageInvariant_exact pagePool
  have exact : state.machine.physical.Exact ∧ state.machine.physical.pool = pagePool :=
    ⟨inv.holds.exact, inv.holds.pool⟩
  have owned := inv.holds.ownership
  cases operation with
  | acquire process name requestedSize arenaServes =>
    rcases inv.acquire alive process name requestedSize arenaServes with
      ⟨status, after, result, restored⟩ | ⟨address, after, result, kept⟩
    · rw [SharedMemory.perform, result]
      refine ⟨restored.invariant, ?_⟩
      intro object mem
      rw [restored.objects] at mem
      exact alive object mem
    · rw [SharedMemory.perform, result]
      exact kept
  | releaseProcessMappings process => exact inv.releaseProcessMappings alive process
  | heapAppendGrowth => exact ⟨inv.withMachine (inv.holds.heapAppendGrowth _ _), alive⟩
  | otherAllocPage =>
    refine ⟨inv.otherPages (FileMappings.owned_otherAllocPage owned) ?_, alive⟩
    unfold FileMappings.otherAllocPage
    split <;> exact pages.allocPage _ exact
  | otherFreePage phys =>
    refine ⟨inv.otherPages (FileMappings.owned_otherFreePage owned phys) ?_, alive⟩
    unfold FileMappings.otherFreePage
    split
    · exact pages.freePage _ _ exact
    · exact exact
  | otherRetainPage phys =>
    refine ⟨inv.otherPages (FileMappings.owned_otherRetainPage owned phys) ?_, alive⟩
    unfold FileMappings.otherRetainPage
    split
    · rename_i mem
      have held : phys ∈ state.ownedPages + (state.machine.otherPages : Multiset ℕ) :=
        Multiset.mem_add.mpr (.inr (Multiset.mem_coe.mpr mem))
      refine ⟨exact.1.retainPage ?_, (PhysicalMemory.pool_retainPage _ _).trans exact.2⟩
      intro _ found
      rw [(owned.sound.managesHeld phys held).pageFromPhys] at found
      obtain rfl := Option.some.inj found
      exact owned.sound.accounts.count_pos held
    · exact exact
  | otherSpace => exact ⟨inv.withMachine (inv.holds.congr rfl rfl), alive⟩

theorem Reachable.registryInvariant {condition : SharedMemory → Operation → Prop}
    (reached : Reachable condition pagePool state) :
    state.Invariant pagePool ∧ state.Alive := by
  induction reached with
  | start isBoot =>
    cases isBoot
    refine ⟨invariant_boot pagePool, ?_⟩
    intro _ mem
    cases mem
  | step _ operation _ stepped ih =>
    cases stepped
    exact ih.1.perform ih.2 operation

/-- In every run the registry is in order between two calls, and an `acquire` that fails
changes nothing. -/
theorem sharedMemory_registered (pagePool : PagePool) (state : SharedMemory)
    (reached : Reachable (fun _ _ => True) pagePool state) :
    state.Registered ∧ ∀ process name requestedSize arenaServes status after,
      state.acquire process name requestedSize arenaServes = (.error status, after) →
      Unchanged state after := by
  obtain ⟨invariant, alive⟩ := reached.registryInvariant
  refine ⟨invariant.registered alive, ?_⟩
  intro process name requestedSize arenaServes _ _ failed
  rcases invariant.acquire alive process name requestedSize arenaServes with
    ⟨_, other, result, restored⟩ | ⟨_, other, result, _⟩
  · obtain ⟨_, rfl⟩ := Prod.mk.inj (failed.symm.trans result)
    exact restored.unchanged invariant
  · cases failed.symm.trans result

/-- Process 7 has created a two-page object in a pool of eight pages. -/
def oneObject : SharedMemory :=
  ((boot eightPages).perform
    (.otherSpace 7 ⟨true, fun _ => .invalid⟩)).perform (.acquire 7 ['S'] 8192 true)

/-- Process 8 has no address space and fails to attach to the object and to create
one of its own. -/
theorem sharedMemory_registered_oneObject :
    oneObject.objects.length = 1 ∧ oneObject.attachments.length = 1 ∧ oneObject.Registered ∧
      (∃ after, oneObject.acquire 8 ['s'] 0 false = (.error .notSupported, after) ∧
        Unchanged oneObject after) ∧
      ∃ after, oneObject.acquire 8 ['t'] 4096 false = (.error .notSupported, after) ∧
        Unchanged oneObject after := by
  have reached : Reachable (fun _ _ => True) eightPages oneObject :=
    .step (.step (.start rfl) _ trivial rfl) _ trivial rfl
  obtain ⟨registered, unchanged⟩ :=
    sharedMemory_registered eightPages oneObject reached
  refine ⟨by decide +kernel, by decide +kernel, registered, ⟨_, rfl, ?_⟩, _, rfl, ?_⟩
  · exact unchanged 8 ['s'] 0 false _ _ rfl
  · exact unchanged 8 ['t'] 4096 false _ _ rfl

end SharedMemory

end RosKernel.Memory
