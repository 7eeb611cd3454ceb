import RosKernel.Memory.FileMappingViews

/-!
# Views along a run

Every operation of the file-mapping service keeps views, slots and page tables in
step, and so does every resize, as long as views start at the first page of their
object.
-/

namespace RosKernel.Memory.FileMappings

open List Function

/-! ## The service keeps the arrangement -/

/-- The arrangement of the registry's views. -/
def Views (state : FileMappings) : Prop :=
  Arranged state.machine.spaces state.attachments (state.objects.map extent)

section

variable {state after : FileMappings}

/-- Steps that touch neither page tables nor views nor pages. -/
theorem Views.of_eq (views : state.Views) (spaces : after.machine.spaces = state.machine.spaces)
    (attachments : after.attachments = state.attachments)
    (extents : after.objects.map extent = state.objects.map extent) : after.Views := by
  unfold Views
  rw [spaces, attachments, extents]
  exact views

theorem map_extent_modifyObject (state : FileMappings) (record : Slot) {update : Object → Object}
    (keeps : ∀ object, extent (update object) = extent object) :
    (state.modifyObject record update).objects.map extent = state.objects.map extent := by
  rw [modifyObject, map_map]
  refine map_congr_left ?_
  intro object _
  simp only [comp_apply]
  split
  · exact keeps object
  · rfl

/-- The page array of an object is sound as soon as it fits a slot. -/
theorem Invariant.soundExtent (inv : state.Invariant) {object : Object}
    (mem : object ∈ state.objects)
    (fits : object.backingBytes ≤ fileMappingViewSlotBytes) : (extent object).Sound := by
  have backed := inv.backed object mem
  refine ⟨?_, fits, ?_⟩
  · show object.backingBytes = object.backingPages.length * pageSize
    rw [backed.sized, backed.counted]
  · intro phys page
    have held : phys ∈ state.objectPool.pageAddresses +
        (state.attachmentPool.pageAddresses + backing state.objects) :=
      Multiset.mem_add.mpr (.inr (Multiset.mem_add.mpr (.inr (mem_backing mem page))))
    have aligned := (inv.owned.manages held).aligned
    unfold pageSize at *
    omega

theorem Views.fits (views : state.Views) {object : Object} (mem : object ∈ state.objects) :
    object.backingBytes ≤ fileMappingViewSlotBytes :=
  (views.sound _ (mem_map_of_mem mem)).fits

theorem Invariant.distinctExtents (inv : state.Invariant) :
    ((state.objects.map extent).map Extent.record).Nodup := by
  rw [map_map]
  exact Multiset.coe_nodup.mp inv.objectsServed.liveDistinct

/-- Dropping objects without views. -/
theorem Views.dropObjects (views : state.Views) (afterInvariant : after.Invariant)
    (spaces : after.machine.spaces = state.machine.spaces)
    (attachments : after.attachments = state.attachments)
    (subset : ∀ object ∈ after.objects, object ∈ state.objects) : after.Views := by
  unfold Views
  rw [spaces, attachments]
  refine Arranged.withExtents views afterInvariant.distinctExtents ?_ ?_
  · intro _ mem
    obtain ⟨object, objectMember, rfl⟩ := mem_map.mp mem
    exact views.sound _ (mem_map_of_mem (subset object objectMember))
  · rintro _ mem ⟨view, viewMember, points⟩
    obtain ⟨target, targetMember, targetPoints⟩ :=
      afterInvariant.attached view (attachments ▸ viewMember)
    have same := Arranged.unique views mem (mem_map_of_mem (subset target targetMember))
      (points.trans targetPoints.symm)
    rw [same]
    exact mem_map_of_mem targetMember

@[simp] theorem spaces_releaseBackingPages (pages : List ℕ) (machine : Machine) :
    (releaseBackingPages pages machine).spaces = machine.spaces := by
  induction pages generalizing machine with
  | nil => rfl
  | cons _ _ ih =>
    rw [releaseBackingPages, foldl_cons, ← releaseBackingPages, ih]
    split <;> rfl

@[simp] theorem spaces_fillBackingPages (remaining : ℕ) (pages : List ℕ) (machine : Machine) :
    (fillBackingPages remaining pages machine).2.spaces = machine.spaces := by
  induction remaining generalizing pages machine with
  | zero => rfl
  | succ _ ih =>
    rw [fillBackingPages]
    split
    · rw [spaces_releaseBackingPages, spaces_allocPage]
    · rw [ih, spaces_allocPage]

@[simp] theorem spaces_allocateBacking (machine : Machine) (size : ℕ) :
    (allocateBacking machine size).2.spaces = machine.spaces := by
  have allocated := spaces_heapAlloc machine
  unfold allocateBacking
  dsimp only
  split
  · rfl
  split
  · rename_i same
    rwa [same] at allocated
  rename_i served same
  rw [same] at allocated
  have filled := spaces_fillBackingPages (alignUpToPage size / pageSize) [] served
  split
  · rename_i fill
    rw [fill] at filled
    exact filled.trans allocated
  · rename_i fill
    rw [fill] at filled
    exact filled.trans allocated

theorem Views.releaseObjectIfUnused (views : state.Views) (inv : state.Invariant)
    (record : Slot) : (state.releaseObjectIfUnused record).Views := by
  refine views.dropObjects (inv.releaseObjectIfUnused record) ?_ ?_ ?_ <;>
    unfold FileMappings.releaseObjectIfUnused
  · split
    · rfl
    split
    · rfl
    · simp
  · split
    · rfl
    split <;> rfl
  · intro _ mem
    split at mem
    · exact mem
    split at mem
    · exact mem
    · exact mem_of_mem_filter mem

variable {view : Attachment}

/-- Unlinking a view empties its slot and changes no other page table. -/
theorem Shows.spaces_unlinkAttachment {object : Extent}
    (shows : Shows state.machine.spaces view object) (sound : object.Sound)
    (placed : view.slotIndex < viewSlots ∧ view.viewAddress = slotAddress view.slotIndex) :
    (state.unlinkAttachment view).machine.spaces =
      withDescriptor state.machine.spaces view.process (viewIndex view.slotIndex) .invalid := by
  have unmapped := shows.unmap sound placed.1
  rw [← placed.2] at unmapped
  unfold unlinkAttachment
  rw [if_pos shows.root]
  exact (RecordPool.spaces_free _ _ _).trans unmapped

theorem Views.unlinkAttachment (views : state.Views) (inv : state.Invariant)
    (linked : view ∈ state.attachments) :
    (state.unlinkAttachment view).Views := by
  have distinct : (state.attachments.map Attachment.record).Nodup :=
    Multiset.coe_nodup.mp inv.attachmentsServed.liveDistinct
  obtain ⟨object, mem, _, shows⟩ := views.shown view linked
  have detached := Arranged.detach views distinct linked
  rw [← shows.spaces_unlinkAttachment (views.sound object mem) (views.placed view linked)]
    at detached
  unfold Views
  rw [show (state.unlinkAttachment view).objects.map extent = state.objects.map extent from
    map_extent_modifyObject _ _ fun _ => rfl]
  exact detached

theorem Views.releaseAttachment (views : state.Views) (inv : state.Invariant)
    (linked : view ∈ state.attachments) :
    (state.releaseAttachment view).Views :=
  (views.unlinkAttachment inv linked).releaseObjectIfUnused
    (inv.unlinkAttachment linked) _

end

section

variable {state : FileMappings}

section

variable (views : state.Views) (inv : state.Invariant)
include views inv

theorem Views.releaseProcessMappings
    (process : ℕ) : (state.releaseProcessMappings process).Views := by
  refine (@Invariant.releaseProcessMappings state inv
    (fun state => state.Views ∧ state.Invariant) process ⟨views, inv⟩ ?_).1
  rintro _ _ linked ⟨views, inv⟩
  exact ⟨views.releaseAttachment inv linked, inv.releaseAttachment linked⟩

theorem Views.createObject (path : List Char) {size : ℕ} (fits : size ≤ fileMappingViewSlotBytes) :
    (state.createObject path size).2.Views := by
  have afterInvariant := inv.createObject path size
  have spaces := RecordPool.spaces_allocate state.objectPool state.machine
  unfold FileMappings.createObject at afterInvariant ⊢
  rcases allocation : state.objectPool.allocate state.machine with ⟨result, _, allocated⟩
  rw [allocation] at spaces afterInvariant
  cases result with
  | none => exact views.of_eq spaces rfl rfl
  | some =>
    have backing := spaces_allocateBacking allocated size
    dsimp only at afterInvariant ⊢
    rcases call : allocateBacking allocated size with ⟨answer, filled⟩
    rw [call] at backing afterInvariant
    cases answer with
    | error =>
      exact views.of_eq ((RecordPool.spaces_free _ _ _).trans (backing.trans spaces)) rfl rfl
    | ok =>
      unfold Views
      rw [show filled.spaces = state.machine.spaces from backing.trans spaces]
      refine Arranged.withExtents views afterInvariant.distinctExtents ?_ ?_
      · intro kept mem
        obtain ⟨_, objectMember, rfl⟩ := mem_map.mp mem
        refine afterInvariant.soundExtent objectMember ?_
        rcases mem_append.mp objectMember with old | new
        · exact views.fits old
        · rw [mem_singleton.mp new]
          exact alignUpToPage_le fits
      · intro _ mem _
        exact map_append ▸ mem_append_left _ mem

theorem Views.openOrCreate (path : List Char) (size : ℕ) (createWhenMissing : Bool) :
    (state.openOrCreate path size createWhenMissing).2.Views := by
  unfold FileMappings.openOrCreate
  split
  · exact views
  split
  · split
    · exact views
    split
    · exact views
    · exact views.of_eq rfl rfl (map_extent_modifyObject _ _ fun _ => rfl)
  · split
    · exact views
    split
    · exact views
    · rename_i fits
      exact views.createObject inv path (Nat.le_of_not_lt fits)

theorem Views.closeFileMapping (handle : ℕ) : (state.closeFileMapping handle).2.Views := by
  unfold FileMappings.closeFileMapping
  split
  · exact views
  split
  · exact views
  · refine Views.releaseObjectIfUnused ?_ ?_ _
    · exact views.of_eq rfl rfl (map_extent_modifyObject _ _ fun _ => rfl)
    · exact inv.modifyObject (fun _ => ⟨rfl, rfl, rfl, rfl⟩) fun _ => rfl

theorem Views.unmapViewOfFile
    (process address : ℕ) : (state.unmapViewOfFile process address).2.Views := by
  unfold FileMappings.unmapViewOfFile
  split
  · exact views
  split
  · exact views
  · rename_i found
    exact views.releaseAttachment inv (mem_of_find?_eq_some found)

end

/-! ## Mapping a view -/

/-- The slot `reserve_view_slot` picks is unused. -/
theorem reserveViewSlot_unused {process slotIndex : ℕ}
    (reserved : state.reserveViewSlot process = some slotIndex) :
    slotIndex < viewSlots ∧ ∀ view ∈ state.attachments, view.process = process →
      view.slotIndex ≠ slotIndex := by
  have free := List.find?_some reserved
  refine ⟨mem_range.mp (mem_of_find?_eq_some reserved), ?_⟩
  intro view mem same occupied
  have used : state.processUsesSlot process slotIndex = true :=
    any_eq_true.mpr ⟨view, mem, by simp [same, occupied]⟩
  rw [used] at free
  cases free

/-- A request for a new view of the first pages of an object. -/
structure FreshView (state : FileMappings) (process : ℕ) (object : Object)
    (mappedBytes slotIndex : ℕ) : Prop where
  member : object ∈ state.objects
  unattached : state.findAttachment process object.record = none
  reserved : state.reserveViewSlot process = some slotIndex
  positive : 0 < mappedBytes
  whole : mappedBytes % pageSize = 0
  within : mappedBytes ≤ object.backingBytes

variable {process mappedBytes slotIndex : ℕ} {object : Object}

theorem FreshView.unused (fresh : state.FreshView process object mappedBytes slotIndex) :
    ∀ view ∈ state.attachments, view.process = process →
      view.slotIndex ≠ slotIndex ∧ view.object ≠ object.record := by
  intro view mem same
  refine ⟨(reserveViewSlot_unused fresh.reserved).2 view mem same, ?_⟩
  intro points
  have absent := List.find?_eq_none.mp fresh.unattached view mem
  simp [same, points] at absent

/-- A new view shows the first pages of its object, or nothing changes in the page
tables. -/
theorem Views.attachView (views : state.Views)
    (fresh : state.FreshView process object mappedBytes slotIndex) :
    (state.attachView process object 0 mappedBytes slotIndex).2.Views ∧
      ∀ address, (state.attachView process object 0 mappedBytes slotIndex).1 = .ok address →
        address = slotAddress slotIndex ∧ slotIndex < viewSlots ∧
        ∃ view, view.process = process ∧ view.slotIndex = slotIndex ∧ view.viewBytes = mappedBytes ∧
          Shows (state.attachView process object 0 mappedBytes slotIndex).2.machine.spaces view
            (extent object) := by
  obtain ⟨bound, _⟩ := reserveViewSlot_unused fresh.reserved
  have unused := fresh.unused
  have sound := views.sound _ (mem_map_of_mem fresh.member)
  have spaces := RecordPool.spaces_allocate state.attachmentPool state.machine
  have positive : 0 < mappedBytes / pageSize := by
    have positive := fresh.positive
    have whole := fresh.whole
    unfold pageSize at *
    omega
  have inside : mappedBytes / pageSize ≤ tableEntries := by
    have within : mappedBytes ≤ object.backingPages.length * pageSize := sound.sized ▸ fresh.within
    have length : object.backingPages.length ≤ tableEntries := sound.length_le
    exact (Nat.div_le_of_le_mul (by rw [Nat.mul_comm]; exact within)).trans length
  unfold FileMappings.attachView
  rcases allocation : state.attachmentPool.allocate state.machine with ⟨result, _, allocated⟩
  rw [allocation] at spaces
  cases result with
  | none =>
    refine ⟨views.of_eq spaces rfl rfl, ?_⟩
    intro address granted
    cases granted
  | some record =>
    have noTable : ∀ entries,
        (allocated.spaces process).levelTwo (viewIndex slotIndex) ≠ .table entries := by
      rw [spaces]
      refine views.idle process slotIndex bound ?_
      rintro view mem ⟨same, occupied⟩
      exact (unused view mem same).1 occupied
    simp only [Nat.zero_div]
    rcases mapBackingPages_fresh allocated positive bound sound.aligned noTable inside with
      ⟨mapped, run, root, mappedSpaces⟩ | ⟨status, failed, run, refused, failedSpaces⟩
    · rw [spaces] at root mappedSpaces
      have attached := Arranged.attach views
        ⟨record, slotIndex, process, object.record, slotAddress slotIndex, mappedBytes⟩
        bound rfl unused (mem_map_of_mem fresh.member) rfl root fresh.positive fresh.whole
        fresh.within
      have shows : Shows mapped.spaces
          ⟨record, slotIndex, process, object.record, slotAddress slotIndex, mappedBytes⟩
          (extent object) :=
        ⟨by rw [mappedSpaces, hasRoot_withDescriptor]; exact root, fresh.positive, fresh.whole,
          fresh.within, by rw [mappedSpaces]; exact levelTwo_withDescriptor_self⟩
      rw [show (extent object).pages = object.backingPages from rfl] at run mappedSpaces
      rw [run]
      refine ⟨?_, ?_⟩
      · unfold Views
        rw [map_extent_modifyObject _ _ fun _ => by rfl]
        exact mappedSpaces ▸ attached
      · intro address granted
        cases granted
        exact ⟨rfl, bound, _, rfl, rfl, rfl, shows⟩
    · rw [show (extent object).pages = object.backingPages from rfl] at run
      rw [run]
      cases status with
      | ok => exact absurd rfl refused
      | _ =>
        refine ⟨views.of_eq ((RecordPool.spaces_free _ _ _).trans (failedSpaces.trans spaces))
          rfl rfl, ?_⟩
        intro _ granted
        cases granted

end

section

variable {state : FileMappings} {process handle offset size : ℕ}

/-- The request maps from the first page on, and asks for no more than a view the
process already has of the object. -/
def mapsFromStart (state : FileMappings) (process handle offset size : ℕ) : Bool :=
  offset == 0 &&
    match state.findObjectByHandle handle with
    | none => true
    | some object =>
      match state.findAttachment process object.record with
      | none => true
      | some view => alignUpToPage size ≤ view.viewBytes

/-- The pages asked for are what the process reaches at the address returned. -/
def ShowsRequest (state after : FileMappings) (process handle offset size address : ℕ) : Prop :=
  ∃ object, state.findObjectByHandle handle = some object ∧
    ∀ page < alignUpToPage size / pageSize, ∃ phys,
      object.backingPages[offset / pageSize + page]? = some phys ∧
      (after.machine.spaces process).translate (address + page * pageSize) = some phys

/-- `MapViewOfFile` from the first page on keeps the arrangement and returns an
address that shows what was asked for. -/
theorem Views.mapViewOfFile (views : state.Views)
    (fromStart : mapsFromStart state process handle offset size = true) :
    (state.mapViewOfFile process handle offset size).2.Views ∧
      ∀ address, (state.mapViewOfFile process handle offset size).1 = .ok address →
        ShowsRequest state (state.mapViewOfFile process handle offset size).2
          process handle offset size address := by
  obtain ⟨start, covered⟩ := Bool.and_eq_true_iff.mp fromStart
  obtain rfl : offset = 0 := beq_iff_eq.mp start
  have failed : ∀ {status : Status},
      state.Views ∧ ∀ address, (.error status : Except Status ℕ) = .ok address →
        ShowsRequest state state process handle 0 size address :=
    ⟨views, fun _ granted => by cases granted⟩
  unfold FileMappings.mapViewOfFile
  dsimp only
  split
  · exact failed
  split
  · exact failed
  split
  · exact failed
  rename_i accepted
  push Not at accepted
  cases found : state.findObjectByHandle handle with
  | none => exact failed
  | some object =>
    rw [found] at covered
    have mem : object ∈ state.objects := mem_of_find?_eq_some found
    dsimp only at covered ⊢
    split
    · exact failed
    split
    · exact failed
    rename_i inRange
    push Not at inRange
    cases existing : state.findAttachment process object.record with
    | some view =>
      rw [existing] at covered
      have linked : view ∈ state.attachments := mem_of_find?_eq_some existing
      have here : view.process = process ∧ view.object = object.record := by
        simpa using List.find?_some existing
      obtain ⟨_, shownMember, points, shows⟩ := views.shown view linked
      obtain ⟨bound, address⟩ := views.placed view linked
      have same := Arranged.unique views shownMember (mem_map_of_mem mem) (points.trans here.2)
      rw [same] at shows
      refine ⟨views, ?_⟩
      intro _ granted
      cases granted
      refine ⟨object, found, ?_⟩
      intro page inside
      have pages : page < view.viewBytes / pageSize :=
        lt_of_lt_of_le inside (Nat.div_le_div_right (by simpa using covered))
      obtain ⟨phys, backing, reached⟩ :=
        shows.translate (views.sound _ (mem_map_of_mem mem)) bound pages
      refine ⟨phys, ?_, ?_⟩
      · rw [Nat.zero_div, Nat.zero_add]
        exact backing
      · rw [← here.1, address]
        exact reached
    | none =>
      cases reserved : state.reserveViewSlot process with
      | none => exact failed
      | some slotIndex =>
        have fresh : state.FreshView process object (alignUpToPage size) slotIndex :=
          ⟨mem, existing, reserved, Nat.pos_of_ne_zero accepted.1,
            by rw [← alignUpToPage_div_mul]; exact Nat.mul_mod_left _ _,
            by have room := inRange.2; omega⟩
        obtain ⟨kept, granted⟩ := views.attachView fresh
        refine ⟨kept, ?_⟩
        intro address answer
        obtain ⟨rfl, bound, _, rfl, rfl, bytes, shows⟩ := granted address answer
        refine ⟨object, found, ?_⟩
        intro _ inside
        obtain ⟨phys, backing, reached⟩ :=
          shows.translate (views.sound _ (mem_map_of_mem mem)) bound
            (by rw [bytes]; exact inside)
        refine ⟨phys, ?_, reached⟩
        rw [Nat.zero_div, Nat.zero_add]
        exact backing

end

/-! ## Resizing -/

section

variable {state : FileMappings} {object : Object}

/-- The data of a resize that appends pages to an object. -/
def growth (object : Object) (added : List ℕ) (newBytes : ℕ) : Resize :=
  ⟨object.record, object.backingPages ++ added, object.backingBytes, newBytes,
    object.backingPageCount, newBytes / pageSize⟩

/-- The extent of the object after that resize. -/
def grownExtent (object : Object) (added : List ℕ) (newBytes : ℕ) : Extent :=
  ⟨object.record, object.backingPages ++ added, newBytes⟩

variable {added : List ℕ} {newBytes : ℕ}

theorem Extent.Sound.pageCount {extent : Extent} (sound : extent.Sound) :
    extent.bytes / pageSize = extent.pages.length := by
  rw [sound.sized]
  exact Nat.mul_div_cancel _ (by decide)

/-- Every whole view of the object is ready to be extended. -/
theorem Views.readyViews (views : state.Views) (backed : Backed object)
    (mem : object ∈ state.objects) (added : List ℕ) :
    ∀ view ∈ state.attachments, view.object = object.record → view.viewBytes = object.backingBytes →
      (state.machine.spaces view.process).hasRoot = true ∧
      (state.machine.spaces view.process).levelTwo (viewIndex view.slotIndex) =
        .table (viewEntries (object.backingPages ++ added) object.backingPageCount) := by
  intro view linked ofObject whole
  have sound := views.sound _ (mem_map_of_mem mem)
  obtain ⟨_, shownMember, points, shows⟩ := views.shown view linked
  have same := Arranged.unique views shownMember (mem_map_of_mem mem) (points.trans ofObject)
  rw [same] at shows
  refine ⟨shows.root, ?_⟩
  have count : view.viewBytes / pageSize = object.backingPageCount := by
    rw [whole, backed.counted]
    exact sound.pageCount
  rw [viewEntries_append (by rw [backed.counted]), shows.table, count]
  rfl

variable (views : state.Views) (inv : state.Invariant)
include views inv

section

variable {machine : Machine} (mem : object ∈ state.objects)
    (spaces : machine.spaces = state.machine.spaces) (larger : object.backingBytes < newBytes)
    (sound : (grownExtent object added newBytes).Sound)
include mem spaces larger sound

/-- The view loop of a growing resize never fails. -/
theorem Views.extendViews : ∃ mapped,
    (if object.attachmentCount ≠ 0 then
      FileMappings.extendViews (growth object added newBytes) [] state.attachments machine
    else (.ok, state.attachments, machine)) =
      (.ok, state.attachments.map (extendedView object.record object.backingBytes newBytes),
        mapped) ∧
    Extended (growth object added newBytes) state.attachments state.machine.spaces
      mapped.spaces := by
  have backed := inv.backed object mem
  have newCount : newBytes / pageSize = (object.backingPages ++ added).length := sound.pageCount
  have more : object.backingPageCount < newBytes / pageSize := by
    have sized : newBytes = (object.backingPages ++ added).length * pageSize := sound.sized
    have oldSized := backed.sized
    unfold pageSize at *
    omega
  split
  · have ready := views.readyViews backed mem added
    rw [← spaces] at ready ⊢
    exact extendViews_ok (growth object added newBytes) [] state.attachments machine more
      (newCount.trans_le sound.length_le) sound.aligned views.placed ready views.apart
  · rename_i unviewed
    have unattached : ∀ view ∈ state.attachments, view.object ≠ object.record := by
      have counted := inv.attachmentCounts object mem
      rw [Decidable.not_not.mp unviewed, eq_comm, countP_eq_zero] at counted
      intro view linked
      simpa using counted view linked
    have same : state.attachments.map (extendedView object.record object.backingBytes newBytes) =
        state.attachments := by
      refine (map_congr_left ?_).trans (map_id _)
      intro view linked
      exact if_neg fun both => unattached view linked both.1
    refine ⟨machine, by rw [same], ?_, ?_, ?_⟩
    · intro process
      rw [spaces]
    · intro view linked ofObject
      exact absurd ofObject (unattached view linked)
    · intro _ _ _
      rw [spaces]

/-- Installing a longer page array keeps the arrangement. -/
theorem Views.installBacking (size : ℕ) :
    (({ state with machine := machine } : FileMappings).installBacking object size newBytes
      (object.backingPages ++ added)).2.Views := by
  obtain ⟨mapped, extension, extended⟩ := views.extendViews inv mem spaces larger sound
  have resized := Arranged.resize views (mem_map_of_mem mem) rfl rfl rfl rfl rfl rfl
    sound rfl larger.le extended
  unfold growth at extension
  unfold FileMappings.installBacking
  dsimp only
  rw [extension]
  unfold Views modifyObject
  rw [spaces_releaseBackingPages]
  refine Eq.mp (congrArg (Arranged mapped.spaces _) ?_) resized
  rw [map_map, map_map]
  refine map_congr_left ?_
  intro other _
  simp only [comp_apply]
  by_cases same : other.record = object.record
  · rw [if_pos same, extent, same]
    exact if_pos rfl
  · rw [if_neg same]
    exact if_neg same

end

/-- Every resize keeps the arrangement, whether it grows the object or not. -/
theorem Views.resizeFileMapping
    (handle size : ℕ) : (state.resizeFileMapping handle size).2.Views := by
  unfold FileMappings.resizeFileMapping
  split
  · exact views
  cases found : state.findObjectByHandle handle with
  | none => exact views
  | some object =>
    have mem : object ∈ state.objects := mem_of_find?_eq_some found
    have backed := inv.backed object mem
    dsimp only
    split
    · exact views
    unfold resizeBacking
    dsimp only
    split
    · exact views
    split
    · exact views
    split
    · exact views
    split
    · exact views
    rename_i fits
    split
    · exact views.of_eq rfl rfl (map_extent_modifyObject _ _ fun _ => rfl)
    rename_i larger
    have spaces := spaces_heapAlloc state.machine
    have allocated := inv.owned.heapAlloc
    have perm := perm_cons_filter_key (Multiset.coe_nodup.mp inv.objectsServed.liveDistinct) mem
    rw [backing_perm perm, backing_cons, add_left_comm _ (object.backingPages : Multiset ℕ),
      add_left_comm _ (object.backingPages : Multiset ℕ)] at allocated
    have whole : object.backingPages.take object.backingPageCount = object.backingPages := by
      rw [backed.counted, take_length]
    rw [whole]
    rcases call : state.machine.heapAlloc with ⟨served, after⟩
    rw [call] at spaces allocated
    cases served with
    | false => exact views.of_eq spaces rfl rfl
    | true =>
      dsimp only at spaces allocated ⊢
      have filledSpaces := spaces_fillBackingPages
        (alignUpToPage size / pageSize - object.backingPageCount) object.backingPages after
      have filling := owned_fillBackingPages allocated
        (alignUpToPage size / pageSize - object.backingPageCount)
      rcases fill : fillBackingPages (alignUpToPage size / pageSize - object.backingPageCount)
        object.backingPages after with ⟨_, filled⟩
      rw [fill] at filledSpaces filling
      have unchanged : filled.spaces = state.machine.spaces := filledSpaces.trans spaces
      rcases filling with ⟨failed, _⟩ | ⟨added, success, length, owned⟩
      · dsimp only at failed
        subst failed
        exact views.of_eq unchanged rfl rfl
      · dsimp only at success
        subst success
        refine views.installBacking inv mem unchanged (Nat.lt_of_not_le larger)
          ⟨?_, Nat.le_of_not_lt fits, ?_⟩ size
        · show alignUpToPage size = (object.backingPages ++ added).length * pageSize
          have rounded := alignUpToPage_div_mul size
          have sized := backed.sized
          have counted := backed.counted
          rw [length_append, length]
          unfold pageSize at *
          omega
        · intro phys page
          have aligned := (owned.manages
            (Multiset.mem_add.mpr (.inl (Multiset.mem_coe.mpr page)))).aligned
          unfold pageSize at *
          omega

end

/-! ## Runs -/

section

variable {state : FileMappings}

/-- A change to an address space outside the service: it leaves the view slots
alone, or the process has no views and its slots no page tables. -/
def SparesSlots (state : FileMappings) (process : ℕ) (space : AddressSpace) : Prop :=
  (space.hasRoot = (state.machine.spaces process).hasRoot ∧
    ∀ slotIndex < viewSlots, space.levelTwo (viewIndex slotIndex) =
      (state.machine.spaces process).levelTwo (viewIndex slotIndex)) ∨
  ((∀ view ∈ state.attachments, view.process ≠ process) ∧
    ∀ slotIndex < viewSlots, ∀ entries, space.levelTwo (viewIndex slotIndex) ≠ .table entries)

/-- Views start at the first page, no mapping outgrows its backing and nobody else
writes to the view slots. -/
def viewsFromStart (state : FileMappings) (operation : Operation) (calls : List HeapCall) :
    Prop :=
  backingKept state operation calls = true ∧
    match operation with
    | .mapViewOfFile process handle offset size =>
      mapsFromStart state process handle offset size = true
    | .otherSpace process space => state.SparesSlots process space
    | _ => True

theorem Views.otherSpace (views : state.Views) {process : ℕ} {space : AddressSpace}
    (spares : state.SparesSlots process space) :
    ({ state with machine := state.machine.setSpace process space } : FileMappings).Views := by
  have others : ∀ other, other ≠ process →
      (state.machine.setSpace process space).spaces other = state.machine.spaces other :=
    fun other ne => update_of_ne ne _ _
  have here : (state.machine.setSpace process space).spaces process = space := update_self _ _ _
  refine { views with shown := ?_, idle := ?_ }
  · intro view linked
    obtain ⟨object, mem, points, shows⟩ := views.shown view linked
    obtain ⟨bound, _⟩ := views.placed view linked
    refine ⟨object, mem, points, ?_⟩
    by_cases same : view.process = process
    · rcases spares with ⟨root, kept⟩ | ⟨none, _⟩
      · refine shows.congr ?_ ?_
        · rw [same, here, root]
        · rw [same, here, kept _ bound]
      · exact absurd same (none view linked)
    · exact shows.congr (by rw [others _ same]) (by rw [others _ same])
  · intro other slotIndex bound free
    by_cases same : other = process
    · subst same
      rw [here]
      rcases spares with ⟨_, kept⟩ | ⟨_, noTable⟩
      · rw [kept slotIndex bound]
        exact views.idle other slotIndex bound free
      · exact noTable slotIndex bound
    · rw [others other same]
      exact views.idle other slotIndex bound free

theorem views_boot (pool : PagePool) : (boot pool).Views := by
  refine ⟨nodup_nil, ?_, ?_, ?_, List.Pairwise.nil, ?_, ?_⟩ <;> simp [boot]

theorem Views.withHeapCalls (views : state.Views) (calls : List HeapCall) :
    (state.withHeapCalls calls).Views :=
  views

/-- One step. -/
theorem Views.perform (views : state.Views) (inv : state.Invariant) (operation : Operation)
    (permitted : viewsFromStart state operation state.machine.heapCalls) :
    (state.perform operation).Views := by
  obtain ⟨_, permitted⟩ := permitted
  cases operation with
  | createFileMapping path size => exact views.openOrCreate inv path size true
  | openFileMapping path size => exact views.openOrCreate inv path size false
  | closeFileMapping handle => exact views.closeFileMapping inv handle
  | mapViewOfFile => exact (views.mapViewOfFile permitted).1
  | resizeFileMapping handle size => exact views.resizeFileMapping inv handle size
  | unmapViewOfFile process address => exact views.unmapViewOfFile inv process address
  | releaseProcessMappings process => exact views.releaseProcessMappings inv process
  | otherReservePages => exact views.of_eq (spaces_heapAppendGrowth _ _ _) rfl rfl
  | otherAllocPage | otherFreePage | otherRetainPage | otherReleasePages =>
    refine views.of_eq ?_ rfl rfl
    simp only [FileMappings.perform, FileMappings.otherAllocPage, FileMappings.otherFreePage,
      FileMappings.otherRetainPage, FileMappings.otherReleasePages]
    split <;> rfl
  | otherSpace => exact views.otherSpace permitted

/-- Views, slots and page tables agree along every permitted run. -/
theorem Reachable.views {pool : PagePool} (reached : Reachable viewsFromStart pool state) :
    state.Invariant ∧ state.Views := by
  induction reached with
  | start isBoot => exact isBoot ▸ ⟨invariant_boot pool, views_boot pool⟩
  | step _ call permitted stepped ih =>
    cases stepped
    obtain ⟨inv, views⟩ := ih
    exact ⟨(inv.withHeapCalls call.2).perform call.1 permitted.1,
      (views.withHeapCalls call.2).perform (inv.withHeapCalls call.2) call.1 permitted⟩

end

/-! ## Empty slots after a release -/

section

variable {state : FileMappings}

@[simp] theorem spaces_releaseObjectIfUnused (state : FileMappings) (record : Slot) :
    (state.releaseObjectIfUnused record).machine.spaces = state.machine.spaces := by
  unfold releaseObjectIfUnused
  split
  · rfl
  split
  · rfl
  · simp

/-- What releasing views leaves in the page tables. -/
structure Emptied (released : List Attachment) (spaces after : ℕ → AddressSpace) : Prop where
  root : ∀ process, (after process).hasRoot = (spaces process).hasRoot
  emptied : ∀ view ∈ released, (after view.process).levelTwo (viewIndex view.slotIndex) = .invalid
  kept : ∀ process index,
    (∀ view ∈ released, ¬(view.process = process ∧ viewIndex view.slotIndex = index)) →
    (after process).levelTwo index = (spaces process).levelTwo index

theorem emptied_releaseAttachments (state : FileMappings) (released : List Attachment)
    (placed : ∀ view ∈ released,
      view.slotIndex < viewSlots ∧ view.viewAddress = slotAddress view.slotIndex)
    (shown : ∀ view ∈ released, ∃ object : Extent, object.Sound ∧
      Shows state.machine.spaces view object) (apart : released.Pairwise fun left right =>
      ¬(left.process = right.process ∧ left.slotIndex = right.slotIndex)) :
    Emptied released state.machine.spaces
      (released.foldl releaseAttachment state).machine.spaces := by
  induction released generalizing state with
  | nil =>
    refine ⟨fun _ => rfl, ?_, fun _ _ _ => rfl⟩
    intro view mem
    cases mem
  | cons view rest ih =>
    obtain ⟨apartHead, apartRest⟩ := pairwise_cons.mp apart
    obtain ⟨_, sound, shows⟩ := shown view (.head _)
    have spaces : (state.releaseAttachment view).machine.spaces =
        withDescriptor state.machine.spaces view.process (viewIndex view.slotIndex) .invalid :=
      (spaces_releaseObjectIfUnused _ _).trans
        (shows.spaces_unlinkAttachment sound (placed view (.head _)))
    have elsewhere : ∀ other ∈ rest, ¬(other.process = view.process ∧
        viewIndex other.slotIndex = viewIndex view.slotIndex) := by
      rintro other mem ⟨process, index⟩
      exact apartHead other mem ⟨process.symm, (viewIndex_injective index).symm⟩
    have later := ih (state.releaseAttachment view)
      (fun other mem => placed other (.tail _ mem)) (by
        intro other mem
        obtain ⟨otherObject, otherSound, otherShows⟩ := shown other (.tail _ mem)
        rw [spaces]
        exact ⟨otherObject, otherSound, otherShows.congr hasRoot_withDescriptor
          (levelTwo_withDescriptor_of_ne (elsewhere other mem))⟩) apartRest
    rw [spaces] at later
    rw [foldl_cons]
    refine ⟨?_, ?_, ?_⟩
    · intro process
      rw [later.root, hasRoot_withDescriptor]
    · intro other mem
      rcases mem_cons.mp mem with rfl | inRest
      · rw [later.kept _ _ elsewhere, levelTwo_withDescriptor_self]
      · exact later.emptied other inRest
    · intro process index free
      rw [later.kept process index fun other mem => free other (.tail _ mem)]
      refine levelTwo_withDescriptor_of_ne ?_
      rintro ⟨same, sameIndex⟩
      exact free view (.head _) ⟨same.symm, sameIndex.symm⟩

/-- No address of an emptied slot is reachable. -/
theorem Emptied.translate {spaces after : ℕ → AddressSpace}
    (emptied : Emptied released spaces after) {view : Attachment} (mem : view ∈ released)
    (root : (spaces view.process).hasRoot = true)
    (placed : view.slotIndex < viewSlots ∧ view.viewAddress = slotAddress view.slotIndex)
    {offset : ℕ} (inside : offset < fileMappingViewSlotBytes) :
    (after view.process).translate (view.viewAddress + offset) = none := by
  rw [placed.2, slotAddress_eq]
  exact translate_invalid ((emptied.root _).trans root) (viewIndex_lt placed.1)
    (emptied.emptied view mem) inside

/-- What the views of a state promise: a request from the first page on shows what it
asks for, and no address of a released slot is reachable any more. -/
structure Faithful (state : FileMappings) : Prop where
  map : ∀ calls process handle offset size address after,
    mapsFromStart state process handle offset size = true →
    (state.withHeapCalls calls).mapViewOfFile process handle offset size = (.ok address, after) →
    ShowsRequest state after process handle offset size address
  unmap : ∀ process address after, state.unmapViewOfFile process address = (.ok, after) →
    ∀ offset < fileMappingViewSlotBytes,
      (after.machine.spaces process).translate (address + offset) = none
  release : ∀ process, ∀ view ∈ state.attachments, view.process = process →
    ∀ offset < fileMappingViewSlotBytes,
      ((state.releaseProcessMappings process).machine.spaces process).translate
        (view.viewAddress + offset) = none

theorem Views.faithful (views : state.Views) : state.Faithful := by
  have shown : ∀ view ∈ state.attachments, ∃ object : Extent, object.Sound ∧
      Shows state.machine.spaces view object := by
    intro view linked
    obtain ⟨object, mem, _, shows⟩ := views.shown view linked
    exact ⟨object, views.sound object mem, shows⟩
  refine ⟨?_, ?_, ?_⟩
  · intro calls process _ offset _ address after fromStart answer
    have mapped := ((views.withHeapCalls calls).mapViewOfFile fromStart).2 address
    rw [answer] at mapped
    exact mapped rfl
  · intro process address _ answer offset inside
    unfold FileMappings.unmapViewOfFile at answer
    split at answer
    · cases answer
    split at answer
    · cases answer
    rename_i view found
    have linked : view ∈ state.attachments := mem_of_find?_eq_some found
    have here : view.process = process ∧ view.viewAddress = address := by
      simpa using List.find?_some found
    obtain ⟨object, _, shows⟩ := shown view linked
    have emptied := emptied_releaseAttachments state [view]
      (fun other mem => mem_singleton.mp mem ▸ views.placed view linked)
      (fun other mem => mem_singleton.mp mem ▸ shown view linked)
      (pairwise_singleton _ _)
    cases answer
    rw [← here.1, ← here.2]
    exact emptied.translate (.head _) shows.root (views.placed view linked) inside
  · intro process view linked here _ inside
    have emptied := emptied_releaseAttachments state
      (state.attachments.filter fun attachment => attachment.process = process)
      (fun other mem => views.placed other (mem_of_mem_filter mem))
      (fun other mem => shown other (mem_of_mem_filter mem))
      (views.apart.sublist filter_sublist)
    obtain ⟨_, _, shows⟩ := shown view linked
    have released : view ∈ state.attachments.filter
        fun attachment => attachment.process = process :=
      mem_filter.mpr ⟨linked, by simpa using here⟩
    subst here
    exact emptied.translate released shows.root (views.placed view linked) inside

end

/-- In every run whose steps map from the first page on, ask for no more than an
existing view has, keep the backing and leave the view slots to the service, views
show what was asked for and releases empty their slots, also right after any resize. -/
theorem views_faithful_of_viewsFromStart (pool : PagePool) (state : FileMappings)
    (reached : Reachable viewsFromStart pool state) :
    state.Faithful ∧ ∀ calls handle size,
      ((state.withHeapCalls calls).resizeFileMapping handle size).2.Faithful := by
  obtain ⟨invariant, views⟩ := reached.views
  refine ⟨views.faithful, ?_⟩
  intro calls handle size
  exact ((views.withHeapCalls calls).resizeFileMapping (invariant.withHeapCalls calls)
    handle size).faithful

/-! ## Two pages and an offset -/

/-- A process address space without mappings. -/
def emptySpace : AddressSpace := ⟨true, fun _ => .invalid⟩

/-- A two-page mapping and a process that can map it. -/
def twoPageMapping : FileMappings :=
  (((boot eightPages).withHeapCalls []).perform (.otherSpace 7 emptySpace)).withHeapCalls
    [servedCall] |>.perform (.createFileMapping ['m'] 8192)

/-- The process has mapped both pages. -/
def twoPageView : FileMappings :=
  (twoPageMapping.withHeapCalls [servedCall]).perform (.mapViewOfFile 7 1 0 8192)

/-- The process has mapped the second page only. -/
def secondPageView : FileMappings :=
  (twoPageMapping.withHeapCalls [servedCall]).perform (.mapViewOfFile 7 1 4096 4096)

theorem twoPageMapping_reachable : Reachable viewsFromStart eightPages twoPageMapping := by
  refine .step ?_ (.createFileMapping ['m'] 8192, [servedCall]) ⟨rfl, trivial⟩ rfl
  refine .step (.start rfl) (.otherSpace 7 emptySpace, []) ⟨rfl, .inr ⟨?_, ?_⟩⟩ rfl
  · intro _ mem
    cases mem
  · intro _ _ _
    exact Descriptor.noConfusion

/-- Both pages are mapped, a second request is answered with the same view, and a
resize to three pages keeps the promise. -/
theorem views_faithful_twoPageView :
    twoPageView.attachments.length = 1 ∧ twoPageView.Faithful ∧ ∀ calls handle size,
      ((twoPageView.withHeapCalls calls).resizeFileMapping handle size).2.Faithful := by
  refine ⟨by decide +kernel, views_faithful_of_viewsFromStart eightPages twoPageView ?_⟩
  exact twoPageMapping_reachable.step (.mapViewOfFile 7 1 0 8192, [servedCall])
    ⟨rfl, by decide +kernel⟩ rfl

/-- The first page of a request, spelled out. -/
theorem ShowsRequest.firstPage {state after : FileMappings} {process handle offset size address : ℕ}
    (shows : ShowsRequest state after process handle offset size address)
    (nonempty : 0 < alignUpToPage size / pageSize) :
    (state.findObjectByHandle handle).bind (fun object => object.backingPages[offset / pageSize]?) =
      (after.machine.spaces process).translate address := by
  obtain ⟨_, found, pages⟩ := shows
  obtain ⟨_, backing, reached⟩ := pages 0 nonempty
  rw [Nat.add_zero] at backing
  rw [Nat.zero_mul, Nat.add_zero] at reached
  rw [found, Option.bind_some, backing, reached]

/-- A request for the second page returns an address where nothing is mapped; when the
process already sees both pages it returns the first one; and after
`UnmapViewOfFile` the second page is still reachable in the slot. -/
theorem offsetView_misplaced :
    (∃ state address after, Reachable (fun _ _ _ => True) eightPages state ∧
      (state.withHeapCalls [servedCall]).mapViewOfFile 7 1 4096 4096 = (.ok address, after) ∧
      state.attachments = [] ∧ ¬ShowsRequest state after 7 1 4096 4096 address) ∧
    (∃ state address after, Reachable (fun _ _ _ => True) eightPages state ∧
      (state.withHeapCalls [servedCall]).mapViewOfFile 7 1 4096 4096 = (.ok address, after) ∧
      state.attachments ≠ [] ∧ ¬ShowsRequest state after 7 1 4096 4096 address) ∧
    ∃ state address after, Reachable (fun _ _ _ => True) eightPages state ∧
      state.unmapViewOfFile 7 address = (.ok, after) ∧
      ∃ offset < fileMappingViewSlotBytes, ∃ object ∈ after.objects, ∃ phys ∈ object.backingPages,
          (after.machine.spaces 7).translate (address + offset) = some phys := by
  have reached : Reachable (fun _ _ _ => True) eightPages twoPageMapping :=
    .step (.step (.start rfl) (.otherSpace 7 emptySpace, []) trivial rfl)
      (.createFileMapping ['m'] 8192, [servedCall]) trivial rfl
  refine ⟨⟨twoPageMapping, slotAddress 0, secondPageView, reached, rfl, rfl, ?_⟩,
    ⟨twoPageView, slotAddress 0, (twoPageView.withHeapCalls [servedCall]),
      reached.step (.mapViewOfFile 7 1 0 8192, [servedCall]) trivial rfl, ?_, ?_, ?_⟩,
    secondPageView, slotAddress 0, (secondPageView.unmapViewOfFile 7 (slotAddress 0)).2,
      reached.step (.mapViewOfFile 7 1 4096 4096, [servedCall]) trivial rfl, ?_, 4096,
      by decide, ?_⟩
  · intro shows
    have first := shows.firstPage (by decide)
    revert first
    decide +kernel
  · rfl
  · decide +kernel
  · intro shows
    have first := shows.firstPage (by decide)
    revert first
    decide +kernel
  · exact Prod.ext (by decide +kernel) rfl
  · decide +kernel

end RosKernel.Memory.FileMappings
