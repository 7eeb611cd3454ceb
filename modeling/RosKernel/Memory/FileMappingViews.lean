import Mathlib.Data.List.GetD
import RosKernel.Memory.FileMappingOwnership
import RosKernel.Memory.Translation

/-!
# What a file-mapping view shows

Every view has a 2 MiB slot of its process, hence one level-2 entry. As long as
views start at offset 0 and a repeated `MapViewOfFile` asks for no more than the
existing view has, that entry is a table with the first backing pages of the
object and nothing else. Then the address returned shows the requested pages and
unmapping empties the slot.

With another offset the pages land that far behind the returned address, where
neither the caller nor `UnmapViewOfFile` looks for them.
-/

namespace RosKernel.Memory.FileMappings

open List

/-- Number of view slots of a process. -/
def viewSlots : ℕ := fileMappingViewBytes / fileMappingViewSlotBytes

/-- The level-2 entry of a view slot. -/
def viewIndex (slotIndex : ℕ) : ℕ := fileMappingViewBase / l2BlockSize + slotIndex

theorem slotAddress_eq (slotIndex : ℕ) :
    slotAddress slotIndex = viewIndex slotIndex * l2BlockSize := by
  unfold slotAddress viewIndex fileMappingViewSlotBytes fileMappingViewBase l2BlockSize
  omega

theorem viewIndex_lt {slotIndex : ℕ} (bound : slotIndex < viewSlots) :
    viewIndex slotIndex < tableEntries := by
  unfold viewSlots fileMappingViewBytes fileMappingViewSlotBytes l2BlockSize at bound
  unfold viewIndex fileMappingViewBase l2BlockSize tableEntries
  omega

theorem viewIndex_injective {left right : ℕ} (same : viewIndex left = viewIndex right) :
    left = right := by
  unfold viewIndex at same
  omega

/-- The level-3 entries that show the first `count` of the given pages. -/
def viewEntries (pages : List ℕ) (count : ℕ) : ℕ → Option (ℕ × MapFlags) := fun entry =>
  if entry < count then some (pages.getD entry 0, viewFlags) else none

theorem update_viewEntries (pages : List ℕ) (count : ℕ) :
    Function.update (viewEntries pages count) count (some (pages.getD count 0, viewFlags)) =
      viewEntries pages (count + 1) := by
  funext entry
  unfold viewEntries
  by_cases same : entry = count
  · subst same
    simp
  · rw [Function.update_of_ne same]
    exact if_congr (by omega) rfl rfl

/-- Pages behind those shown do not matter. -/
theorem viewEntries_append {pages added : List ℕ} {count : ℕ} (within : count ≤ pages.length) :
    viewEntries (pages ++ added) count = viewEntries pages count := by
  funext entry
  unfold viewEntries
  split
  · rw [getD_append _ _ _ _ (by omega)]
  · rfl

theorem getD_mod_pageSize {pages : List ℕ} (aligned : ∀ phys ∈ pages, phys % pageSize = 0)
    (index : ℕ) : pages.getD index 0 % pageSize = 0 := by
  by_cases inside : index < pages.length
  · rw [getD_eq_getElem _ _ inside]
    exact aligned _ (getElem_mem inside)
  · rw [getD_eq_default _ _ (by omega)]
    exact Nat.zero_mod _

/-! ## Mapping backing pages into a slot -/

section

variable {process slotIndex : ℕ} {pages : List ℕ}

variable {count : ℕ}

/-- The loop goes on after a page that was mapped. -/
theorem mapBackingPagesFrom_succ_ok {machine mapped : Machine} {viewAddress pageOffset index : ℕ}
    (mapping : map machine process
      ⟨viewAddress + (pageOffset + index) * pageSize, pages.getD (pageOffset + index) 0,
        pageSize, viewFlags⟩ = (.ok, mapped)) :
    mapBackingPagesFrom process viewAddress pages pageOffset index (count + 1) machine =
      mapBackingPagesFrom process viewAddress pages pageOffset (index + 1) count mapped := by
  rw [mapBackingPagesFrom, mapping]

/-- A failure at the first page has nothing to undo. -/
theorem mapBackingPagesFrom_zero_failed {machine failed : Machine} {status : Status}
    {viewAddress pageOffset : ℕ} (mapping : map machine process
      ⟨viewAddress + (pageOffset + 0) * pageSize, pages.getD (pageOffset + 0) 0,
        pageSize, viewFlags⟩ = (status, failed)) (refused : status ≠ .ok) :
    mapBackingPagesFrom process viewAddress pages pageOffset 0 (count + 1) machine =
      (status, failed) := by
  rw [mapBackingPagesFrom, mapping]
  cases status with
  | ok => exact absurd rfl refused
  | _ => rfl

/-- With the table of the slot in place `map_backing_pages` cannot fail. -/
theorem mapBackingPagesFrom_table (machine : Machine) (pageOffset index count : ℕ)
    (root : (machine.spaces process).hasRoot = true) (bound : slotIndex < viewSlots)
    (aligned : ∀ phys ∈ pages, phys % pageSize = 0)
    (table : (machine.spaces process).levelTwo (viewIndex slotIndex) =
      .table (viewEntries pages (pageOffset + index)))
    (inside : pageOffset + index + count ≤ tableEntries) :
    ∃ mapped,
      mapBackingPagesFrom process (slotAddress slotIndex) pages pageOffset index count machine =
        (.ok, mapped) ∧
      mapped.spaces = withDescriptor machine.spaces process (viewIndex slotIndex)
        (.table (viewEntries pages (pageOffset + index + count))) := by
  induction count generalizing machine index with
  | zero => exact ⟨machine, rfl, (withDescriptor_eq_self table).symm⟩
  | succ count ih =>
    obtain ⟨mapped, mapping, spaces⟩ := map_onePage_table root (viewIndex_lt bound) table
      (show pageOffset + index < tableEntries by omega)
      (getD_mod_pageSize aligned (pageOffset + index))
    rw [update_viewEntries] at spaces
    rw [← slotAddress_eq] at mapping
    obtain ⟨final, run, finalSpaces⟩ := ih mapped (index + 1)
      (by rw [spaces, hasRoot_withDescriptor]; exact root)
      (by rw [spaces, levelTwo_withDescriptor_self, Nat.add_assoc])
      (by omega)
    refine ⟨final, (mapBackingPagesFrom_succ_ok mapping).trans run, ?_⟩
    rw [finalSpaces, spaces, withDescriptor_withDescriptor,
      show pageOffset + (index + 1) + count = pageOffset + index + (count + 1) by omega]

/-- A new view from the first backing page on either shows exactly the requested
pages or leaves the page tables as they were. -/
theorem mapBackingPages_fresh (machine : Machine) (positive : 0 < count)
    (bound : slotIndex < viewSlots) (aligned : ∀ phys ∈ pages, phys % pageSize = 0)
    (noTable : ∀ entries, (machine.spaces process).levelTwo (viewIndex slotIndex) ≠ .table entries)
    (inside : count ≤ tableEntries) :
    (∃ mapped,
      mapBackingPages machine process (slotAddress slotIndex) pages 0 count = (.ok, mapped) ∧
      (machine.spaces process).hasRoot = true ∧
      mapped.spaces = withDescriptor machine.spaces process (viewIndex slotIndex)
        (.table (viewEntries pages count))) ∨
    ∃ status failed,
      mapBackingPages machine process (slotAddress slotIndex) pages 0 count = (status, failed) ∧
      status ≠ .ok ∧ failed.spaces = machine.spaces := by
  obtain ⟨rest, rfl⟩ : ∃ rest, count = rest + 1 := ⟨count - 1, by omega⟩
  have first := getD_mod_pageSize aligned (0 + 0)
  unfold mapBackingPages
  rw [if_neg (by omega)]
  cases root : (machine.spaces process).hasRoot with
  | false =>
    right
    have mapping : map machine process
        ⟨slotAddress slotIndex + (0 + 0) * pageSize, pages.getD (0 + 0) 0, pageSize, viewFlags⟩ =
          (.notSupported, machine) := by
      rw [slotAddress_eq]
      exact map_onePage_noRoot root first
    exact ⟨_, _, mapBackingPagesFrom_zero_failed mapping (by decide), by decide, rfl⟩
  | true =>
    rcases map_onePage_noTable root (viewIndex_lt bound) noTable (show 0 + 0 < tableEntries by
        decide)
      first with ⟨mapped, mapping, spaces⟩ | ⟨_, mapping, spaces⟩ <;>
      rw [← slotAddress_eq] at mapping
    · left
      have oneEntry := update_viewEntries pages 0
      rw [show viewEntries pages 0 = fun _ => none from rfl] at oneEntry
      rw [oneEntry] at spaces
      obtain ⟨final, run, finalSpaces⟩ := mapBackingPagesFrom_table mapped 0 1 rest
        (by rw [spaces, hasRoot_withDescriptor]; exact root) bound aligned
        (by rw [spaces, levelTwo_withDescriptor_self])
        (by omega)
      refine ⟨final, (mapBackingPagesFrom_succ_ok mapping).trans run, rfl, ?_⟩
      rw [finalSpaces, spaces, withDescriptor_withDescriptor, show 0 + 1 + rest = rest + 1 by omega]
    · right
      exact ⟨_, _, mapBackingPagesFrom_zero_failed mapping (by decide), by decide, spaces⟩

end

/-! ## Views and slots -/

/-- The part of an object the page tables depend on. -/
structure Extent where
  record : Slot
  pages : List ℕ
  bytes : ℕ

/-- The extent of an object. -/
def extent (object : Object) : Extent :=
  ⟨object.record, object.backingPages, object.backingBytes⟩

/-- The pages of an object are pages and fit a slot. -/
structure Extent.Sound (extent : Extent) : Prop where
  sized : extent.bytes = extent.pages.length * pageSize
  fits : extent.bytes ≤ fileMappingViewSlotBytes
  aligned : ∀ phys ∈ extent.pages, phys % pageSize = 0

/-- The slot of the view holds the first pages of the object and nothing else. -/
structure Shows (spaces : ℕ → AddressSpace) (view : Attachment) (extent : Extent) : Prop where
  root : (spaces view.process).hasRoot = true
  positive : 0 < view.viewBytes
  whole : view.viewBytes % pageSize = 0
  within : view.viewBytes ≤ extent.bytes
  table : (spaces view.process).levelTwo (viewIndex view.slotIndex) =
    .table (viewEntries extent.pages (view.viewBytes / pageSize))

/-- How views, objects and page tables fit together between two operations. -/
structure Arranged (spaces : ℕ → AddressSpace) (views : List Attachment)
    (extents : List Extent) : Prop where
  distinct : (extents.map Extent.record).Nodup
  sound : ∀ extent ∈ extents, extent.Sound
  placed : ∀ view ∈ views,
    view.slotIndex < viewSlots ∧ view.viewAddress = slotAddress view.slotIndex
  /-- A process has one view a slot and one view an object. -/
  single : ∀ view ∈ views, ∀ other ∈ views, view.process = other.process →
    view.slotIndex = other.slotIndex ∨ view.object = other.object → view = other
  apart : views.Pairwise fun left right =>
    ¬(left.process = right.process ∧ left.slotIndex = right.slotIndex)
  shown : ∀ view ∈ views, ∃ extent ∈ extents, extent.record = view.object ∧ Shows spaces view extent
  /-- A slot without a view has no page table. -/
  idle : ∀ process slotIndex, slotIndex < viewSlots →
    (∀ view ∈ views, ¬(view.process = process ∧ view.slotIndex = slotIndex)) →
    ∀ entries, (spaces process).levelTwo (viewIndex slotIndex) ≠ .table entries

section

variable {spaces : ℕ → AddressSpace} {views : List Attachment} {extents others : List Extent}
variable {view : Attachment} {object : Extent}

theorem Extent.Sound.length_le (sound : object.Sound) : object.pages.length ≤ tableEntries := by
  have fits := sound.fits
  rw [sound.sized] at fits
  unfold fileMappingViewSlotBytes l2BlockSize pageSize at fits
  unfold tableEntries
  omega

section

variable (shows : Shows spaces view object)
include shows

theorem Shows.count_le (sound : object.Sound) :
    view.viewBytes / pageSize ≤ object.pages.length := by
  have within := shows.within
  rw [sound.sized] at within
  exact Nat.div_le_of_le_mul (by rw [Nat.mul_comm]; exact within)

theorem Shows.count_pos : 0 < view.viewBytes / pageSize := by
  have positive := shows.positive
  have whole := shows.whole
  unfold pageSize at *
  omega

theorem Shows.viewBytes_eq : view.viewBytes = view.viewBytes / pageSize * pageSize :=
  (Nat.div_mul_cancel (Nat.dvd_of_mod_eq_zero shows.whole)).symm

/-- Each page of a view reaches the backing page of the same index. -/
theorem Shows.translate (sound : object.Sound)
    (bound : view.slotIndex < viewSlots) {page : ℕ} (inside : page < view.viewBytes / pageSize) :
    ∃ phys, object.pages[page]? = some phys ∧
      (spaces view.process).translate (slotAddress view.slotIndex + page * pageSize) =
        some phys := by
  have count := shows.count_le sound
  have length := sound.length_le
  have present : page < object.pages.length := by omega
  refine ⟨object.pages[page], List.getElem?_eq_getElem present, ?_⟩
  rw [slotAddress_eq, translate_table shows.root (viewIndex_lt bound) shows.table (by omega),
    viewEntries, if_pos inside, getD_eq_getElem _ _ present]
  rfl

end

/-- Unmapping a view removes its page table. -/
theorem Shows.unmap {machine : Machine} (shows : Shows machine.spaces view object)
    (sound : object.Sound) (bound : view.slotIndex < viewSlots) :
    (unmap machine view.process (slotAddress view.slotIndex) view.viewBytes).2.spaces =
      withDescriptor machine.spaces view.process (viewIndex view.slotIndex) .invalid := by
  have count := shows.count_le sound
  have length := sound.length_le
  rw [slotAddress_eq, shows.viewBytes_eq]
  refine unmap_wholeTable shows.root (viewIndex_lt bound) shows.table shows.count_pos (by omega) ?_
  intro _ _
  rw [viewEntries, if_neg (by omega)]

/-- A view depends on its own slot only. -/
theorem Shows.congr {after : ℕ → AddressSpace} (shows : Shows spaces view object)
    (root : (after view.process).hasRoot = (spaces view.process).hasRoot)
    (table : (after view.process).levelTwo (viewIndex view.slotIndex) =
      (spaces view.process).levelTwo (viewIndex view.slotIndex)) :
    Shows after view object :=
  ⟨root.trans shows.root, shows.positive, shows.whole, shows.within, table.trans shows.table⟩

variable (arranged : Arranged spaces views extents)
include arranged

/-- Two extents with one record are the same extent. -/
theorem Arranged.unique {other : Extent} (mem : object ∈ extents) (otherMem : other ∈ extents)
    (same : object.record = other.record) : object = other :=
  inj_on_of_nodup_map arranged.distinct mem otherMem same

/-- Objects nobody views may come and go. -/
theorem Arranged.withExtents
    (distinct : (others.map Extent.record).Nodup) (sound : ∀ extent ∈ others, extent.Sound)
    (kept : ∀ extent ∈ extents, (∃ view ∈ views, extent.record = view.object) → extent ∈ others) :
    Arranged spaces views others := by
  refine { arranged with distinct, sound, shown := ?_ }
  intro view mem
  obtain ⟨extent, present, points, shows⟩ := arranged.shown view mem
  exact ⟨extent, kept extent present ⟨view, mem, points⟩, points, shows⟩

/-- Two different views never share a level-2 entry. -/
theorem Arranged.ne_entry {other : Attachment} (mem : view ∈ views) (otherMem : other ∈ views)
    (ne : other ≠ view) :
    ¬(other.process = view.process ∧ viewIndex other.slotIndex = viewIndex view.slotIndex) := by
  rintro ⟨process, index⟩
  exact ne (arranged.single other otherMem view mem process (.inl (viewIndex_injective index)))

/-- Removing a view with its page table. -/
theorem Arranged.detach (distinct : (views.map Attachment.record).Nodup) (mem : view ∈ views) :
    Arranged (withDescriptor spaces view.process (viewIndex view.slotIndex) .invalid)
      (views.filter fun other => other.record ≠ view.record) extents := by
  have kept : ∀ other ∈ views.filter fun other => other.record ≠ view.record,
      other ∈ views ∧ other ≠ view := by
    intro other filtered
    obtain ⟨present, ne⟩ := mem_filter.mp filtered
    refine ⟨present, ?_⟩
    rintro rfl
    simp at ne
  refine ⟨arranged.distinct, arranged.sound, ?_, ?_, arranged.apart.sublist filter_sublist, ?_, ?_⟩
  · intro other filtered
    exact arranged.placed other (kept other filtered).1
  · intro left leftFiltered right rightFiltered
    exact arranged.single left (kept left leftFiltered).1 right (kept right rightFiltered).1
  · intro other filtered
    obtain ⟨present, ne⟩ := kept other filtered
    obtain ⟨extent, extentMember, points, shows⟩ := arranged.shown other present
    exact ⟨extent, extentMember, points, shows.congr hasRoot_withDescriptor
      (levelTwo_withDescriptor_of_ne (arranged.ne_entry mem present ne))⟩
  · intro process slotIndex bound free entries
    by_cases here : process = view.process ∧ viewIndex slotIndex = viewIndex view.slotIndex
    · rw [here.1, here.2, levelTwo_withDescriptor_self]
      exact Descriptor.noConfusion
    · rw [levelTwo_withDescriptor_of_ne here]
      refine arranged.idle process slotIndex bound ?_ entries
      intro other present occupies
      -- Any other view of the slot would have survived the filter.
      have ne : other.record ≠ view.record := by
        intro same
        have equal := inj_on_of_nodup_map distinct present mem same
        subst equal
        exact here ⟨occupies.1.symm, by rw [occupies.2]⟩
      exact free other (mem_filter.mpr ⟨present, by simpa using ne⟩) occupies

/-- Adding a view of the first pages of an object at an unused slot. -/
theorem Arranged.attach (view : Attachment)
    (bound : view.slotIndex < viewSlots) (address : view.viewAddress = slotAddress view.slotIndex)
    (unused : ∀ other ∈ views, other.process = view.process →
      other.slotIndex ≠ view.slotIndex ∧ other.object ≠ view.object)
    (mem : object ∈ extents) (points : object.record = view.object)
    (root : (spaces view.process).hasRoot = true)
    (positive : 0 < view.viewBytes) (whole : view.viewBytes % pageSize = 0)
    (within : view.viewBytes ≤ object.bytes) :
    Arranged (withDescriptor spaces view.process (viewIndex view.slotIndex)
      (.table (viewEntries object.pages (view.viewBytes / pageSize)))) (views ++ [view])
        extents := by
  have old : ∀ other ∈ views, ¬(other.process = view.process ∧
      viewIndex other.slotIndex = viewIndex view.slotIndex) := by
    rintro other present ⟨process, index⟩
    exact (unused other present process).1 (viewIndex_injective index)
  have split : ∀ other ∈ views ++ [view], other ∈ views ∨ other = view := by
    intro other present
    simpa using present
  refine ⟨arranged.distinct, arranged.sound, ?_, ?_, ?_, ?_, ?_⟩
  · intro other present
    rcases split other present with before | rfl
    · exact arranged.placed other before
    · exact ⟨bound, address⟩
  · intro left leftPresent right rightPresent process shared
    rcases split left leftPresent with leftBefore | rfl <;>
      rcases split right rightPresent with rightBefore | rfl
    · exact arranged.single left leftBefore right rightBefore process shared
    · have apart := unused left leftBefore process
      exact absurd shared (not_or.mpr apart)
    · have apart := unused right rightBefore process.symm
      exact absurd (shared.imp Eq.symm Eq.symm) (not_or.mpr apart)
    · rfl
  · refine pairwise_append.mpr ⟨arranged.apart, pairwise_singleton _ _, ?_⟩
    rintro other before _ isNew ⟨process, slotIndex⟩
    obtain rfl := mem_singleton.mp isNew
    exact (unused other before process).1 slotIndex
  · intro other present
    rcases split other present with before | rfl
    · obtain ⟨extent, extentMember, extentPoints, shows⟩ := arranged.shown other before
      exact ⟨extent, extentMember, extentPoints, shows.congr hasRoot_withDescriptor
        (levelTwo_withDescriptor_of_ne (old other before))⟩
    · exact ⟨object, mem, points, hasRoot_withDescriptor.trans root, positive, whole, within,
        levelTwo_withDescriptor_self⟩
  · intro process slotIndex slotBound free entries
    have newFree := free view (by simp)
    rw [levelTwo_withDescriptor_of_ne (by
      rintro ⟨same, index⟩
      exact newFree ⟨same.symm, (viewIndex_injective index).symm⟩)]
    refine arranged.idle process slotIndex slotBound ?_ entries
    intro other present
    exact free other (mem_append_left _ present)

end

/-! ## Growing an object under its views -/

/-- What the view loop of `resize_backing` makes of a view. -/
def extendedView (record : Slot) (oldBytes newBytes : ℕ) (view : Attachment) : Attachment :=
  if view.object = record ∧ view.viewBytes = oldBytes then
    { view with viewBytes := newBytes }
  else
    view

section

variable {record : Slot} {oldBytes newBytes : ℕ} {view : Attachment}

@[simp] theorem process_extendedView :
    (extendedView record oldBytes newBytes view).process = view.process := by
  unfold extendedView
  split <;> rfl

@[simp] theorem slotIndex_extendedView :
    (extendedView record oldBytes newBytes view).slotIndex = view.slotIndex := by
  unfold extendedView
  split <;> rfl

@[simp] theorem object_extendedView :
    (extendedView record oldBytes newBytes view).object = view.object := by
  unfold extendedView
  split <;> rfl

@[simp] theorem viewAddress_extendedView :
    (extendedView record oldBytes newBytes view).viewAddress = view.viewAddress := by
  unfold extendedView
  split <;> rfl

/-- What the view loop leaves in the page tables: the whole views of the object show
the new pages, every other entry is as before. -/
structure Extended (resize : Resize) (views : List Attachment)
    (spaces after : ℕ → AddressSpace) : Prop where
  root : ∀ process, (after process).hasRoot = (spaces process).hasRoot
  /-- A whole view shows the new pages. -/
  shown : ∀ view ∈ views, view.object = resize.record → view.viewBytes = resize.oldBytes →
    (after view.process).levelTwo (viewIndex view.slotIndex) =
      .table (viewEntries resize.pages resize.newPageCount)
  kept : ∀ process index,
    (∀ view ∈ views, view.object = resize.record → view.viewBytes = resize.oldBytes →
      ¬(view.process = process ∧ viewIndex view.slotIndex = index)) →
    (after process).levelTwo index = (spaces process).levelTwo index

/-- Extending views whose tables are in place cannot fail. -/
theorem extendViews_ok (resize : Resize) (visited views : List Attachment) (machine : Machine)
    (more : resize.oldPageCount < resize.newPageCount) (inside : resize.newPageCount ≤ tableEntries)
    (aligned : ∀ phys ∈ resize.pages, phys % pageSize = 0) (placed : ∀ view ∈ views,
      view.slotIndex < viewSlots ∧ view.viewAddress = slotAddress view.slotIndex)
    (ready : ∀ view ∈ views, view.object = resize.record → view.viewBytes = resize.oldBytes →
      (machine.spaces view.process).hasRoot = true ∧
      (machine.spaces view.process).levelTwo (viewIndex view.slotIndex) =
        .table (viewEntries resize.pages resize.oldPageCount))
    (apart : views.Pairwise fun left right =>
      ¬(left.process = right.process ∧ left.slotIndex = right.slotIndex)) :
    ∃ mapped,
      extendViews resize visited views machine =
        (.ok, visited ++ views.map (extendedView resize.record resize.oldBytes resize.newBytes),
          mapped) ∧
      Extended resize views machine.spaces mapped.spaces := by
  induction views generalizing visited machine with
  | nil =>
    refine ⟨machine, by simp [extendViews], ⟨fun _ => rfl, ?_, fun _ _ _ => rfl⟩⟩
    intro view mem
    cases mem
  | cons view rest ih =>
    obtain ⟨apartHead, apartRest⟩ := pairwise_cons.mp apart
    have placedRest : ∀ other ∈ rest,
        other.slotIndex < viewSlots ∧ other.viewAddress = slotAddress other.slotIndex :=
      fun other mem => placed other (.tail _ mem)
    by_cases touched : view.object = resize.record ∧ view.viewBytes = resize.oldBytes
    · obtain ⟨root, table⟩ := ready view (.head _) touched.1 touched.2
      obtain ⟨bound, address⟩ := placed view (.head _)
      obtain ⟨mapped, run, spaces⟩ := mapBackingPagesFrom_table machine resize.oldPageCount 0
        (resize.newPageCount - resize.oldPageCount) root bound aligned
        (by rw [Nat.add_zero]; exact table) (by omega)
      rw [show resize.oldPageCount + 0 + (resize.newPageCount - resize.oldPageCount) =
        resize.newPageCount by omega] at spaces
      have elsewhere : ∀ other ∈ rest, ¬(other.process = view.process ∧
          viewIndex other.slotIndex = viewIndex view.slotIndex) := by
        rintro other mem ⟨process, index⟩
        exact apartHead other mem ⟨process.symm, (viewIndex_injective index).symm⟩
      obtain ⟨final, loop, extended⟩ := ih
        (visited ++ [{ view with viewBytes := resize.newBytes }]) mapped placedRest (by
          intro other mem object bytes
          obtain ⟨otherRoot, otherTable⟩ := ready other (.tail _ mem) object bytes
          rw [spaces, hasRoot_withDescriptor, levelTwo_withDescriptor_of_ne (elsewhere other mem)]
          exact ⟨otherRoot, otherTable⟩) apartRest
      have mapping : mapBackingPages machine view.process view.viewAddress resize.pages
          resize.oldPageCount (resize.newPageCount - resize.oldPageCount) = (.ok, mapped) := by
        rw [mapBackingPages, if_neg (by omega), address]
        exact run
      refine ⟨final, ?_, ?_, ?_, ?_⟩
      · rw [extendViews, if_pos (by simp [viewOf, touched, root]), mapping]
        dsimp only
        rw [loop, map_cons, extendedView, if_pos touched, append_assoc, singleton_append]
      · intro process
        rw [extended.root, spaces, hasRoot_withDescriptor]
      · intro other mem object bytes
        rcases mem_cons.mp mem with rfl | later
        · rw [extended.kept _ _ fun next nextMember _ _ => elsewhere next nextMember, spaces,
            levelTwo_withDescriptor_self]
        · exact extended.shown other later object bytes
      · intro process index free
        rw [extended.kept process index
          fun other mem => free other (.tail _ mem), spaces]
        refine levelTwo_withDescriptor_of_ne ?_
        rintro ⟨same, sameIndex⟩
        exact free view (.head _) touched.1 touched.2 ⟨same.symm, sameIndex.symm⟩
    · obtain ⟨final, loop, extended⟩ := ih (visited ++ [view]) machine placedRest
        (fun other mem => ready other (.tail _ mem)) apartRest
      refine ⟨final, ?_, extended.root, ?_, ?_⟩
      · rw [extendViews, if_neg (by
          simp only [viewOf, decide_eq_true_eq]
          exact fun all => touched ⟨all.1, all.2.1⟩), loop, map_cons, extendedView,
          if_neg touched, append_assoc, singleton_append]
      · intro other mem object bytes
        rcases mem_cons.mp mem with rfl | later
        · exact absurd ⟨object, bytes⟩ touched
        · exact extended.shown other later object bytes
      · intro process index free
        exact extended.kept process index fun other mem => free other (.tail _ mem)

end

/-- Replacing the pages of one object by a longer array, with its whole views
extended over it. -/
theorem Arranged.resize {spaces after : ℕ → AddressSpace} {views : List Attachment}
    {extents : List Extent} {resize : Resize} {old grown : Extent} {added : List ℕ}
    (arranged : Arranged spaces views extents)
    (present : old ∈ extents) (oldRecord : old.record = resize.record)
    (oldBytes : old.bytes = resize.oldBytes)
    (record : grown.record = resize.record) (pages : grown.pages = resize.pages)
    (appended : resize.pages = old.pages ++ added)
    (bytes : grown.bytes = resize.newBytes) (newSound : grown.Sound)
    (count : resize.newPageCount = resize.newBytes / pageSize)
    (larger : resize.oldBytes ≤ resize.newBytes) (extended : Extended resize views spaces after) :
    Arranged after
      (views.map (extendedView resize.record resize.oldBytes resize.newBytes))
      (extents.map fun extent => if extent.record = resize.record then grown else extent) := by
  have oldSound := arranged.sound old present
  refine ⟨?_, ?_, ?_, ?_, ?_, ?_, ?_⟩
  · rw [map_map]
    refine Eq.mp (congrArg List.Nodup (map_congr_left ?_)) arranged.distinct
    intro extent _
    simp only [Function.comp_apply]
    split
    · rename_i same
      exact same.trans record.symm
    · rfl
  · intro extent mem
    obtain ⟨original, oldMem, rfl⟩ := mem_map.mp mem
    split
    · exact newSound
    · exact arranged.sound original oldMem
  · intro view mem
    obtain ⟨original, oldMem, rfl⟩ := mem_map.mp mem
    simpa using arranged.placed original oldMem
  · intro left leftMember right rightMember process shared
    obtain ⟨leftOriginal, leftPresent, rfl⟩ := mem_map.mp leftMember
    obtain ⟨rightOriginal, rightPresent, rfl⟩ := mem_map.mp rightMember
    simp only [process_extendedView, slotIndex_extendedView, object_extendedView] at process shared
    rw [arranged.single leftOriginal leftPresent rightOriginal rightPresent process shared]
  · refine pairwise_map.mpr (arranged.apart.imp ?_)
    intro _ _ apart
    simpa using apart
  · intro view mem
    obtain ⟨original, oldMem, rfl⟩ := mem_map.mp mem
    obtain ⟨_, extentMember, points, shows⟩ := arranged.shown original oldMem
    refine ⟨_, mem_map_of_mem extentMember, ?_⟩
    rw [object_extendedView]
    by_cases touched : original.object = resize.record ∧ original.viewBytes = resize.oldBytes
    · have table := extended.shown original oldMem touched.1 touched.2
      rw [if_pos (points.trans touched.1), extendedView, if_pos touched]
      refine ⟨record.trans touched.1.symm, (extended.root _).trans shows.root, ?_, ?_, bytes.ge, ?_⟩
      · exact lt_of_lt_of_le shows.positive (touched.2.le.trans larger)
      · show resize.newBytes % pageSize = 0
        rw [← bytes, newSound.sized]
        exact Nat.mul_mod_left _ _
      · rw [pages, ← count]
        exact table
    · have kept := shows.congr (extended.root _) (extended.kept _ _ (by
        rintro other otherMem object whole ⟨process, index⟩
        have equal := arranged.single other otherMem original oldMem process
          (.inl (viewIndex_injective index))
        exact touched (equal ▸ ⟨object, whole⟩)))
      rw [extendedView, if_neg touched]
      split
      · -- A shorter view keeps its pages, which open the new array too.
        rename_i same
        obtain rfl := arranged.unique extentMember present (same.trans oldRecord.symm)
        refine ⟨record.trans (same.symm.trans points), kept.root, kept.positive, kept.whole, ?_, ?_⟩
        · have within := kept.within
          omega
        · rw [kept.table, pages, appended, viewEntries_append (kept.count_le oldSound)]
      · exact ⟨points, kept⟩
  · intro process slotIndex bound free entries
    have unviewed : ∀ view ∈ views, ¬(view.process = process ∧ view.slotIndex = slotIndex) := by
      intro view mem
      simpa using free _ (mem_map_of_mem mem)
    rw [extended.kept process (viewIndex slotIndex) (by
      rintro view mem _ _ ⟨same, index⟩
      exact unviewed view mem ⟨same, viewIndex_injective index⟩)]
    exact arranged.idle process slotIndex bound unviewed entries

end RosKernel.Memory.FileMappings
