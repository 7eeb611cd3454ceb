import Mathlib.Data.Multiset.UnionInter
import RosKernel.Memory.Ownership

/-!
# Page-backed record pools

Several kernel services keep their fixed-size records in pools that carve whole
physical pages into slots (`file_mapping_record_pool_*` and its siblings). A
slot is named by its page and its position, which is the pointer the source
passes around. A page returns to the page manager with its last record.

`Serves` says that the pool has handed out exactly the live slots.
-/

namespace RosKernel.Memory

open List

/-- The pointer to a record: its page and its position there. -/
structure Slot where
  page : ℕ
  /-- Position in the page. -/
  index : ℕ
  deriving DecidableEq

/-- The header at the start of a pool page. -/
structure PageHeader where
  pagePhys : ℕ
  liveSlots : ℕ
  slotCapacity : ℕ
  deriving DecidableEq

/-- Slot geometry of an initialized pool. -/
structure SlotLayout where
  slotBytes : ℕ
  slotAlignment : ℕ
  /-- `record_pool_init` rejects empty records. -/
  slotBytes_pos : 0 < slotBytes

/-- A pool of fixed-size records. -/
structure RecordPool where
  layout : SlotLayout
  /-- `free_list`, head first. -/
  freeList : List Slot
  /-- `pages`, head first. -/
  pages : List PageHeader

namespace RecordPool

open Multiset (add_assoc add_cons coe_add cons_add cons_coe mem_add mem_coe nodup_add)

/-- `sizeof(FileMappingRecordPageHeader)` and of its siblings. -/
def headerBytes : ℕ := 24

def alignUpRecord (value alignment : ℕ) : ℕ :=
  (value + (alignment - 1)) / alignment * alignment

/-- Slots that fit behind the header of one page. -/
def slotCapacity (layout : SlotLayout) (page : ℕ) : ℕ :=
  (page + pageSize - alignUpRecord (page + headerBytes) layout.slotAlignment) / layout.slotBytes

/-- The slots of one page in the order the grow loop leaves them in. -/
def freshSlots (page capacity : ℕ) : List Slot :=
  ((List.range capacity).map fun index => ⟨page, index⟩).reverse

/-- `record_pool_grow`. -/
def grow (pool : RecordPool) (machine : Machine) : Bool × RecordPool × Machine :=
  let page := machine.allocPage.1
  let allocated := machine.allocPage.2
  if page = 0 then
    (false, pool, allocated)
  else if page + pageSize ≤ alignUpRecord (page + headerBytes) pool.layout.slotAlignment then
    (false, pool, allocated.freePage page)
  else if slotCapacity pool.layout page = 0 then
    (false, pool, allocated.freePage page)
  else
    (true,
      { pool with
        freeList := freshSlots page (slotCapacity pool.layout page) ++ pool.freeList
        pages := ⟨page, 0, slotCapacity pool.layout page⟩ :: pool.pages },
      allocated)

/-- Change `live_slots` in the header of one page. -/
def setLive (pool : RecordPool) (page : ℕ) (update : ℕ → ℕ) : RecordPool :=
  { pool with
    pages := pool.pages.map fun header =>
      if header.pagePhys = page then { header with liveSlots := update header.liveSlots }
      else header }

/-- Pop the head of the free list. -/
def popSlot (pool : RecordPool) : Option Slot × RecordPool :=
  match pool.freeList with
  | [] => (none, pool)
  | slot :: rest => (some slot, { pool with freeList := rest }.setLive slot.page (· + 1))

/-- `record_pool_allocate`. -/
def allocate (pool : RecordPool) (machine : Machine) :
    Option Slot × RecordPool × Machine :=
  match pool.freeList with
  | [] =>
    match pool.grow machine with
    | (false, unchanged, failed) => (none, unchanged, failed)
    | (true, grown, extended) => (grown.popSlot.1, grown.popSlot.2, extended)
  | _ :: _ => (pool.popSlot.1, pool.popSlot.2, machine)

/-- `record_pool_remove_page_slots` and `record_pool_unlink_page`. -/
def retirePage (pool : RecordPool) (page : ℕ) : RecordPool :=
  { pool with
    -- The filter loop pushes what it keeps, so the order turns around.
    freeList := (pool.freeList.filter fun slot => slot.page ≠ page).reverse
    pages := pool.pages.filter fun header => header.pagePhys ≠ page }

/-- The header of the page a slot lies in. -/
def headerOf (pool : RecordPool) (slot : Slot) : Option PageHeader :=
  pool.pages.find? fun header => header.pagePhys = slot.page

/-- `record_pool_free`. -/
def free (pool : RecordPool) (machine : Machine) (slot : Slot) : RecordPool × Machine :=
  match pool.headerOf slot with
  | none => (pool, machine)
  | some header =>
    if header.liveSlots = 0 then
      (pool, machine)
    else
      let returned := { pool with freeList := slot :: pool.freeList }.setLive slot.page (· - 1)
      if header.liveSlots - 1 ≠ 0 then
        (returned, machine)
      else
        (returned.retirePage slot.page, machine.freePage header.pagePhys)

/-- The pages of the pool. -/
def pageAddresses (pool : RecordPool) : Multiset ℕ :=
  (pool.pages.map PageHeader.pagePhys : List ℕ)

variable {pool : RecordPool} {live : Multiset Slot} {machine : Machine} {rest : Multiset ℕ}
variable {slot : Slot} {page : ℕ}

/-- The pool has handed out exactly the live slots. -/
structure Serves (pool : RecordPool) (live : Multiset Slot) : Prop where
  pagesDistinct : pool.pageAddresses.Nodup
  /-- A slot is free once, or live once, and never both. -/
  slotsDistinct : ((pool.freeList : Multiset Slot) + live).Nodup
  slotsPaged : ∀ slot ∈ (pool.freeList : Multiset Slot) + live, slot.page ∈ pool.pageAddresses
  /-- Each header counts the live slots of its page. -/
  counted : ∀ header ∈ pool.pages,
    header.liveSlots = live.countP fun slot => slot.page = header.pagePhys

/-- Live slots are distinct. -/
theorem Serves.liveDistinct (serves : pool.Serves live) : live.Nodup :=
  (nodup_add.mp serves.slotsDistinct).2.1

@[simp] theorem pageAddresses_setLive (pool : RecordPool) (page : ℕ) (update : ℕ → ℕ) :
    (pool.setLive page update).pageAddresses = pool.pageAddresses := by
  unfold pageAddresses setLive
  rw [map_map]
  refine congrArg _ (map_congr_left ?_)
  intro _ _
  simp only [Function.comp_apply]
  split <;> rfl

/-! ## Allocation -/

/-- The pool after linking a fresh page. -/
def withPage (pool : RecordPool) (page : ℕ) : RecordPool :=
  { pool with
    freeList := freshSlots page (slotCapacity pool.layout page) ++ pool.freeList
    pages := ⟨page, 0, slotCapacity pool.layout page⟩ :: pool.pages }

/-- The pool after handing out a slot. -/
def handOut (pool : RecordPool) (slot : Slot) (rest : List Slot) : RecordPool :=
  { pool with freeList := rest }.setLive slot.page (· + 1)

/-- Slots become live or free, and the header of one page counts them. -/
theorem Serves.moveSlot {slots : List Slot} {moved : Multiset Slot} {update : ℕ → ℕ}
    (serves : pool.Serves live)
    (same : (slots : Multiset Slot) + moved = (pool.freeList : Multiset Slot) + live)
    (recounted : ∀ other, moved.countP (fun slot => slot.page = other) =
      if other = page then update (live.countP fun slot => slot.page = other)
      else live.countP fun slot => slot.page = other) :
    ({ pool with freeList := slots }.setLive page update).Serves moved := by
  refine ⟨?_, same ▸ serves.slotsDistinct, ?_, ?_⟩
  · rw [pageAddresses_setLive]
    exact serves.pagesDistinct
  · intro other mem
    rw [pageAddresses_setLive]
    exact serves.slotsPaged other (same ▸ mem)
  · intro _ mem
    obtain ⟨old, oldMem, rfl⟩ := mem_map.mp mem
    have counted := serves.counted old oldMem
    split
    · rename_i here
      rw [recounted, if_pos here, counted]
    · rename_i elsewhere
      rw [recounted, if_neg elsewhere, counted]

/-- Handing out the head of the free list makes it live. -/
theorem Serves.handOut {slots : List Slot} (serves : pool.Serves live)
    (free : pool.freeList = slot :: slots) : (pool.handOut slot slots).Serves (slot ::ₘ live) := by
  refine serves.moveSlot ?_ fun other => ?_
  · rw [free, ← cons_coe, cons_add, add_cons]
  · rw [Multiset.countP_cons]
    simp only [eq_comm (a := other)]
    split <;> rfl

theorem mem_freshSlots {capacity : ℕ} (mem : slot ∈ freshSlots page capacity) :
    slot.page = page := by
  rw [freshSlots, mem_reverse] at mem
  obtain ⟨_, _, rfl⟩ := mem_map.mp mem
  rfl

theorem freshSlots_nodup (page capacity : ℕ) : (freshSlots page capacity).Nodup := by
  rw [freshSlots, nodup_reverse]
  refine List.Nodup.map ?_ nodup_range
  intro _ _ equal
  exact congrArg Slot.index equal

/-- Linking a page the pool did not have adds its slots to the free list. -/
theorem Serves.withPage (serves : pool.Serves live) (fresh : page ∉ pool.pageAddresses) :
    (pool.withPage page).Serves live := by
  unfold RecordPool.withPage
  have elsewhere : ∀ slot ∈ (pool.freeList : Multiset Slot) + live, slot.page ≠ page := by
    intro slot mem same
    exact fresh (same ▸ serves.slotsPaged slot mem)
  refine ⟨?_, ?_, ?_, ?_⟩
  · exact Multiset.nodup_cons.mpr ⟨fresh, serves.pagesDistinct⟩
  · rw [← coe_add, add_assoc, nodup_add]
    refine ⟨freshSlots_nodup _ _, serves.slotsDistinct, ?_⟩
    rw [Multiset.disjoint_left]
    intro slot new old
    exact elsewhere slot old (mem_freshSlots (mem_coe.mp new))
  · intro slot mem
    rw [← coe_add, add_assoc] at mem
    refine mem_coe.mpr (mem_cons.mpr ?_)
    rcases mem_add.mp mem with new | old
    · exact .inl (mem_freshSlots (mem_coe.mp new))
    · exact .inr (mem_coe.mp (serves.slotsPaged slot old))
  · intro header mem
    rcases mem_cons.mp mem with same | old
    · subst same
      rw [eq_comm, Multiset.countP_eq_zero]
      intro slot liveSlot
      exact elsewhere slot (mem_add.mpr (.inr liveSlot))
    · exact serves.counted header old

/-- What `record_pool_allocate` does: pop a free slot, link a page and pop a slot of
it, or fail without a page. -/
theorem allocate_cases (pool : RecordPool) (machine : Machine) :
    (∃ slot rest, pool.freeList = slot :: rest ∧
      pool.allocate machine = (some slot, pool.handOut slot rest, machine)) ∨
    (∃ slot rest, machine.allocPage.1 ≠ 0 ∧ slot.page = machine.allocPage.1 ∧
      (pool.withPage machine.allocPage.1).freeList = slot :: rest ∧ pool.allocate machine =
        (some slot, (pool.withPage machine.allocPage.1).handOut slot rest, machine.allocPage.2)) ∨
    (pool.allocate machine = (none, pool, machine.allocPage.2) ∧ machine.allocPage.1 = 0) ∨
    (pool.allocate machine = (none, pool, machine.allocPage.2.freePage machine.allocPage.1) ∧
        machine.allocPage.1 ≠ 0) := by
  cases free : pool.freeList with
  | cons slot rest =>
    refine .inl ⟨slot, rest, rfl, ?_⟩
    simp only [allocate, free, popSlot, handOut]
  | nil =>
    right
    simp only [allocate, free, grow]
    by_cases none : machine.allocPage.1 = 0
    · exact .inr (.inl ⟨by rw [if_pos none], none⟩)
    rw [if_neg none]
    by_cases full : machine.allocPage.1 + pageSize ≤
        alignUpRecord (machine.allocPage.1 + headerBytes) pool.layout.slotAlignment
    · exact .inr (.inr ⟨by rw [if_pos full], none⟩)
    rw [if_neg full]
    by_cases empty : slotCapacity pool.layout machine.allocPage.1 = 0
    · exact .inr (.inr ⟨by rw [if_pos empty], none⟩)
    rw [if_neg empty]
    left
    cases slots : freshSlots machine.allocPage.1
      (slotCapacity pool.layout machine.allocPage.1) with
    | nil =>
      have length := congrArg List.length slots
      simp [freshSlots] at length
      exact absurd length empty
    | cons slot rest =>
      have here : slot.page = machine.allocPage.1 := mem_freshSlots (slots ▸ mem_cons_self)
      refine ⟨slot, rest, none, here, ?_, ?_⟩
      · simp only [withPage, slots, free, append_nil]
      · simp only [popSlot, append_nil, handOut, withPage, free]

section

variable {kept : Machine → Prop} (pages : Machine.PageInvariant kept) (holds : kept machine)
include pages holds

theorem kept_allocate (pool : RecordPool) : kept (pool.allocate machine).2.2 := by
  rcases pool.allocate_cases machine with ⟨_, _, _, result⟩ | ⟨_, _, _, _, _, result⟩ |
    ⟨result, _⟩ | ⟨result, _⟩ <;> rw [result]
  · exact holds
  · exact pages.allocPage _ holds
  · exact pages.allocPage _ holds
  · exact pages.freePage _ _ (pages.allocPage _ holds)

theorem kept_free (pool : RecordPool) (slot : Slot) : kept (pool.free machine slot).2 := by
  unfold RecordPool.free
  split
  · exact holds
  split
  · exact holds
  split
  · exact holds
  · exact pages.freePage _ _ holds

end

/-- `record_pool_allocate` returns a slot that was not live, or none. -/
theorem Serves.allocate (serves : pool.Serves live)
    (ownership : machine.Owned (pool.pageAddresses + rest)) :
    (pool.allocate machine).2.2.Owned ((pool.allocate machine).2.1.pageAddresses + rest) ∧
      ((pool.allocate machine).1 = none ∧ (pool.allocate machine).2.1.Serves live ∨
        ∃ slot, (pool.allocate machine).1 = some slot ∧
          (pool.allocate machine).2.1.Serves (slot ::ₘ live)) := by
  have pages (other : RecordPool) (slot : Slot) (slots : List Slot) :
      (other.handOut slot slots).pageAddresses = other.pageAddresses := pageAddresses_setLive ..
  rcases pool.allocate_cases machine with ⟨slot, _, free, result⟩ |
    ⟨slot, _, nonzero, -, free, result⟩ | ⟨result, zero⟩ | ⟨result, nonzero⟩ <;> rw [result]
  · exact ⟨by rw [pages]; exact ownership, .inr ⟨slot, rfl, serves.handOut free⟩⟩
  · obtain ⟨-, fresh, extended⟩ := ownership.allocPage.resolve_left fun none => nonzero none.1
    have unlinked := serves.withPage fun mem => fresh (mem_add.mpr (.inl mem))
    refine ⟨?_, .inr ⟨slot, rfl, unlinked.handOut free⟩⟩
    rw [pages]
    rwa [← cons_add] at extended
  · exact ⟨(ownership.allocPage.resolve_right fun taken => taken.1 zero).2, .inl ⟨rfl, serves⟩⟩
  · obtain ⟨-, -, extended⟩ := ownership.allocPage.resolve_left fun none => nonzero none.1
    exact ⟨extended.freePage, .inl ⟨rfl, serves⟩⟩

/-! ## Release -/

/-- The header of a live slot counts it. -/
theorem Serves.headerOf (serves : pool.Serves (slot ::ₘ live)) :
    ∃ header, pool.headerOf slot = some header ∧ header.pagePhys = slot.page ∧
      header.liveSlots = (live.countP fun other => other.page = slot.page) + 1 := by
  have paged := serves.slotsPaged slot (mem_add.mpr (.inr (Multiset.mem_cons_self slot live)))
  obtain ⟨linked, linkedMember, linkedPage⟩ := mem_map.mp (mem_coe.mp paged)
  cases found : pool.headerOf slot with
  | none =>
    have absent := List.find?_eq_none.mp found linked linkedMember
    simp [linkedPage] at absent
  | some header =>
    have here : header.pagePhys = slot.page := by simpa using List.find?_some found
    refine ⟨header, rfl, here, ?_⟩
    rw [serves.counted header (mem_of_find?_eq_some found), here]
    exact Multiset.countP_cons_of_pos (p := fun other : Slot => other.page = slot.page) live rfl

/-- A returned slot is free again and its header counts one slot less. -/
theorem Serves.returned (serves : pool.Serves (slot ::ₘ live)) :
    ({ pool with freeList := slot :: pool.freeList }.setLive slot.page (· - 1)).Serves live := by
  refine serves.moveSlot ?_ fun other => ?_
  · rw [← cons_coe, cons_add, add_cons]
  · rw [Multiset.countP_cons]
    simp only [eq_comm (a := other)]
    split <;> rfl

/-- A page goes with its last live slot. -/
theorem Serves.free_eq (serves : pool.Serves (slot ::ₘ live)) (machine : Machine) :
    pool.free machine slot =
      if (live.countP fun other => other.page = slot.page) ≠ 0 then
        ({ pool with freeList := slot :: pool.freeList }.setLive slot.page (· - 1), machine)
      else
        (({ pool with freeList := slot :: pool.freeList }.setLive slot.page
          (· - 1)).retirePage slot.page, machine.freePage slot.page) := by
  obtain ⟨_, found, here, count⟩ := serves.headerOf
  unfold RecordPool.free
  rw [found]
  dsimp only
  rw [if_neg (by omega), count, Nat.add_sub_cancel, here]

/-- Retiring a page without live slots leaves the other pages to the pool. -/
theorem Serves.retirePage (serves : pool.Serves live) (linked : page ∈ pool.pageAddresses)
    (unused : ∀ slot ∈ live, slot.page ≠ page) :
    pool.pageAddresses = page ::ₘ (pool.retirePage page).pageAddresses ∧
      (pool.retirePage page).Serves live := by
  have kept : (pool.retirePage page).pageAddresses =
      pool.pageAddresses.filter fun other => other ≠ page := by
    unfold RecordPool.retirePage pageAddresses
    rw [Multiset.filter_coe, filter_map]
    rfl
  have slots : ((pool.retirePage page).freeList : Multiset Slot) =
      (pool.freeList : Multiset Slot).filter fun slot => slot.page ≠ page := by
    rw [Multiset.filter_coe, Multiset.coe_eq_coe]
    exact reverse_perm _
  have liveKept : live.filter (fun slot => slot.page ≠ page) = live :=
    Multiset.filter_eq_self.mpr unused
  refine ⟨?_, ⟨?_, ?_, ?_, ?_⟩⟩
  · rw [kept, ← Multiset.Nodup.erase_eq_filter page serves.pagesDistinct,
      Multiset.cons_erase linked]
  · rw [kept]
    exact serves.pagesDistinct.filter _
  · rw [slots, ← liveKept, ← Multiset.filter_add]
    exact serves.slotsDistinct.filter _
  · intro slot mem
    rw [slots, ← liveKept, ← Multiset.filter_add] at mem
    obtain ⟨old, elsewhere⟩ := Multiset.mem_filter.mp mem
    rw [kept]
    exact Multiset.mem_filter.mpr ⟨serves.slotsPaged slot old, elsewhere⟩
  · intro header mem
    exact serves.counted header (mem_of_mem_filter mem)

/-- `record_pool_free` ends the life of one slot. -/
theorem Serves.free (serves : pool.Serves (slot ::ₘ live))
    (ownership : machine.Owned (pool.pageAddresses + rest)) :
    (pool.free machine slot).1.Serves live ∧
      (pool.free machine slot).2.Owned ((pool.free machine slot).1.pageAddresses + rest) := by
  have returned := serves.returned
  have linked := serves.slotsPaged slot (mem_add.mpr (.inr (Multiset.mem_cons_self slot live)))
  rw [serves.free_eq]
  split
  · refine ⟨returned, ?_⟩
    rw [pageAddresses_setLive]
    exact ownership
  · rename_i unused
    obtain ⟨split, retired⟩ := returned.retirePage
      (by rw [pageAddresses_setLive]; exact linked)
      (Multiset.countP_eq_zero.mp (not_not.mp unused))
    refine ⟨retired, ?_⟩
    rw [pageAddresses_setLive] at split
    have pages : pool.pageAddresses = slot.page ::ₘ _ := split
    rw [pages, cons_add] at ownership
    exact ownership.freePage

/-! ## Pages in use -/

/-- Every page of the pool holds a live record. -/
def Busy (pool : RecordPool) : Prop :=
  ∀ header ∈ pool.pages, 0 < header.liveSlots

/-- Allocation leaves no page without a live record. -/
theorem Busy.allocate (busy : pool.Busy) (machine : Machine) :
    (pool.allocate machine).2.1.Busy := by
  have raised : ∀ (other : RecordPool) (slot : Slot) (rest : List Slot),
      (∀ header ∈ other.pages, 0 < header.liveSlots ∨ header.pagePhys = slot.page) →
      (other.handOut slot rest).Busy := by
    intro _ slot rest counted header mem
    obtain ⟨original, oldMem, rfl⟩ := mem_map.mp mem
    split
    · exact Nat.succ_pos _
    · rename_i elsewhere
      exact (counted original oldMem).resolve_right elsewhere
  rcases pool.allocate_cases machine with ⟨slot, rest, _, result⟩ |
    ⟨slot, rest, _, here, _, result⟩ | ⟨result, _⟩ | ⟨result, _⟩ <;> rw [result]
  · exact raised pool slot rest fun header mem => .inl (busy header mem)
  · refine raised _ slot rest ?_
    intro header mem
    rcases mem_cons.mp mem with same | old
    · exact .inr (by rw [same]; exact here.symm)
    · exact .inl (busy header old)
  · exact busy
  · exact busy

/-- Freeing leaves no page without a live record. -/
theorem Busy.free (busy : pool.Busy) (serves : pool.Serves (slot ::ₘ live))
    (machine : Machine) : (pool.free machine slot).1.Busy := by
  have others : ∀ header ∈ ({ pool with freeList := slot :: pool.freeList }.setLive slot.page
      (· - 1)).pages, header.pagePhys ≠ slot.page → 0 < header.liveSlots := by
    intro _ mem elsewhere
    obtain ⟨old, oldMem, rfl⟩ := mem_map.mp mem
    split at elsewhere
    · rename_i same
      exact absurd same elsewhere
    · rename_i other
      rw [if_neg other]
      exact busy old oldMem
  rw [serves.free_eq]
  split
  · rename_i remaining
    intro header mem
    by_cases here : header.pagePhys = slot.page
    · rw [serves.returned.counted header mem, here]
      exact Nat.pos_of_ne_zero remaining
    · exact others header mem here
  · intro header mem
    obtain ⟨present, elsewhere⟩ := mem_filter.mp mem
    exact others header present (by simpa using elsewhere)

/-- Handing a slot out and taking it back leaves the pages as they were; the page that
was taken for it goes back. -/
theorem Serves.allocate_free (serves : pool.Serves live) (busy : pool.Busy)
    {machine : Machine} (unlinked : machine.allocPage.1 ∉ pool.pageAddresses)
    {larger : RecordPool} {after : Machine}
    (allocated : pool.allocate machine = (some slot, larger, after))
    (served : larger.Serves (slot ::ₘ live)) :
    (∀ later, (larger.free later slot).1.pages = pool.pages) ∧
      (after = machine ∧ (∀ later, (larger.free later slot).2 = later) ∨
        machine.allocPage.1 ≠ 0 ∧ after = machine.allocPage.2 ∧
          ∀ later, (larger.free later slot).2 = later.freePage machine.allocPage.1) := by
  have restore : ∀ page (pages : List PageHeader),
      ((pages.map fun header => if header.pagePhys = page then
        { header with liveSlots := header.liveSlots + 1 } else header).map fun header =>
          if header.pagePhys = page then { header with liveSlots := header.liveSlots - 1 }
          else header) = pages := by
    intro page _
    rw [map_map]
    refine (map_congr_left ?_).trans (map_id _)
    intro _ _
    simp only [Function.comp_apply, id_eq]
    split <;> rfl
  rcases pool.allocate_cases machine with ⟨popped, rest, free, result⟩ |
    ⟨popped, rest, taken, inPage, -, result⟩ | ⟨result, _⟩ | ⟨result, _⟩
  · obtain ⟨rfl, rfl, rfl⟩ := by simpa using allocated.symm.trans result
    -- The page of a free slot holds another live record, so it stays.
    have paged := serves.slotsPaged slot (mem_add.mpr (.inl (by rw [free]; exact .head _)))
    obtain ⟨linked, linkedMember, linkedPage⟩ := mem_map.mp (mem_coe.mp paged)
    have counted := serves.counted linked linkedMember
    have positive := busy linked linkedMember
    rw [counted, linkedPage] at positive
    have kept := fun later =>
      (served.free_eq later).trans (if_pos (Nat.pos_iff_ne_zero.mp positive))
    refine ⟨?_, .inl ⟨rfl, fun later => by rw [kept later]⟩⟩
    intro later
    rw [kept later]
    exact restore slot.page pool.pages
  · obtain ⟨rfl, rfl, rfl⟩ := by simpa using allocated.symm.trans result
    have none : (live.countP fun other => other.page = slot.page) = 0 := by
      rw [Multiset.countP_eq_zero]
      intro other mem same
      have paged := serves.slotsPaged other (mem_add.mpr (.inr mem))
      rw [same, inPage] at paged
      exact unlinked paged
    have retired := fun later => (served.free_eq later).trans (if_neg (not_not.mpr none))
    refine ⟨?_, .inr ⟨taken, rfl, fun later => by rw [retired later, inPage]⟩⟩
    intro later
    rw [retired later]
    have restored := restore slot.page (pool.withPage machine.allocPage.1).pages
    refine (congrArg (List.filter fun header => header.pagePhys ≠ slot.page) restored).trans ?_
    rw [RecordPool.withPage, filter_cons_of_neg (by simp [inPage]), filter_eq_self]
    intro linked mem
    have elsewhere : linked.pagePhys ≠ slot.page := by
      intro same
      exact unlinked (inPage ▸ same ▸ mem_coe.mpr (mem_map_of_mem mem))
    simpa using elsewhere
  · cases allocated.symm.trans result
  · cases allocated.symm.trans result

end RecordPool

end RosKernel.Memory
