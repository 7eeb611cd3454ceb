import Mathlib.Tactic.IntervalCases
import RosKernel.Memory.SharedMemoryRegistry
import RosKernel.Memory.UserHeap

/-!
# Runs of the record pools

The user heap, the shared memory and the file mappings keep a record pool each, with a
`record_pool_free` of its own. In every run a slot of a page is free or allocated, and the
page goes back with its last record.
-/

namespace RosKernel.Memory.RecordPool

open List

open Multiset (add_cons coe_add coe_eq_coe cons_add cons_coe filter_add mem_add mem_coe)

/-- The services with record pools. -/
inductive Service
  | userHeap
  | sharedMemory
  | fileMapping

/-- The `record_pool_free` of each service; `record_pool_allocate` is the same in all. -/
def Service.free : Service → RecordPool → Machine → Slot → RecordPool × Machine
  | .userHeap => UserHeap.recordPoolFree
  | .sharedMemory => SharedMemory.recordPoolFree
  | .fileMapping => RecordPool.free

/-- The slots of the pool's pages. -/
def slots (pool : RecordPool) : Multiset Slot :=
  (pool.pages.flatMap fun header => freshSlots header.pagePhys header.slotCapacity : List Slot)

/-- Runs of a pool with its allocated records. -/
inductive Reachable (service : Service) : RecordPool → Multiset Slot → Machine → Prop
  /-- The alignment of a record type is a power of two. Beyond a page the grow loop of the
  shared memory, which does not check where its first slot lies, would leave the page. -/
  | init (layout : SlotLayout) (machine : Machine)
      (aligned : ∃ exponent ≤ 12, layout.slotAlignment = 2 ^ exponent)
      (owned : machine.Owned 0) : Reachable service ⟨layout, [], []⟩ 0 machine
  | allocate {pool live machine} (reachable : Reachable service pool live machine) :
      Reachable service (pool.allocate machine).2.1 ((pool.allocate machine).1.toList + live)
        (pool.allocate machine).2.2
  | free {pool slot live machine} (reachable : Reachable service pool (slot ::ₘ live) machine) :
      Reachable service (service.free pool machine slot).1 live (service.free pool machine slot).2
  /-- Everybody else takes and returns pages, down to the last one. -/
  | others {pool live machine after} (reachable : Reachable service pool live machine)
      (owned : Machine.Owned after pool.pageAddresses) : Reachable service pool live after

/-- Pages have the slots that fit, and no record is aligned beyond a page. -/
structure Fitted (layout : SlotLayout) (pages : List PageHeader) : Prop where
  aligned : ∃ exponent ≤ 12, layout.slotAlignment = 2 ^ exponent
  capacity : ∀ header ∈ pages, header.slotCapacity = slotCapacity layout header.pagePhys

/-- The books of a pool. -/
structure Exact (pool : RecordPool) (live : Multiset Slot) (machine : Machine) : Prop where
  serves : pool.Serves live
  /-- A slot is free or allocated. -/
  tiled : (pool.freeList : Multiset Slot) + live = pool.slots
  owned : machine.Owned pool.pageAddresses
  fitted : Fitted pool.layout pool.pages

/-- The page of a freed record goes back exactly when no other record lies there. -/
def Returns (service : Service) (pool : RecordPool) (machine : Machine) (slot : Slot)
    (others : Multiset Slot) : Prop :=
  (∃ other ∈ others, other.page = slot.page) ∧ (service.free pool machine slot).2 = machine ∧
      (service.free pool machine slot).1.pageAddresses = pool.pageAddresses ∨
    (∀ other ∈ others, other.page ≠ slot.page) ∧
      (service.free pool machine slot).2 = machine.freePage slot.page ∧
      pool.pageAddresses = slot.page ::ₘ (service.free pool machine slot).1.pageAddresses

/-- What a pool guarantees. -/
structure Accounted (service : Service) (pool : RecordPool) (live : Multiset Slot)
    (machine : Machine) : Prop where
  /-- The free list holds each slot that is not allocated once and nothing else. -/
  free : pool.freeList.Nodup ∧ ∀ slot, slot ∈ pool.freeList ↔ slot ∈ pool.slots ∧ slot ∉ live
  allocated : live.Nodup ∧ live ≤ pool.slots
  counted : ∀ header ∈ pool.pages,
    header.liveSlots = live.countP fun slot => slot.page = header.pagePhys
  /-- No slot is handed out twice. -/
  fresh : ∀ slot, (pool.allocate machine).1 = some slot → slot ∉ live
  held : machine.Owned pool.pageAddresses
  /-- Allocation returns no page of the pool. -/
  kept : pool.pageAddresses ≤ (pool.allocate machine).2.1.pageAddresses
  returned : ∀ slot others, live = slot ::ₘ others → Returns service pool machine slot others

variable {pool : RecordPool} {live : Multiset Slot} {machine : Machine} {slot : Slot}

@[simp] theorem slots_setLive (pool : RecordPool) (page : ℕ) (update : ℕ → ℕ) :
    (pool.setLive page update).slots = pool.slots := by
  unfold slots setLive
  rw [flatMap_map]
  refine congrArg _ (flatMap_congr ?_)
  intro _ _
  split <;> rfl

theorem slots_retirePage (pool : RecordPool) (page : ℕ) :
    (pool.retirePage page).slots = pool.slots.filter fun slot => slot.page ≠ page := by
  unfold slots retirePage
  refine congrArg _ ?_
  induction pool.pages with
  | nil => rfl
  | cons header pages ih =>
    rw [flatMap_cons, filter_append, ← ih]
    by_cases here : header.pagePhys = page
    · rw [filter_cons_of_neg (by simpa using here), (filter_eq_nil_iff (l := freshSlots _ _)).mpr,
        nil_append]
      intro slot mem
      simpa [mem_freshSlots mem] using here
    · rw [filter_cons_of_pos (by simpa using here), flatMap_cons,
        (filter_eq_self (l := freshSlots _ _)).mpr]
      intro slot mem
      simpa [mem_freshSlots mem] using here

theorem tiled_handOut {rest : List Slot} (free : pool.freeList = slot :: rest)
    (tiled : (pool.freeList : Multiset Slot) + live = pool.slots) :
    ((pool.handOut slot rest).freeList : Multiset Slot) + (([slot] : List Slot) + live) =
      (pool.handOut slot rest).slots := by
  have same : (pool.handOut slot rest).slots = pool.slots := slots_setLive ..
  rw [same, ← tiled, free, ← cons_coe]
  exact (add_cons slot _ _).trans (cons_add slot _ _).symm

theorem Fitted.setLive (fitted : Fitted pool.layout pool.pages) (page : ℕ) (update : ℕ → ℕ) :
    Fitted pool.layout (pool.setLive page update).pages := by
  refine ⟨fitted.aligned, fun header mem => ?_⟩
  obtain ⟨old, linked, rfl⟩ := mem_map.mp mem
  split <;> exact fitted.capacity old linked

theorem Exact.allocate (books : Exact pool live machine) :
    Exact (pool.allocate machine).2.1 ((pool.allocate machine).1.toList + live)
      (pool.allocate machine).2.2 := by
  obtain ⟨owned, outcome⟩ := books.serves.allocate
    ((add_zero pool.pageAddresses).symm ▸ books.owned)
  rw [add_zero] at owned
  refine ⟨?_, ?_, owned, ?_⟩
  · rcases outcome with ⟨none, serves⟩ | ⟨slot, some, serves⟩
    · rw [none]
      exact (zero_add live).symm ▸ serves
    · rw [some]
      exact serves
  · rcases pool.allocate_cases machine with ⟨_, _, free, result⟩ |
      ⟨_, _, _, _, free, result⟩ | ⟨result, _⟩ | ⟨result, _⟩ <;> rw [result]
    · exact tiled_handOut free books.tiled
    · refine tiled_handOut free ?_
      have grown : (pool.withPage machine.allocPage.1).slots =
        freshSlots machine.allocPage.1 (slotCapacity pool.layout machine.allocPage.1) +
          pool.slots := rfl
      rw [grown, ← books.tiled, ← add_assoc, coe_add]
      rfl
    all_goals exact (congrArg _ (zero_add live)).trans books.tiled
  · have fitted := books.fitted
    rcases pool.allocate_cases machine with ⟨slot, _, _, result⟩ |
      ⟨slot, _, _, _, _, result⟩ | ⟨result, _⟩ | ⟨result, _⟩ <;> rw [result]
    · exact fitted.setLive slot.page (· + 1)
    · have grown : Fitted pool.layout (pool.withPage machine.allocPage.1).pages :=
        ⟨fitted.aligned, forall_mem_cons.mpr ⟨rfl, fitted.capacity⟩⟩
      exact @Fitted.setLive (pool.withPage _) grown slot.page (· + 1)
    all_goals exact fitted

/-- Retiring a page may reorder the free list; otherwise the services agree on allocated
records. -/
theorem Serves.service_free (serves : pool.Serves (slot ::ₘ live)) (service : Service)
    (machine : Machine) : ∃ freeList, freeList ~ (pool.free machine slot).1.freeList ∧
      service.free pool machine slot = ({ (pool.free machine slot).1 with freeList := freeList },
        (pool.free machine slot).2) := by
  cases service with
  | fileMapping => exact ⟨_, .refl _, rfl⟩
  | sharedMemory => exact ⟨_, .refl _, SharedMemory.recordPoolFree_eq serves machine⟩
  | userHeap =>
    obtain ⟨header, found, _, _⟩ := serves.headerOf
    have positive : ¬header.liveSlots = 0 := by omega
    unfold Service.free UserHeap.recordPoolFree RecordPool.free
    simp only [found, if_neg positive]
    split
    · exact ⟨_, .refl _, rfl⟩
    · exact ⟨_, (reverse_perm _).symm, rfl⟩

theorem Serves.returns (serves : pool.Serves (slot ::ₘ live)) (service : Service)
    (machine : Machine) : Returns service pool machine slot live := by
  have linked := serves.slotsPaged slot (mem_add.mpr (.inr (Multiset.mem_cons_self slot live)))
  obtain ⟨_, _, result⟩ := serves.service_free service machine
  unfold Returns
  rw [result, serves.free_eq]
  split
  · rename_i used
    exact .inl ⟨Multiset.countP_pos.mp (Nat.pos_of_ne_zero used), rfl,
      pageAddresses_setLive pool slot.page (· - 1)⟩
  · rename_i unused
    have others := Multiset.countP_eq_zero.mp (not_not.mp unused)
    have split := (serves.returned.retirePage (by rwa [pageAddresses_setLive]) others).1
    rw [pageAddresses_setLive] at split
    exact .inr ⟨others, rfl, split⟩

theorem Exact.free (books : Exact pool (slot ::ₘ live) machine) (service : Service) :
    Exact (service.free pool machine slot).1 live (service.free pool machine slot).2 := by
  obtain ⟨freed, owned⟩ := books.serves.free ((add_zero pool.pageAddresses).symm ▸ books.owned)
  rw [add_zero] at owned
  have returned : ((slot :: pool.freeList : List Slot) : Multiset Slot) + live = pool.slots := by
    rw [← books.tiled, ← cons_coe]
    exact (cons_add slot _ _).trans (add_cons slot _ _).symm
  have tiled : ((pool.free machine slot).1.freeList : Multiset Slot) + live =
      (pool.free machine slot).1.slots := by
    rw [books.serves.free_eq]
    split
    · exact returned.trans (slots_setLive pool slot.page (· - 1)).symm
    · rename_i unused
      have others := Multiset.countP_eq_zero.mp (not_not.mp unused)
      rw [slots_retirePage, slots_setLive]
      refine Eq.trans ?_ (congrArg (Multiset.filter _) returned)
      rw [filter_add, Multiset.filter_coe, Multiset.filter_eq_self.mpr others]
      exact congrArg (· + live) (coe_eq_coe.mpr (reverse_perm _))
  obtain ⟨freeList, order, result⟩ := books.serves.service_free service machine
  have same := coe_eq_coe.mpr order
  rw [result]
  refine ⟨⟨freed.pagesDistinct, by rw [same]; exact freed.slotsDistinct,
    by rw [same]; exact freed.slotsPaged, freed.counted⟩, by rw [same]; exact tiled, owned, ?_⟩
  have lowered := books.fitted.setLive slot.page (· - 1)
  rw [books.serves.free_eq]
  split
  · exact lowered
  · exact ⟨lowered.aligned, fun header mem => lowered.capacity header (mem_of_mem_filter mem)⟩

theorem Reachable.exact {service : Service} (reachable : Reachable service pool live machine) :
    Exact pool live machine := by
  induction reachable with
  | init _ _ aligned owned =>
    exact ⟨⟨Multiset.nodup_zero, Multiset.nodup_zero, nofun, nofun⟩, rfl, owned, aligned, nofun⟩
  | allocate _ ih => exact ih.allocate
  | free _ ih => exact ih.free service
  | others _ owned ih => exact { ih with owned }

/-- The address of a slot; the first one is at an aligned place behind the header. -/
def slotAddress (layout : SlotLayout) (slot : Slot) : ℕ :=
  alignUpRecord (slot.page + headerBytes) layout.slotAlignment + slot.index * layout.slotBytes

/-- Every slot lies in its page behind the header, and masking its address finds the page. -/
theorem Exact.slotAddress_spec (books : Exact pool live machine) (mem : slot ∈ pool.slots) :
    slot.page + headerBytes ≤ slotAddress pool.layout slot ∧
      slotAddress pool.layout slot + pool.layout.slotBytes ≤ slot.page + pageSize ∧
      slotAddress pool.layout slot / pageSize * pageSize = slot.page := by
  obtain ⟨header, linked, inside⟩ := mem_flatMap.mp (mem_coe.mp mem)
  obtain ⟨⟨exponent, small, power⟩, capacity⟩ := books.fitted
  rw [capacity header linked, freshSlots, mem_reverse] at inside
  obtain ⟨index, bound, rfl⟩ := mem_map.mp inside
  have aligned := (books.owned.manages (mem_coe.mpr (mem_map_of_mem linked))).aligned
  have positive := pool.layout.slotBytes_pos
  have fits := (Nat.le_div_iff_mul_le positive).mp (mem_range.mp bound)
  rw [power, Nat.succ_mul] at fits
  simp only [slotAddress, power]
  unfold alignUpRecord pageSize headerBytes at *
  interval_cases exponent <;> omega

/-- Slots are told apart by their addresses. -/
theorem Exact.slotAddress_injective (books : Exact pool live machine) {other : Slot}
    (mem : slot ∈ pool.slots) (otherMem : other ∈ pool.slots)
    (same : slotAddress pool.layout slot = slotAddress pool.layout other) : slot = other := by
  have page := (books.slotAddress_spec mem).2.2
  rw [same, (books.slotAddress_spec otherMem).2.2] at page
  obtain ⟨_, index⟩ := slot
  obtain ⟨_, otherIndex⟩ := other
  obtain rfl := page
  have index := Nat.eq_of_mul_eq_mul_right pool.layout.slotBytes_pos (Nat.add_left_cancel same)
  exact congrArg _ index

/-- Whatever is allocated and freed while page allocation fails at will, the pools of all
three services account for every slot and every page. -/
theorem reachable_accounted {service : Service} (reachable : Reachable service pool live machine) :
    Accounted service pool live machine := by
  have books := reachable.exact
  obtain ⟨freeDistinct, liveDistinct, apart⟩ := Multiset.nodup_add.mp books.serves.slotsDistinct
  refine ⟨⟨freeDistinct, ?_⟩, ⟨liveDistinct, ?_⟩, books.serves.counted, ?_, books.owned, ?_, ?_⟩
  · intro slot
    rw [← books.tiled, mem_add, mem_coe]
    have never : slot ∈ pool.freeList → slot ∉ live := Multiset.disjoint_left.mp apart
    tauto
  · rw [← books.tiled]
    exact Multiset.le_add_left ..
  · intro slot some
    have next := reachable.allocate.exact.serves.liveDistinct
    rw [some] at next
    exact (Multiset.nodup_cons.mp next).1
  · rcases pool.allocate_cases machine with ⟨_, _, _, result⟩ | ⟨_, _, _, _, _, result⟩ |
      ⟨result, _⟩ | ⟨result, _⟩ <;> rw [result]
    · exact (pageAddresses_setLive pool _ _).ge
    · exact (Multiset.le_cons_self _ _).trans (pageAddresses_setLive (pool.withPage _) _ _).ge
  · rintro slot others rfl
    exact books.serves.returns service machine

/-- The first object record of the shared memory. -/
def firstRecord : Option Slot × RecordPool × Machine :=
  allocate ⟨SharedMemory.objectLayout, [], []⟩ (SharedMemory.boot FileMappings.eightPages).machine

/-- The second one, of the same page. -/
def secondRecord : Option Slot × RecordPool × Machine :=
  allocate firstRecord.2.1 firstRecord.2.2

/-- Two records are allocated and the second one is freed. -/
theorem reachable_accounted_freedRecord : ∃ pool machine,
    SharedMemory.recordPoolFree secondRecord.2.1 secondRecord.2.2 ⟨0x06006000, 31⟩ =
      (pool, machine) ∧ Accounted .sharedMemory pool {⟨0x06006000, 32⟩} machine := by
  have owned := (SharedMemory.invariant_boot FileMappings.eightPages).holds.ownership
  have both : Reachable .sharedMemory secondRecord.2.1
      (secondRecord.1.toList + (firstRecord.1.toList + 0)) secondRecord.2.2 :=
    (Reachable.init _ _ ⟨3, by decide, rfl⟩ owned).allocate.allocate
  have first : firstRecord.1 = some ⟨0x06006000, 32⟩ := by decide +kernel
  have second : secondRecord.1 = some ⟨0x06006000, 31⟩ := by decide +kernel
  rw [first, second] at both
  exact ⟨_, _, Prod.mk.eta.symm, reachable_accounted both.free⟩

end RosKernel.Memory.RecordPool
