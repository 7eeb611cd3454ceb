import Mathlib.Algebra.Order.Group.Multiset
import RosKernel.Memory.FileMapping

/-!
# Who owns the pages of a file mapping

The service owns the pages of its two record pools and the backing pages of its
live objects, each once, and shares none of them. Every operation keeps this,
except a `ResizeFileMapping` that really grows an object: it releases the old
page array through the routine that also frees the pages, although the new array
still names them.
-/

namespace RosKernel.Memory

open List

open Multiset (coe_add coe_eq_coe coe_nodup cons_add cons_coe count_pos disjoint_left mem_add
  mem_coe nodup_add)

/-! ## Lists with distinct keys -/

/-- With distinct keys, filtering one key out removes exactly one member. -/
theorem perm_cons_filter_key {α β : Type} [DecidableEq β] {members : List α} {key : α → β}
    (distinct : (members.map key).Nodup) {mem : α} (present : mem ∈ members) :
    members.Perm (mem :: members.filter fun other => key other ≠ key mem) := by
  induction members with
  | nil => cases present
  | cons head rest ih =>
    obtain ⟨notRest, restDistinct⟩ := nodup_cons.mp distinct
    rcases mem_cons.mp present with same | later
    · subst same
      have kept : rest.filter (fun other => key other ≠ key mem) = rest := by
        refine filter_eq_self.mpr ?_
        intro other inRest
        have ne : key other ≠ key mem := by
          intro equal
          exact notRest (equal ▸ mem_map_of_mem inRest)
        simpa using ne
      rw [filter_cons_of_neg (by simp), kept]
    · have ne : key head ≠ key mem := by
        intro equal
        exact notRest (equal ▸ mem_map_of_mem later)
      rw [filter_cons_of_pos (by simpa using ne)]
      exact ((ih restDistinct later).cons head).trans (List.Perm.swap _ _ _)

namespace FileMappings

variable {state : FileMappings} {machine : Machine} {owned : Multiset ℕ}

/-! ## Backing pages -/

theorem alignUpToPage_div_mul (size : ℕ) :
    alignUpToPage size / pageSize * pageSize = alignUpToPage size := by
  unfold alignUpToPage
  split
  · rfl
  · rw [Nat.mul_div_cancel _ (by decide)]

variable {size : ℕ}

theorem alignUpToPage_le (fits : size ≤ l2BlockSize) : alignUpToPage size ≤ l2BlockSize := by
  unfold alignUpToPage
  unfold l2BlockSize pageSize at *
  split <;> omega

variable {pages : List ℕ}

/-- `release_backing_pages` of owned pages returns exactly them. -/
theorem owned_releaseBackingPages (ownership : machine.Owned ((pages : Multiset ℕ) + owned)) :
    (releaseBackingPages pages machine).Owned owned := by
  induction pages generalizing machine with
  | nil => simpa [releaseBackingPages] using ownership
  | cons page _ ih =>
    rw [← cons_coe, cons_add] at ownership
    have nonzero : page ≠ 0 := (ownership.manages (Multiset.mem_cons_self page _)).pos.ne'
    rw [releaseBackingPages, foldl_cons, if_pos nonzero]
    exact ih ownership.freePage

/-- The allocation loop owns the whole array in the end, or nothing of it. -/
theorem owned_fillBackingPages
    (ownership : machine.Owned ((pages : Multiset ℕ) + owned)) (remaining : ℕ) :
    ((fillBackingPages remaining pages machine).1 = none ∧
        (fillBackingPages remaining pages machine).2.Owned owned) ∨
      ∃ added, (fillBackingPages remaining pages machine).1 = some (pages ++ added) ∧
        added.length = remaining ∧
        (fillBackingPages remaining pages machine).2.Owned
          (((pages ++ added : List ℕ) : Multiset ℕ) + owned) := by
  induction remaining generalizing pages machine with
  | zero =>
    refine .inr ⟨[], by simp [fillBackingPages], rfl, ?_⟩
    simpa [fillBackingPages] using ownership
  | succ _ ih =>
    rw [fillBackingPages]
    rcases ownership.allocPage with ⟨zero, unchanged⟩ | ⟨nonzero, _, extended⟩
    · rw [if_pos zero]
      exact .inl ⟨rfl, owned_releaseBackingPages unchanged⟩
    · rw [if_neg nonzero]
      have pushed : machine.allocPage.2.Owned
          (((pages ++ [machine.allocPage.1] : List ℕ) : Multiset ℕ) + owned) := by
        rw [coe_eq_coe.mpr (perm_append_singleton _ pages), ← cons_coe, cons_add]
        exact extended
      rcases ih pushed with failed | ⟨added, result, length, filled⟩
      · exact .inl failed
      · refine .inr ⟨machine.allocPage.1 :: added, ?_, by simp [length], ?_⟩
        · rw [result, append_assoc, singleton_append]
        · rwa [append_assoc, singleton_append] at filled

/-- `allocate_backing` owns the pages it returns and nothing when it fails. -/
theorem owned_allocateBacking (ownership : machine.Owned owned) (size : ℕ) :
    (∃ status, (allocateBacking machine size).1 = .error status ∧
        (allocateBacking machine size).2.Owned owned) ∨
      ∃ pages, (allocateBacking machine size).1 = .ok pages ∧
        pages.length = alignUpToPage size / pageSize ∧ 0 < alignUpToPage size / pageSize ∧
        (allocateBacking machine size).2.Owned ((pages : Multiset ℕ) + owned) := by
  have allocated := ownership.heapAlloc
  rw [allocateBacking]
  split
  · exact .inl ⟨_, rfl, ownership⟩
  rename_i accepted
  push Not at accepted
  rcases call : machine.heapAlloc with ⟨served, after⟩
  rw [call] at allocated
  cases served with
  | false => exact .inl ⟨_, rfl, allocated⟩
  | true =>
    have empty : after.Owned ((([] : List ℕ) : Multiset ℕ) + owned) := by simpa using allocated
    have filling := owned_fillBackingPages empty (alignUpToPage size / pageSize)
    rcases fill : fillBackingPages (alignUpToPage size / pageSize) [] after with ⟨_, _⟩
    rw [fill] at filling
    rcases filling with ⟨failed, released⟩ | ⟨_, some, length, extended⟩
    · subst failed
      simp only [fill]
      exact .inl ⟨_, rfl, released⟩
    · subst some
      simp only [fill]
      exact .inr ⟨_, rfl, length, Nat.pos_of_ne_zero accepted.2.2, extended⟩

theorem owned_mapBackingPagesFrom (ownership : machine.Owned owned)
    (process viewAddress : ℕ) (pages : List ℕ) (pageOffset index count : ℕ) :
    (mapBackingPagesFrom process viewAddress pages pageOffset index count machine).2.Owned
      owned := by
  induction count generalizing machine index with
  | zero => exact ownership
  | succ _ ih =>
    have mapped := ownership.map process
      ⟨viewAddress + (pageOffset + index) * pageSize, pages.getD (pageOffset + index) 0,
        pageSize, viewFlags⟩
    unfold mapBackingPagesFrom
    split
    · rename_i same
      rw [same] at mapped
      exact ih mapped _
    · rename_i same
      rw [same] at mapped
      split
      · exact mapped.unmap _ _ _
      · exact mapped

/-- `map_backing_pages` changes no ownership. -/
theorem owned_mapBackingPages (ownership : machine.Owned owned)
    (process viewAddress : ℕ) (pages : List ℕ) (pageOffset pageCount : ℕ) :
    (mapBackingPages machine process viewAddress pages pageOffset pageCount).2.Owned owned := by
  unfold mapBackingPages
  split
  · exact ownership
  · exact owned_mapBackingPagesFrom ownership _ _ _ _ _ _

/-! ## The invariant -/

/-- Backing pages of the given objects. -/
def backing (objects : List Object) : Multiset ℕ :=
  (objects.flatMap Object.backingPages : List ℕ)

theorem backing_cons (object : Object) (objects : List Object) :
    backing (object :: objects) = (object.backingPages : Multiset ℕ) + backing objects := by
  rfl

theorem backing_perm {objects others : List Object} (perm : objects.Perm others) :
    backing objects = backing others :=
  coe_eq_coe.mpr (perm.flatMap_right _)

variable {object : Object}

theorem mem_backing {objects : List Object} {phys : ℕ}
    (mem : object ∈ objects) (page : phys ∈ object.backingPages) :
    phys ∈ backing objects :=
  mem_coe.mpr (mem_flatMap.mpr ⟨object, mem, page⟩)

/-- The page array, its length and the byte count of an object agree. -/
structure Backed (object : Object) : Prop where
  counted : object.backingPageCount = object.backingPages.length
  sized : object.backingBytes = object.backingPageCount * pageSize
  nonempty : 0 < object.backingPageCount

/-- What the registry looks like between two operations. -/
structure Invariant (state : FileMappings) : Prop where
  owned : state.machine.Owned
    (state.objectPool.pageAddresses + (state.attachmentPool.pageAddresses + backing state.objects))
  objectsServed : state.objectPool.Serves (state.objects.map Object.record : List Slot)
  attachmentsServed :
    state.attachmentPool.Serves (state.attachments.map Attachment.record : List Slot)
  backed : ∀ object ∈ state.objects, Backed object
  attached : ∀ attachment ∈ state.attachments, ∃ object ∈ state.objects,
    object.record = attachment.object
  attachmentCounts : ∀ object ∈ state.objects, object.attachmentCount =
    state.attachments.countP fun attachment => attachment.object = object.record

/-- A step that only touches memory keeps the invariant when it keeps ownership. -/
theorem Invariant.withMachine (inv : state.Invariant) (ownership : machine.Owned
      (state.objectPool.pageAddresses +
        (state.attachmentPool.pageAddresses + backing state.objects))) :
    ({ state with machine := machine } : FileMappings).Invariant :=
  { inv with owned := ownership }

section

variable {record : Slot} {update : Object → Object} {attachments : List Attachment}
  {pool : RecordPool}

variable (inv : state.Invariant)
    (keeps : ∀ object, (update object).record = object.record ∧
      (update object).backingPages = object.backingPages ∧
      (update object).backingPageCount = object.backingPageCount ∧
      (update object).backingBytes = object.backingBytes)
include inv keeps

/-- Rewriting the counts or the size of an object, with views that fit the new counts, keeps the
invariant. -/
theorem Invariant.relink
    (served : pool.Serves (attachments.map Attachment.record : List Slot))
    (ownership : machine.Owned
      (state.objectPool.pageAddresses + (pool.pageAddresses + backing state.objects)))
    (attached : ∀ attachment ∈ attachments, ∃ object ∈ state.objects,
      object.record = attachment.object) (counts : ∀ object ∈ state.objects,
      (if object.record = record then update object else object).attachmentCount =
        attachments.countP fun attachment => attachment.object = object.record) :
    (({ state with attachments, attachmentPool := pool, machine } : FileMappings).modifyObject
      record update).Invariant := by
  have rewritten (object : Object) :
      (if object.record = record then update object else object).record = object.record ∧
      (if object.record = record then update object else object).backingPages =
        object.backingPages ∧
      (Backed object → Backed (if object.record = record then update object else object)) := by
    obtain ⟨record, pages, count, bytes⟩ := keeps object
    split
    · exact ⟨record, pages, fun backed => ⟨by rw [count, pages]; exact backed.counted,
        by rw [bytes, count]; exact backed.sized, by rw [count]; exact backed.nonempty⟩⟩
    · exact ⟨rfl, rfl, id⟩
  refine ⟨?_, ?_, served, ?_, fun attachment linked => ?_, ?_⟩
  · rw [modifyObject, backing, flatMap_map, flatMap_congr fun object _ => (rewritten object).2.1]
    exact ownership
  · simp only [modifyObject, map_map, Function.comp_def, (rewritten _).1]
    exact inv.objectsServed
  · exact forall_mem_map.mpr fun object mem => (rewritten object).2.2 (inv.backed object mem)
  · obtain ⟨object, mem, points⟩ := attached attachment linked
    exact ⟨_, mem_map_of_mem mem, (rewritten object).1.trans points⟩
  · refine forall_mem_map.mpr fun object mem => ?_
    rw [(rewritten object).1]
    exact counts object mem

/-- Changes to handle counts and sizes keep the invariant. -/
theorem Invariant.modifyObject
    (counted : ∀ object, (update object).attachmentCount = object.attachmentCount) :
    (state.modifyObject record update).Invariant := by
  refine inv.relink keeps inv.attachmentsServed inv.owned inv.attached fun object mem => ?_
  rw [← inv.attachmentCounts object mem]
  split
  · exact counted object
  · rfl

end

/-! ## Releasing objects and views -/

/-- `release_object_if_unused` returns the object's pages with the object. -/
theorem Invariant.releaseObjectIfUnused (inv : state.Invariant) (record : Slot) :
    (state.releaseObjectIfUnused record).Invariant := by
  unfold FileMappings.releaseObjectIfUnused
  split
  · exact inv
  rename_i object found
  have mem : object ∈ state.objects := mem_of_find?_eq_some found
  have here : object.record = record := by simpa using List.find?_some found
  split
  · exact inv
  rename_i unused
  push Not at unused
  have distinct : (state.objects.map Object.record).Nodup :=
    coe_nodup.mp inv.objectsServed.liveDistinct
  have split := perm_cons_filter_key distinct mem
  rw [here] at split
  have served := inv.objectsServed
  rw [coe_eq_coe.mpr (split.map _), map_cons, ← cons_coe, here] at served
  have ownership := inv.owned
  rw [backing_perm split, backing_cons, add_left_comm _ (object.backingPages : Multiset ℕ),
    add_left_comm _ (object.backingPages : Multiset ℕ)] at ownership
  have whole : object.backingPages.take object.backingPageCount = object.backingPages := by
    rw [(inv.backed object mem).counted, take_length]
  obtain ⟨objectsServed, owned⟩ := served.free (owned_releaseBackingPages ownership)
  rw [whole]
  refine ⟨owned, objectsServed, inv.attachmentsServed, ?_, ?_, ?_⟩
  · intro other kept
    exact inv.backed other (mem_of_mem_filter kept)
  · intro attachment linked
    obtain ⟨target, targetMember, same⟩ := inv.attached attachment linked
    refine ⟨target, mem_filter.mpr ⟨targetMember, ?_⟩, same⟩
    -- A view of the released object would still be counted.
    have none : state.attachments.countP (fun other => other.object = object.record) = 0 := by
      rw [← inv.attachmentCounts object mem]
      exact unused.2
    have elsewhere := countP_eq_zero.mp none attachment linked
    simp only [decide_eq_true_eq, here] at elsewhere
    simp only [ne_eq, decide_not, Bool.not_eq_eq_eq_not, Bool.not_true, decide_eq_false_iff_not]
    rw [same]
    exact elsewhere
  · intro other kept
    exact inv.attachmentCounts other (mem_of_mem_filter kept)

variable {attachment : Attachment} {pool : RecordPool}

section

variable (inv : state.Invariant) (linked : attachment ∈ state.attachments)
include inv linked

/-- Unlinking one view and lowering its object's count keeps the invariant. -/
theorem Invariant.detach (served : pool.Serves
      ((state.attachments.filter fun other => other.record ≠ attachment.record).map
        Attachment.record : List Slot)) (ownership : machine.Owned
      (state.objectPool.pageAddresses + (pool.pageAddresses + backing state.objects))) :
    (({ state with
        attachments := state.attachments.filter fun other => other.record ≠ attachment.record
        attachmentPool := pool
        machine := machine } : FileMappings).modifyObject attachment.object fun object =>
          { object with attachmentCount := object.attachmentCount - 1 }).Invariant := by
  have distinct : (state.attachments.map Attachment.record).Nodup :=
    coe_nodup.mp inv.attachmentsServed.liveDistinct
  have split := perm_cons_filter_key distinct linked
  refine inv.relink (fun _ => ⟨rfl, rfl, rfl, rfl⟩) served ownership
    (fun other kept => inv.attached other (mem_of_mem_filter kept)) fun object mem => ?_
  have counts := inv.attachmentCounts object mem
  rw [split.countP_eq, countP_cons] at counts
  split
  · rename_i here
    simp only [← here, decide_true, if_true] at counts
    simp only [counts, Nat.add_sub_cancel]
  · rename_i elsewhere
    simpa [Ne.symm elsewhere] using counts

/-- The part of `release_attachment` before the object is looked at. -/
def unlinkAttachment (state : FileMappings) (attachment : Attachment) : FileMappings :=
  let unmapped :=
    if (state.machine.spaces attachment.process).hasRoot then
      (unmap state.machine attachment.process attachment.viewAddress attachment.viewBytes).2
    else
      state.machine
  let pooled := state.attachmentPool.free unmapped attachment.record
  ({ state with
      attachments := state.attachments.filter fun other => other.record ≠ attachment.record
      attachmentPool := pooled.1
      machine := pooled.2 } : FileMappings).modifyObject attachment.object fun object =>
    { object with attachmentCount := object.attachmentCount - 1 }

theorem Invariant.unlinkAttachment : (state.unlinkAttachment attachment).Invariant := by
  have distinct : (state.attachments.map Attachment.record).Nodup :=
    coe_nodup.mp inv.attachmentsServed.liveDistinct
  have split := perm_cons_filter_key distinct linked
  have served := inv.attachmentsServed
  rw [coe_eq_coe.mpr (split.map _), map_cons, ← cons_coe] at served
  have unmapped : (if (state.machine.spaces attachment.process).hasRoot then
      (unmap state.machine attachment.process attachment.viewAddress attachment.viewBytes).2
      else state.machine).Owned
      (state.attachmentPool.pageAddresses +
        (state.objectPool.pageAddresses + backing state.objects)) := by
    rw [add_left_comm]
    split
    · exact inv.owned.unmap _ _ _
    · exact inv.owned
  obtain ⟨attachmentsServed, ownership⟩ := served.free unmapped
  rw [add_left_comm] at ownership
  exact inv.detach linked attachmentsServed ownership

/-- `release_attachment` keeps the invariant. -/
theorem Invariant.releaseAttachment : (state.releaseAttachment attachment).Invariant :=
  (inv.unlinkAttachment linked).releaseObjectIfUnused _

end

/-- Releasing one view unlinks no other view. -/
theorem mem_attachments_releaseAttachment {other : Attachment}
    (linked : other ∈ state.attachments) (ne : other.record ≠ attachment.record) :
    other ∈ (state.releaseAttachment attachment).attachments := by
  have kept : other ∈ state.attachments.filter
      fun other => other.record ≠ attachment.record :=
    mem_filter.mpr ⟨linked, by simpa using ne⟩
  unfold releaseAttachment releaseObjectIfUnused
  dsimp only
  split
  · exact kept
  split
  · exact kept
  · exact kept

section

variable (inv : state.Invariant)
include inv

/-- What the release of a linked view keeps, that of all views of a process keeps. -/
theorem Invariant.releaseProcessMappings {holds : FileMappings → Prop} (process : ℕ)
    (start : holds state) (keeps : ∀ state view, view ∈ state.attachments → holds state →
      holds (state.releaseAttachment view)) : holds (state.releaseProcessMappings process) := by
  have released : ∀ (views : List Attachment) (state : FileMappings),
      (∀ view ∈ views, view ∈ state.attachments) → (views.map Attachment.record).Nodup →
      holds state → holds (views.foldl FileMappings.releaseAttachment state) := by
    intro views
    induction views with
    | nil => exact fun _ _ _ kept => kept
    | cons view _ ih =>
      intro state linked distinct kept
      obtain ⟨notRest, restDistinct⟩ := nodup_cons.mp distinct
      refine ih _ ?_ restDistinct (keeps state view (linked view (.head _)) kept)
      intro other later
      refine mem_attachments_releaseAttachment (linked other (.tail _ later)) ?_
      intro same
      exact notRest (same ▸ mem_map_of_mem later)
  refine released _ state ?_ ?_ start
  · intro _ mem
    exact mem_of_mem_filter mem
  · exact (coe_nodup.mp inv.attachmentsServed.liveDistinct).sublist (filter_sublist.map _)

/-! ## Creating objects and views -/

/-- Linking a new object with its own backing keeps the invariant. -/
theorem Invariant.linkObject {handle : ℕ}
    (served : pool.Serves (object.record ::ₘ (state.objects.map Object.record : List Slot)))
    (ownership : machine.Owned ((object.backingPages : Multiset ℕ) +
      (pool.pageAddresses + (state.attachmentPool.pageAddresses + backing state.objects))))
    (backed : Backed object) (unattached : object.attachmentCount = 0) :
    ({ state with
        objectPool := pool
        machine := machine
        nextHandle := handle
        objects := state.objects ++ [object] } : FileMappings).Invariant := by
  have perm := perm_append_singleton object state.objects
  have fresh : ∀ other ∈ state.objects, other.record ≠ object.record := by
    intro other mem same
    refine (Multiset.nodup_cons.mp served.liveDistinct).1 ?_
    rw [← same]
    exact mem_coe.mpr (mem_map_of_mem mem)
  refine ⟨?_, ?_, inv.attachmentsServed, ?_, ?_, ?_⟩
  · rw [backing_perm perm, backing_cons, add_left_comm _ (object.backingPages : Multiset ℕ),
      add_left_comm _ (object.backingPages : Multiset ℕ)]
    exact ownership
  · rw [coe_eq_coe.mpr (perm.map _), map_cons, ← cons_coe]
    exact served
  · intro other mem
    rcases mem_cons.mp (perm.mem_iff.mp mem) with same | old
    · rw [same]
      exact backed
    · exact inv.backed other old
  · intro attachment mem
    obtain ⟨target, targetMember, same⟩ := inv.attached attachment mem
    exact ⟨target, mem_append_left _ targetMember, same⟩
  · intro other mem
    rcases mem_cons.mp (perm.mem_iff.mp mem) with same | old
    · rw [same, unattached, eq_comm, countP_eq_zero]
      intro attachment linked
      obtain ⟨target, targetMember, points⟩ := inv.attached attachment linked
      simpa [← points] using fresh target targetMember
    · exact inv.attachmentCounts other old

theorem Invariant.createObject (path : List Char) (size : ℕ) :
    (state.createObject path size).2.Invariant := by
  obtain ⟨ownership, outcome⟩ := inv.objectsServed.allocate inv.owned
  unfold FileMappings.createObject
  rcases allocation : state.objectPool.allocate state.machine with ⟨_, _, after⟩
  rw [allocation] at ownership outcome
  rcases outcome with ⟨failed, served⟩ | ⟨_, success, served⟩
  · subst failed
    exact { inv with owned := ownership, objectsServed := served }
  · subst success
    have backed := owned_allocateBacking ownership size
    dsimp only at backed ⊢
    rcases call : allocateBacking after size with ⟨_, _⟩
    rw [call] at backed
    rcases backed with ⟨_, error, kept⟩ | ⟨_, granted, length, positive, extended⟩
    · dsimp only at error
      subst error
      obtain ⟨returned, restored⟩ := served.free kept
      exact { inv with owned := restored, objectsServed := returned }
    · dsimp only at granted
      subst granted
      exact inv.linkObject served extended
        ⟨length.symm, (alignUpToPage_div_mul size).symm, positive⟩ rfl

theorem Invariant.openOrCreate (path : List Char) (size : ℕ) (createWhenMissing : Bool) :
    (state.openOrCreate path size createWhenMissing).2.Invariant := by
  unfold FileMappings.openOrCreate
  split
  · exact inv
  split
  · split
    · exact inv
    split
    · exact inv
    · exact inv.modifyObject (fun _ => ⟨rfl, rfl, rfl, rfl⟩) fun _ => rfl
  · split
    · exact inv
    split
    · exact inv
    · exact inv.createObject path size

/-- Linking a new view and raising its object's count keeps the invariant. -/
theorem Invariant.attach (points : ∃ object ∈ state.objects, object.record = attachment.object)
    (served : pool.Serves
      (attachment.record ::ₘ (state.attachments.map Attachment.record : List Slot)))
    (ownership : machine.Owned
      (state.objectPool.pageAddresses + (pool.pageAddresses + backing state.objects))) :
    (({ state with
        attachmentPool := pool
        machine := machine
        attachments := state.attachments ++ [attachment] } : FileMappings).modifyObject
          attachment.object fun object =>
            { object with attachmentCount := object.attachmentCount + 1 }).Invariant := by
  have perm := perm_append_singleton attachment state.attachments
  refine inv.relink (fun _ => ⟨rfl, rfl, rfl, rfl⟩) ?_ ownership (fun other mem => ?_)
    fun object mem => ?_
  · refine Eq.mp (congrArg pool.Serves ?_) served
    exact coe_eq_coe.mpr (perm.symm.map _)
  · rcases mem_cons.mp (perm.mem_iff.mp mem) with same | old
    · rw [same]
      exact points
    · exact inv.attached other old
  · have counts := inv.attachmentCounts object mem
    split
    · rename_i here
      simp [← here, counts]
    · rename_i elsewhere
      simp [Ne.symm elsewhere, counts]

theorem Invariant.attachView (mem : object ∈ state.objects)
    (process offset mappedBytes slotIndex : ℕ) :
    (state.attachView process object offset mappedBytes slotIndex).2.Invariant := by
  have arranged := inv.owned
  rw [add_left_comm] at arranged
  obtain ⟨ownership, outcome⟩ := inv.attachmentsServed.allocate arranged
  unfold FileMappings.attachView
  rcases allocation : state.attachmentPool.allocate state.machine with ⟨_, _, _⟩
  rw [allocation] at ownership outcome
  rcases outcome with ⟨failed, served⟩ | ⟨_, success, served⟩
  · subst failed
    rw [add_left_comm] at ownership
    exact { inv with owned := ownership, attachmentsServed := served }
  · subst success
    have mapped := owned_mapBackingPages ownership process (slotAddress slotIndex)
      object.backingPages (offset / pageSize) (mappedBytes / pageSize)
    dsimp only at mapped ⊢
    split
    · rename_i same
      rw [same, add_left_comm] at mapped
      exact inv.attach ⟨object, mem, rfl⟩ served mapped
    · rename_i same
      rw [same] at mapped
      obtain ⟨returned, restored⟩ := served.free mapped
      rw [add_left_comm] at restored
      exact { inv with owned := restored, attachmentsServed := returned }

theorem Invariant.mapViewOfFile (process handle offset size : ℕ) :
    (state.mapViewOfFile process handle offset size).2.Invariant := by
  unfold FileMappings.mapViewOfFile
  dsimp only
  split
  · exact inv
  split
  · exact inv
  split
  · exact inv
  split
  · exact inv
  rename_i object found
  split
  · exact inv
  split
  · exact inv
  split
  · exact inv
  split
  · exact inv
  · exact inv.attachView (mem_of_find?_eq_some found) _ _ _ _

theorem Invariant.closeFileMapping (handle : ℕ) : (state.closeFileMapping handle).2.Invariant := by
  unfold FileMappings.closeFileMapping
  split
  · exact inv
  split
  · exact inv
  · refine Invariant.releaseObjectIfUnused ?_ _
    exact inv.modifyObject (fun _ => ⟨rfl, rfl, rfl, rfl⟩) fun _ => rfl

theorem Invariant.unmapViewOfFile (process address : ℕ) :
    (state.unmapViewOfFile process address).2.Invariant := by
  unfold FileMappings.unmapViewOfFile
  split
  · exact inv
  split
  · exact inv
  · rename_i found
    exact inv.releaseAttachment (mem_of_find?_eq_some found)

end

/-! ## Resizing within the backing -/

/-- Whether `resize_backing` accepts the size and needs pages the object lacks. -/
def growsBacking (object : Object) (size : ℕ) : Bool :=
  object.requestedSize ≤ size ∧ alignUpToPage size ≤ fileMappingViewSlotBytes ∧
    object.backingBytes < alignUpToPage size

/-- The step does not grow the backing of a mapping: a resize stays within the
pages the object has, is rejected, or gets no memory for the new page array. -/
def backingKept (state : FileMappings) (operation : Operation) (calls : List HeapCall) : Bool :=
  match operation with
  | .resizeFileMapping handle size =>
    match state.findObjectByHandle handle with
    | none => true
    | some object =>
      object.handleCount = 0 || !growsBacking object size || !(calls.head?.any HeapCall.served)
  | _ => true

theorem Invariant.resizeFileMapping (inv : state.Invariant) (handle size : ℕ)
    (kept : backingKept state (.resizeFileMapping handle size) state.machine.heapCalls = true) :
    (state.resizeFileMapping handle size).2.Invariant := by
  unfold FileMappings.resizeFileMapping
  split
  · exact inv
  cases found : state.findObjectByHandle handle with
  | none => exact inv
  | some =>
    dsimp only
    split
    · exact inv
    rename_i openHandle
    rw [backingKept, found] at kept
    simp only [openHandle, decide_false, Bool.false_or, Bool.or_eq_true, Bool.not_eq_true'] at kept
    unfold resizeBacking
    dsimp only
    split
    · exact inv
    split
    · exact inv
    rename_i notSmaller
    split
    · exact inv
    split
    · exact inv
    rename_i fits
    split
    · exact inv.modifyObject (fun _ => ⟨rfl, rfl, rfl, rfl⟩) fun _ => rfl
    rename_i larger
    have refusedHead : state.machine.heapCalls.head?.any HeapCall.served = false := by
      refine kept.resolve_left ?_
      simp [growsBacking, Nat.le_of_not_lt notSmaller, Nat.le_of_not_lt fits,
        Nat.lt_of_not_le larger]
    have allocated := inv.owned.heapAlloc
    have refused : state.machine.heapAlloc.1 = false := by
      rw [Machine.heapAlloc]
      cases calls : state.machine.heapCalls with
      | nil => rfl
      | cons =>
        rw [calls] at refusedHead
        simpa using refusedHead
    rcases call : state.machine.heapAlloc with ⟨_, _⟩
    rw [call] at allocated refused
    subst refused
    exact inv.withMachine allocated

/-! ## The rest of the kernel -/

section

variable (ownership : machine.Owned owned)
include ownership

theorem owned_otherAllocPage : (otherAllocPage machine).Owned owned := by
  unfold otherAllocPage
  rcases ownership.sound.allocPage with ⟨zero, unchanged⟩ | ⟨nonzero, fresh, sound⟩
  · rw [if_pos (show machine.allocPage.1 = 0 from zero)]
    exact ownership.congr unchanged rfl
  · rw [if_neg (show ¬machine.allocPage.1 = 0 from nonzero)]
    have taken := ownership.otherTake [machine.allocPage.1] (by
      intro _ mem held
      rw [mem_singleton.mp mem] at held
      exact fresh (mem_add.mpr (.inl held))) sound
    exact taken.congr rfl rfl

theorem owned_otherFreePage (phys : ℕ) : (otherFreePage machine phys).Owned owned := by
  unfold otherFreePage
  split
  · rename_i mem
    refine ownership.otherGive (fun _ kept => mem_of_mem_erase kept) ?_
    have sound := ownership.sound
    rw [coe_eq_coe.mpr (perm_cons_erase mem), ← cons_coe, Multiset.add_cons] at sound
    exact sound.freePage
  · exact ownership

theorem owned_otherRetainPage (phys : ℕ) : (otherRetainPage machine phys).Owned owned := by
  unfold otherRetainPage
  split
  · rename_i mem
    have sound := ownership.sound.retainPage (mem_add.mpr (.inr (mem_coe.mpr mem)))
    have taken := ownership.otherTake [phys] (by
      intro _ same held
      rw [mem_singleton.mp same] at held
      exact ownership.apart phys held mem) sound
    exact taken.congr rfl rfl
  · exact ownership

theorem owned_otherReleasePages (base pageCount : ℕ) :
    (otherReleasePages machine base pageCount).Owned owned := by
  unfold otherReleasePages
  dsimp only
  split
  · rename_i heldOnce
    have once : ∀ phys ∈ PhysicalMemory.runPages base pageCount,
        machine.otherPages.count phys = 1 := by
      simpa using heldOnce
    have subset : (PhysicalMemory.runPages base pageCount).Subperm machine.otherPages := by
      refine subperm_of_subset (PhysicalMemory.runPages_nodup base pageCount) ?_
      intro phys mem
      exact count_pos_iff.mp (by rw [once phys mem]; exact Nat.one_pos)
    have split : (machine.otherPages : Multiset ℕ) =
        (PhysicalMemory.runPages base pageCount : Multiset ℕ) +
          (machine.otherPages.diff (PhysicalMemory.runPages base pageCount) : List ℕ) :=
      coe_eq_coe.mpr (subperm_append_diff_self_of_count_le
        (subperm_ext_iff.mp subset)).symm
    have sound := ownership.sound
    rw [split, add_left_comm] at sound
    refine ownership.otherGive (fun _ kept => diff_subset _ _ kept) ?_
    refine sound.releaseContiguousPages ?_
    intro phys mem again
    have present : phys ∈ machine.otherPages :=
      count_pos_iff.mp (by rw [once phys mem]; exact Nat.one_pos)
    rcases mem_add.mp again with service | twice
    · exact ownership.apart phys service present
    · -- A second reference would be counted.
      have counted : (machine.otherPages : Multiset ℕ).count phys = 1 := by
        rw [Multiset.coe_count]
        exact once phys mem
      rw [split, Multiset.count_add] at counted
      have first := count_pos.mpr (mem_coe.mpr mem)
      have second := count_pos.mpr twice
      omega
  · exact ownership

end

/-! ## Runs -/

theorem invariant_boot (pool : PagePool) : (boot pool).Invariant := by
  refine ⟨⟨?_, by simp [boot, RecordPool.pageAddresses, backing], ?_⟩,
    ⟨by simp [boot, RecordPool.pageAddresses], by simp [boot], by simp [boot], by simp [boot]⟩,
    ⟨by simp [boot, RecordPool.pageAddresses], by simp [boot], by simp [boot], by simp [boot]⟩,
    by simp [boot], by simp [boot], by simp [boot]⟩
  · simpa [boot, RecordPool.pageAddresses, backing] using PhysicalMemory.sound_init pool
  · simp [boot, RecordPool.pageAddresses, backing]

theorem Invariant.withHeapCalls (inv : state.Invariant) (calls : List HeapCall) :
    (state.withHeapCalls calls).Invariant :=
  inv.withMachine (inv.owned.congr rfl rfl)

/-- Every step that keeps the backing of the mappings keeps the invariant. -/
theorem Invariant.perform (inv : state.Invariant) (operation : Operation)
    (kept : backingKept state operation state.machine.heapCalls = true) :
    (state.perform operation).Invariant := by
  cases operation with
  | createFileMapping path size => exact inv.openOrCreate path size true
  | openFileMapping path size => exact inv.openOrCreate path size false
  | closeFileMapping handle => exact inv.closeFileMapping handle
  | mapViewOfFile process handle offset size => exact inv.mapViewOfFile process handle offset size
  | resizeFileMapping handle size => exact inv.resizeFileMapping handle size kept
  | unmapViewOfFile process address => exact inv.unmapViewOfFile process address
  | releaseProcessMappings process =>
    exact inv.releaseProcessMappings process inv fun _ _ linked inv => inv.releaseAttachment linked
  | otherAllocPage => exact inv.withMachine (owned_otherAllocPage inv.owned)
  | otherFreePage phys => exact inv.withMachine (owned_otherFreePage inv.owned phys)
  | otherRetainPage phys => exact inv.withMachine (owned_otherRetainPage inv.owned phys)
  | otherReservePages pageCount => exact inv.withMachine (inv.owned.heapAppendGrowth pageCount true)
  | otherReleasePages base pageCount =>
    exact inv.withMachine (owned_otherReleasePages inv.owned base pageCount)
  | otherSpace => exact inv.withMachine (inv.owned.congr rfl rfl)

/-- The invariant holds along every run that keeps the backing of the mappings. -/
theorem Reachable.ownershipInvariant {pool : PagePool}
    (reached : Reachable (fun state operation calls => backingKept state operation calls = true)
      pool state) :
    state.Invariant := by
  induction reached with
  | start isBoot => exact isBoot ▸ invariant_boot pool
  | step _ call kept stepped inv =>
    cases stepped
    exact (inv.withHeapCalls call.2).perform call.1 kept

/-! ## The backing pages of live objects -/

/-- The page entries of an object. -/
def pageEntries (object : Object) : List ℕ :=
  object.backingPages.take object.backingPageCount

/-- Every page entry of a live object is allocated and off the free list. -/
def BackingAllocated (state : FileMappings) : Prop :=
  ∀ object ∈ state.objects, ∀ phys ∈ pageEntries object,
    1 ≤ state.machine.physical.pageRefcount phys ∧ phys ∉ state.machine.physical.freePages

/-- No page belongs to two live objects, or to an object and another owner. -/
def BackingExclusive (state : FileMappings) : Prop :=
  (state.objects.flatMap pageEntries).Nodup ∧
    ∀ object ∈ state.objects, ∀ phys ∈ pageEntries object,
      phys ∉ state.machine.otherPages ∧ phys ∉ state.objectPool.pageAddresses ∧
        phys ∉ state.attachmentPool.pageAddresses

theorem Invariant.pageEntries_eq (inv : state.Invariant)
    (mem : object ∈ state.objects) : pageEntries object = object.backingPages := by
  rw [pageEntries, (inv.backed object mem).counted, take_length]

theorem Invariant.backingAllocated (inv : state.Invariant) : BackingAllocated state := by
  intro _ mem phys page
  rw [inv.pageEntries_eq mem] at page
  have held : phys ∈ state.objectPool.pageAddresses +
      (state.attachmentPool.pageAddresses + backing state.objects) :=
    mem_add.mpr (.inr (mem_add.mpr (.inr (mem_backing mem page))))
  exact ⟨inv.owned.refcount_pos held, inv.owned.not_mem_freePages held⟩

theorem Invariant.backingExclusive (inv : state.Invariant) : BackingExclusive state := by
  obtain ⟨_, rest, apartObjects⟩ := nodup_add.mp inv.owned.distinct
  obtain ⟨_, distinct, apartAttachments⟩ := nodup_add.mp rest
  constructor
  · have same : state.objects.flatMap pageEntries = state.objects.flatMap Object.backingPages :=
      flatMap_congr fun object mem => inv.pageEntries_eq mem
    rw [same]
    exact coe_nodup.mp distinct
  · intro _ mem phys page
    rw [inv.pageEntries_eq mem] at page
    have held := mem_backing mem page
    refine ⟨?_, ?_, ?_⟩
    · exact inv.owned.apart phys (mem_add.mpr (.inr (mem_add.mpr (.inr held))))
    · intro pooled
      exact disjoint_left.mp apartObjects pooled (mem_add.mpr (.inr held))
    · intro pooled
      exact disjoint_left.mp apartAttachments pooled held

/-- In every run whose steps keep the backing of the mappings, the backing pages of
every live object stay allocated and belong to that object alone. -/
theorem backing_owned_of_backingKept (pool : PagePool) (state : FileMappings)
    (reached : Reachable (fun state operation calls => backingKept state operation calls = true)
      pool state) :
    BackingAllocated state ∧ BackingExclusive state :=
  ⟨reached.ownershipInvariant.backingAllocated, reached.ownershipInvariant.backingExclusive⟩

/-! ## A pool of eight pages -/

/-- A small page pool for concrete runs. -/
def eightPages : PagePool where
  base := 0x06000000
  numPages := 8
  base_pos := raspi3Pool.base_pos
  base_aligned := raspi3Pool.base_aligned
  numPages_pos := by decide

/-- A heap allocation that succeeds without growing the arena. -/
def servedCall : HeapCall := ⟨0, false, true⟩

/-- The registry with one single-page mapping. -/
def oneMapping : FileMappings :=
  ((boot eightPages).withHeapCalls [servedCall]).perform (.createFileMapping ['m'] 1)

/-- The single-page mapping after a resize to two pages. -/
def grownMapping : FileMappings :=
  (oneMapping.withHeapCalls [servedCall]).perform (.resizeFileMapping 1 8192)

/-- The grown mapping after somebody else allocated one page. -/
def grownMappingShared : FileMappings :=
  (grownMapping.withHeapCalls []).perform .otherAllocPage

/-- A mapping with one page, resized within that page while others allocate. -/
theorem backing_owned_oneMapping :
    let resized := (oneMapping.withHeapCalls []).perform (.resizeFileMapping 1 4000)
    let state := (resized.withHeapCalls []).perform .otherAllocPage
    state.objects.length = 1 ∧ BackingAllocated state ∧ BackingExclusive state := by
  refine ⟨by decide +kernel, backing_owned_of_backingKept eightPages _ ?_⟩
  refine .step ?_ (.otherAllocPage, []) rfl rfl
  refine .step ?_ (.resizeFileMapping 1 4000, []) (by decide +kernel) rfl
  exact .step (.start rfl) (.createFileMapping ['m'] 1, [servedCall]) rfl rfl

/-- Growing a mapping by one page leaves its first page on the free list, and the
next allocation hands that page to somebody else. -/
theorem resize_frees_backing :
    (∃ state, Reachable (fun _ _ _ => True) eightPages state ∧ ¬BackingAllocated state) ∧
      ∃ state, Reachable (fun _ _ _ => True) eightPages state ∧ ¬BackingExclusive state := by
  have grown : Reachable (fun _ _ _ => True) eightPages grownMapping :=
    .step (.step (.start rfl) (.createFileMapping ['m'] 1, [servedCall]) trivial rfl)
      (.resizeFileMapping 1 8192, [servedCall]) trivial rfl
  constructor
  · refine ⟨grownMapping, grown, ?_⟩
    intro allocated
    obtain ⟨object, member, phys, page, zero⟩ : ∃ object ∈ grownMapping.objects,
        ∃ phys ∈ pageEntries object, grownMapping.machine.physical.pageRefcount phys = 0 := by
      decide +kernel
    have counted := (allocated object member phys page).1
    rw [zero] at counted
    exact absurd counted (by decide)
  · refine ⟨grownMappingShared, grown.step (.otherAllocPage, []) trivial rfl, ?_⟩
    intro exclusive
    obtain ⟨object, member, phys, page, other⟩ : ∃ object ∈ grownMappingShared.objects,
        ∃ phys ∈ pageEntries object, phys ∈ grownMappingShared.machine.otherPages := by
      decide +kernel
    exact (exclusive.2 object member phys page).1 other

end FileMappings

end RosKernel.Memory
