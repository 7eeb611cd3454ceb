import Mathlib.Algebra.BigOperators.Group.List.Basic
import Mathlib.Algebra.GroupWithZero.Nat
import Mathlib.Algebra.Order.Group.Nat

/-!
# The file cache of the virtual file system

Whole files that were read through `VirtualFileSystem::read` stay in a list of cache entries
(`vfs.cpp`). This module has the list operations: release of an entry, expiry, lookup, and the
two loops that evict least recently used entries, for the byte budget and for heap memory.
None of them adds an entry or changes the bytes of one. Names drop `vfs_file_cache_`.
-/

namespace RosKernel.FileCache

open List

def ttlMsec : ℕ := 5 * 60 * 1000

def maxBytes : ℕ := 24 * 1024 * 1024

def maxFileBytes : ℕ := 4 * 1024 * 1024

/-- What a cache entry and a node are matched by. -/
structure FileKey where
  volumeLetter : Char
  inode : ℕ
  sizeBytes : ℕ
  deriving DecidableEq

/-- `VfsFileCacheEntry`. -/
structure Entry where
  key : FileKey
  expiresAtMsec : ℕ
  lastUsedMsec : ℕ
  data : ℕ → UInt8

/-- `g_vfs_file_cache` and `g_vfs_file_cache_bytes`. -/
structure Cache where
  entries : List Entry
  bytes : ℕ

namespace Cache

/-- `vfs_file_cache_clear_entry`. The subtraction stops at zero, as the source's does. -/
def clearEntry (cache : Cache) (index : ℕ) : Cache :=
  match cache.entries[index]? with
  | none => cache
  | some entry => ⟨cache.entries.eraseIdx index, cache.bytes - entry.key.sizeBytes⟩

def invalidateAll : Cache := ⟨[], 0⟩

/-- The walk of `vfs_file_cache_prune_expired`. -/
def pruneEntries (nowMsec : ℕ) : List Entry → ℕ → Cache
  | [], bytes => ⟨[], bytes⟩
  | entry :: rest, bytes =>
    if nowMsec < entry.expiresAtMsec then
      let pruned := pruneEntries nowMsec rest bytes
      ⟨entry :: pruned.entries, pruned.bytes⟩
    else pruneEntries nowMsec rest (bytes - entry.key.sizeBytes)

def pruneExpired (cache : Cache) (nowMsec : ℕ) : Cache :=
  pruneEntries nowMsec cache.entries cache.bytes

/-- The place of the entry `vfs_file_cache_find` returns, after pruning. -/
def hitIndex (cache : Cache) (key : FileKey) (nowMsec : ℕ) : Option ℕ :=
  (cache.pruneExpired nowMsec).entries.findIdx? fun entry => entry.key = key

/-- `vfs_file_cache_find`, with the entry's times renewed on a hit. -/
def find (cache : Cache) (key : FileKey) (nowMsec : ℕ) : Cache :=
  let pruned := cache.pruneExpired nowMsec
  match cache.hitIndex key nowMsec with
  | none => pruned
  | some index =>
    { pruned with
      entries := pruned.entries.modify index fun entry =>
        { entry with lastUsedMsec := nowMsec, expiresAtMsec := nowMsec + ttlMsec } }

/-- `vfs_file_cache_find_lru`: the first of the least recently used entries. -/
def lruIndex : List Entry → Option ℕ
  | [] => none
  | entry :: rest =>
    match lruIndex rest with
    | none => some 0
    | some index =>
      match rest[index]? with
      | none => some 0
      | some best => if best.lastUsedMsec < entry.lastUsedMsec then some (index + 1) else some 0

/-- The loop of `vfs_file_cache_make_room`; one turn for each entry is enough. -/
def evictFor (requiredBytes : ℕ) : ℕ → Cache → Cache
  | 0, cache => cache
  | turns + 1, cache =>
    if maxBytes < cache.bytes + requiredBytes then
      match lruIndex cache.entries with
      | none => cache
      | some victim => evictFor requiredBytes turns (cache.clearEntry victim)
    else cache

def makeRoom (cache : Cache) (requiredBytes nowMsec : ℕ) : Bool × Cache :=
  let pruned := cache.pruneExpired nowMsec
  let evicted := evictFor requiredBytes pruned.entries.length pruned
  (evicted.bytes + requiredBytes ≤ maxBytes, evicted)

/-- The allocation loop of `vfs_file_cache_populate`, when the heap refuses so many times. -/
def allocateBytes : ℕ → Cache → Bool × Cache
  | 0, cache => (true, cache)
  | refusals + 1, cache =>
    match lruIndex cache.entries with
    | none => (false, cache)
    | some victim => allocateBytes refusals (cache.clearEntry victim)

/-! ## Accounting -/

/-- The sizes of the entries. -/
def total (cache : Cache) : ℕ := (cache.entries.map fun entry => entry.key.sizeBytes).sum

/-- The accounted bytes are the sizes of the entries. -/
def Accounted (cache : Cache) : Prop := cache.bytes = cache.total

/-- Entries may leave and have their times renewed; the accounts follow. -/
structure Shrinks (before after : Cache) : Prop where
  entries : ∀ entry ∈ after.entries, ∃ old ∈ before.entries,
    entry.key = old.key ∧ entry.data = old.data
  bytes_le : after.bytes ≤ before.bytes
  accounted : before.Accounted → after.Accounted

variable (cache : Cache)

namespace Shrinks

theorem refl : Shrinks cache cache :=
  ⟨fun entry mem => ⟨entry, mem, rfl, rfl⟩, Nat.le_refl _, id⟩

theorem trans {first second third : Cache} (left : Shrinks first second)
    (right : Shrinks second third) : Shrinks first third := by
  refine ⟨?_, Nat.le_trans right.bytes_le left.bytes_le, right.accounted ∘ left.accounted⟩
  intro entry mem
  obtain ⟨middle, middleMember, key, data⟩ := right.entries entry mem
  obtain ⟨old, oldMem, oldKey, oldData⟩ := left.entries middle middleMember
  exact ⟨old, oldMem, key.trans oldKey, data.trans oldData⟩

end Shrinks

theorem shrinks_clearEntry (index : ℕ) : cache.Shrinks (cache.clearEntry index) := by
  unfold clearEntry
  split
  · exact .refl cache
  · rename_i entry found
    refine ⟨?_, Nat.sub_le _ _, ?_⟩
    · intro other mem
      exact ⟨other, mem_of_mem_eraseIdx mem, rfl, rfl⟩
    · intro accounted
      obtain ⟨bound, rfl⟩ := List.getElem?_eq_some_iff.mp found
      have sum := add_sum_eraseIdx
        (l := cache.entries.map fun entry => entry.key.sizeBytes) (i := index)
        (by rw [length_map]; exact bound) fun _ _ => AddCommute.all _ _
      rw [getElem_map, eraseIdx_map] at sum
      unfold Accounted total at accounted ⊢
      simp only
      omega

variable {nowMsec : ℕ}

theorem pruneEntries_total {kept bytes : ℕ} {entries : List Entry}
    (accounted : bytes = kept + (entries.map fun entry => entry.key.sizeBytes).sum) :
    (pruneEntries nowMsec entries bytes).bytes =
      kept + (pruneEntries nowMsec entries bytes).total := by
  induction entries generalizing kept bytes with
  | nil => exact accounted
  | cons entry _ ih =>
    rw [map_cons, sum_cons] at accounted
    rw [pruneEntries]
    split
    · have later := @ih (kept + entry.key.sizeBytes) bytes (by omega)
      simp only [total, map_cons, sum_cons] at later ⊢
      omega
    · exact ih (by omega)

theorem pruneEntries_bytes_le (nowMsec : ℕ) (entries : List Entry) (bytes : ℕ) :
    (pruneEntries nowMsec entries bytes).bytes ≤ bytes := by
  induction entries generalizing bytes with
  | nil => exact Nat.le_refl _
  | cons _ _ ih =>
    rw [pruneEntries]
    split
    · exact ih bytes
    · exact Nat.le_trans (ih _) (Nat.sub_le _ _)

theorem mem_pruneEntries {entries : List Entry} {bytes : ℕ} {entry : Entry}
    (mem : entry ∈ (pruneEntries nowMsec entries bytes).entries) : entry ∈ entries := by
  induction entries generalizing bytes with
  | nil => exact mem
  | cons _ _ ih =>
    rw [pruneEntries] at mem
    split at mem
    · rcases mem_cons.mp mem with same | later
      · rw [same]
        exact .head _
      · exact .tail _ (ih later)
    · exact .tail _ (ih mem)

theorem shrinks_pruneExpired (nowMsec : ℕ) : cache.Shrinks (cache.pruneExpired nowMsec) := by
  refine ⟨?_, pruneEntries_bytes_le nowMsec cache.entries cache.bytes, ?_⟩
  · intro entry mem
    exact ⟨entry, mem_pruneEntries mem, rfl, rfl⟩
  · intro accounted
    have counted := @pruneEntries_total nowMsec 0 cache.bytes cache.entries
      (by rw [Nat.zero_add]; exact accounted)
    rwa [Nat.zero_add] at counted

/-- Renewing the times of an entry. -/
theorem shrinks_modify (index : ℕ) {renew : Entry → Entry}
    (key : ∀ entry, (renew entry).key = entry.key)
    (data : ∀ entry, (renew entry).data = entry.data) :
    cache.Shrinks { cache with entries := cache.entries.modify index renew } := by
  refine ⟨?_, Nat.le_refl _, ?_⟩
  · intro entry mem
    obtain ⟨position, found⟩ := mem_iff_getElem?.mp mem
    rw [List.getElem?_modify] at found
    obtain ⟨old, oldFound, renewed⟩ := Option.map_eq_some_iff.mp found
    refine ⟨old, mem_of_getElem? oldFound, ?_⟩
    split at renewed
    · rw [← renewed, key, data]
      exact ⟨rfl, rfl⟩
    · rw [← renewed]
      exact ⟨rfl, rfl⟩
  · intro accounted
    have sizes : (cache.entries.modify index renew).map (fun entry => entry.key.sizeBytes) =
        cache.entries.map fun entry => entry.key.sizeBytes := by
      apply ext_getElem?
      intro position
      rw [List.getElem?_map, List.getElem?_map, List.getElem?_modify]
      cases cache.entries[position]? with
      | none => rfl
      | some =>
        by_cases here : index = position
        · simp [here, key]
        · simp [here]
    unfold Accounted total at accounted ⊢
    rw [sizes]
    exact accounted

theorem shrinks_find (key : FileKey) (nowMsec : ℕ) : cache.Shrinks (cache.find key nowMsec) := by
  have pruned := cache.shrinks_pruneExpired nowMsec
  unfold find
  simp only
  split
  · exact pruned
  · exact pruned.trans (shrinks_modify _ _ (fun _ => rfl) fun _ => rfl)

theorem shrinks_evictFor (requiredBytes turns : ℕ) (cache : Cache) :
    cache.Shrinks (evictFor requiredBytes turns cache) := by
  induction turns generalizing cache with
  | zero => exact .refl cache
  | succ _ ih =>
    rw [evictFor]
    split
    · split
      · exact .refl cache
      · rename_i victim _
        exact (cache.shrinks_clearEntry victim).trans (ih _)
    · exact .refl cache

theorem shrinks_makeRoom (requiredBytes nowMsec : ℕ) :
    cache.Shrinks (cache.makeRoom requiredBytes nowMsec).2 :=
  (cache.shrinks_pruneExpired nowMsec).trans (shrinks_evictFor _ _ _)

theorem makeRoom_fits {cache : Cache} {requiredBytes : ℕ}
    (fits : (cache.makeRoom requiredBytes nowMsec).1 = true) :
    (cache.makeRoom requiredBytes nowMsec).2.bytes + requiredBytes ≤ maxBytes :=
  of_decide_eq_true fits

theorem shrinks_allocateBytes (refusals : ℕ) (cache : Cache) :
    cache.Shrinks (allocateBytes refusals cache).2 := by
  induction refusals generalizing cache with
  | zero => exact .refl cache
  | succ _ ih =>
    rw [allocateBytes]
    split
    · exact .refl cache
    · rename_i victim _
      exact (cache.shrinks_clearEntry victim).trans (ih _)

end Cache

end RosKernel.FileCache
