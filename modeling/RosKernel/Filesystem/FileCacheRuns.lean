import RosKernel.Filesystem.FileCache
import RosKernel.Library.Runs

/-!
# Threads at the file cache

`vfs_file_cache_populate` makes room, allocates a buffer, reads the file from the backend and
then links the entry. A thread waits in the backend read for the block-I/O worker, and other
threads run meanwhile. The calls that change the backend (write, create, remove) drop the whole
cache when they succeed; they too wait when they read from the device.

The backend is any type of states with the bytes of each file, and the changing calls may do
anything to it.
-/

namespace RosKernel.FileCache

open List

/-! ## Calls as steps -/

/-- A populate that waits in its backend read. -/
structure Populate where
  thread : ℕ
  key : FileKey
  nowMsec : ℕ
  /-- Bytes the worker has delivered. -/
  received : ℕ
  buffer : ℕ → UInt8

/-- A write, create or remove under way. -/
structure Change (Backend : Type) where
  thread : ℕ
  /-- The backend as the call found it. -/
  before : Backend

/-- The cache, the backend and the calls under way. -/
structure CacheState (Backend : Type) where
  backend : Backend
  cache : Cache
  populates : List Populate
  changes : List (Change Backend)

inductive CacheAction (Backend : Type)
  /-- `vfs_read_impl` up to its return or the wait in the backend read. `file` says whether the
  node is a file, and the heap refuses the buffer so many times. -/
  | read (thread : ℕ) (key : FileKey) (file : Bool) (nowMsec refusals : ℕ)
  /-- The worker delivers the next bytes. -/
  | deliver (thread count : ℕ)
  /-- The thread runs again, with all bytes read and the entry allocated or not. -/
  | finish (thread : ℕ) (allocated : Bool)
  /-- The backend read fails or is short. -/
  | abort (thread : ℕ)
  /-- A write, create or remove reaches the backend. -/
  | begin (thread : ℕ)
  /-- What it does to the backend up to its next wait. -/
  | change (thread : ℕ) (next : Backend)
  /-- It returns, with success or with an error. -/
  | return (thread : ℕ) (succeeded : Bool)

/-- `vfs_file_cacheable`. -/
def cacheable (key : FileKey) (file : Bool) : Bool :=
  file ∧ key.sizeBytes ≠ 0 ∧ key.sizeBytes ≤ maxFileBytes

namespace CacheState

variable {Backend : Type}

/-- The thread is in none of the calls. -/
def idle (state : CacheState Backend) (thread : ℕ) : Bool :=
  (state.populates.all fun populate => populate.thread ≠ thread) ∧
    state.changes.all fun change => change.thread ≠ thread

/-- A miss: make room, allocate the buffer and start the read. -/
def startPopulate (state : CacheState Backend) (thread : ℕ) (key : FileKey) (file : Bool)
    (nowMsec refusals : ℕ) : CacheState Backend :=
  if cacheable key file then
    let (fits, roomy) := state.cache.makeRoom key.sizeBytes nowMsec
    if fits then
      let (allocated, cache) := Cache.allocateBytes refusals roomy
      if allocated then
        { state with
          cache := cache
          populates := ⟨thread, key, nowMsec, 0, fun _ => 0⟩ :: state.populates }
      else { state with cache := cache }
    else { state with cache := roomy }
  else state

/-- The last step of `vfs_file_cache_populate`. -/
def linkEntry (state : CacheState Backend) (populate : Populate) : CacheState Backend :=
  { state with
    cache := {
      entries := ⟨populate.key, populate.nowMsec + ttlMsec, populate.nowMsec, populate.buffer⟩ ::
        state.cache.entries
      bytes := state.cache.bytes + populate.key.sizeBytes } }

/-- Take a populate from the list. -/
def dropPopulate (state : CacheState Backend) (thread : ℕ) : CacheState Backend :=
  { state with populates := state.populates.eraseP fun populate => populate.thread = thread }

/-- Put the next bytes of the file into the buffer. -/
def fetch (fileByte : Backend → FileKey → ℕ → UInt8) (backend : Backend) (count : ℕ)
    (populate : Populate) : Populate :=
  { populate with
    received := populate.received + count
    buffer := fun place =>
      if populate.received ≤ place ∧ place < populate.received + count then
        fileByte backend populate.key place
      else populate.buffer place }

/-- One action; `none` where it cannot be taken. -/
def perform (fileByte : Backend → FileKey → ℕ → UInt8) (state : CacheState Backend) :
    CacheAction Backend → Option (CacheState Backend)
  | .read thread key file nowMsec refusals =>
    if state.idle thread then
      let found := { state with cache := state.cache.find key nowMsec }
      match state.cache.hitIndex key nowMsec with
      | some _ => some found
      | none => some (found.startPopulate thread key file nowMsec refusals)
    else none
  | .deliver thread count =>
    match state.populates.find? fun populate => populate.thread = thread with
    | none => none
    | some populate =>
      if populate.received + count ≤ populate.key.sizeBytes then
        let dropped := state.dropPopulate thread
        some { dropped with
          populates := fetch fileByte state.backend count populate :: dropped.populates }
      else none
  | .finish thread allocated =>
    match state.populates.find? fun populate => populate.thread = thread with
    | none => none
    | some populate =>
      if populate.received = populate.key.sizeBytes then
        let dropped := state.dropPopulate thread
        some (if allocated then dropped.linkEntry populate else dropped)
      else none
  | .abort thread =>
    match state.populates.find? fun populate => populate.thread = thread with
    | none => none
    | some _ => some (state.dropPopulate thread)
  | .begin thread =>
    if state.idle thread then
      some { state with changes := ⟨thread, state.backend⟩ :: state.changes }
    else none
  | .change thread next =>
    if state.changes.any fun change => change.thread = thread then
      some { state with backend := next }
    else none
  | .return thread succeeded =>
    if state.changes.any fun change => change.thread = thread then
      let returned := { state with
        changes := state.changes.eraseP fun change => change.thread = thread }
      some (if succeeded then { returned with cache := .invalidateAll } else returned)
    else none

/-- A run of actions. -/
abbrev performAll (fileByte : Backend → FileKey → ℕ → UInt8) :=
  Runs.performAll (perform fileByte)

/-- Before the first call. -/
def initial (backend : Backend) : CacheState Backend := ⟨backend, .invalidateAll, [], []⟩

/-- The states of runs whose steps meet a condition. -/
abbrev Reachable (fileByte : Backend → FileKey → ℕ → UInt8) :=
  Runs.Reachable (fun state => ∃ backend, state = initial backend) (perform fileByte)

/-! ## Coherence -/

/-- Some bytes are the first bytes of a file. -/
def Reads (fileByte : Backend → FileKey → ℕ → UInt8) (backend : Backend) (key : FileKey)
    (count : ℕ) (data : ℕ → UInt8) : Prop :=
  ∀ place < count, data place = fileByte backend key place

/-- Every entry holds the bytes that a backend has. -/
def Coherent (fileByte : Backend → FileKey → ℕ → UInt8) (backend : Backend) (cache : Cache) :
    Prop :=
  ∀ entry ∈ cache.entries, Reads fileByte backend entry.key entry.key.sizeBytes entry.data

/-- Bytes of the files being populated. -/
def populating (state : CacheState Backend) : ℕ :=
  (state.populates.map fun populate => populate.key.sizeBytes).sum

/-- What is claimed of the cache. -/
structure Sound (fileByte : Backend → FileKey → ℕ → UInt8) (state : CacheState Backend) :
    Prop where
  coherent : state.populates = [] → state.changes = [] → Coherent fileByte state.backend state.cache
  accounted : state.cache.Accounted
  withinLimit : state.cache.total ≤ maxBytes

/-- The conditions on a step: a populate starts with no change under way, and beside other
populates only if all of it fits; a change starts alone; and a change that fails leaves the
bytes of the cached files as it found them. -/
def Orderly (fileByte : Backend → FileKey → ℕ → UInt8) (state : CacheState Backend) :
    CacheAction Backend → Prop
  | .read _ key _ nowMsec _ =>
    state.cache.hitIndex key nowMsec = none →
      state.changes = [] ∧
        (state.populates = [] ∨ state.cache.bytes + state.populating + key.sizeBytes ≤ maxBytes)
  | .begin _ => state.populates = [] ∧ state.changes = []
  | .return thread succeeded =>
    succeeded = false → ∀ change ∈ state.changes, change.thread = thread →
      ∀ entry ∈ state.cache.entries, ∀ place < entry.key.sizeBytes,
        fileByte state.backend entry.key place = fileByte change.before entry.key place
  | _ => True

variable {fileByte : Backend → FileKey → ℕ → UInt8} {state next : CacheState Backend}

variable {backend : Backend}

theorem Coherent.shrinks {before after : Cache}
    (coherent : Coherent fileByte backend before) (shrinks : before.Shrinks after) :
    Coherent fileByte backend after := by
  intro entry mem
  obtain ⟨old, oldMem, key, data⟩ := shrinks.entries entry mem
  rw [key, data]
  exact coherent old oldMem

/-- What every step under the conditions keeps. While a change is under way, the entries are
those of the backend it has found. -/
structure Invariant (fileByte : Backend → FileKey → ℕ → UInt8) (state : CacheState Backend) :
    Prop where
  accounted : state.cache.Accounted
  room : state.cache.bytes + state.populating ≤ maxBytes
  populates : ∀ populate ∈ state.populates,
    Reads fileByte state.backend populate.key populate.received populate.buffer
  coherent : (state.changes = [] ∧ Coherent fileByte state.backend state.cache) ∨
    ∃ change, state.changes = [change] ∧ state.populates = [] ∧
      Coherent fileByte change.before state.cache

theorem Invariant.coherent_of_quiet (holds : state.Invariant fileByte)
    (quiet : state.changes = []) : Coherent fileByte state.backend state.cache := by
  rcases holds.coherent with ⟨_, coherent⟩ | ⟨_, busy, _⟩
  · exact coherent
  · cases quiet.symm.trans busy

theorem Invariant.sound (holds : state.Invariant fileByte) : state.Sound fileByte := by
  refine ⟨fun _ quiet => holds.coherent_of_quiet quiet, holds.accounted, ?_⟩
  rw [← holds.accounted]
  exact Nat.le_trans (Nat.le_add_right _ _) holds.room

theorem Invariant.initial (backend : Backend) :
    (CacheState.initial backend).Invariant fileByte := by
  refine ⟨rfl, Nat.zero_le _, ?_, .inl ⟨rfl, ?_⟩⟩
  · intro _ mem
    cases mem
  · intro _ mem
    cases mem

/-- Entries may leave the cache. -/
theorem Invariant.shrinks (holds : state.Invariant fileByte) {cache : Cache}
    (shrinks : state.cache.Shrinks cache) :
    ({ state with cache := cache } : CacheState Backend).Invariant fileByte := by
  refine ⟨shrinks.accounted holds.accounted, ?_, holds.populates, ?_⟩
  · exact Nat.le_trans (Nat.add_le_add_right shrinks.bytes_le _) holds.room
  · rcases holds.coherent with ⟨quiet, coherent⟩ | ⟨change, busy, none, coherent⟩
    · exact .inl ⟨quiet, coherent.shrinks shrinks⟩
    · exact .inr ⟨change, busy, none, coherent.shrinks shrinks⟩

variable {thread nowMsec : ℕ} {key : FileKey}

/-- A populate that fits enters the list. -/
theorem Invariant.enter (holds : state.Invariant fileByte) (quiet : state.changes = [])
    (room : state.cache.bytes + state.populating + key.sizeBytes ≤ maxBytes) :
    ({ state with populates := ⟨thread, key, nowMsec, 0, fun _ => 0⟩ :: state.populates } :
      CacheState Backend).Invariant fileByte := by
  refine ⟨holds.accounted, ?_, ?_, .inl ⟨quiet, holds.coherent_of_quiet quiet⟩⟩
  · simp only [populating, map_cons, sum_cons] at room ⊢
    omega
  · refine forall_mem_cons.mpr ⟨?_, holds.populates⟩
    intro _ below
    cases below

theorem Invariant.startPopulate (holds : state.Invariant fileByte)
    {file : Bool} {refusals : ℕ} (quiet : state.changes = []) (alone : state.populates = [] ∨
      state.cache.bytes + state.populating + key.sizeBytes ≤ maxBytes) :
    (state.startPopulate thread key file nowMsec refusals).Invariant fileByte := by
  unfold CacheState.startPopulate
  split
  · simp only
    have roomy := state.cache.shrinks_makeRoom key.sizeBytes nowMsec
    split
    · rename_i fits
      have kept := Cache.shrinks_allocateBytes refusals
        (state.cache.makeRoom key.sizeBytes nowMsec).2
      have within := Cache.makeRoom_fits fits
      split
      · apply (holds.shrinks (roomy.trans kept)).enter quiet
        -- beside other populates the budget was free before; alone, making room has freed it
        rcases alone with none | free
        · have nothing : state.populating = 0 := by rw [populating, none]; rfl
          have less := kept.bytes_le
          simp only [populating] at nothing ⊢
          omega
        · have less := (roomy.trans kept).bytes_le
          simp only [populating] at free ⊢
          omega
      · exact holds.shrinks (roomy.trans kept)
    · exact holds.shrinks roomy
  · exact holds

theorem Invariant.read (holds : state.Invariant fileByte) {file : Bool} {refusals : ℕ}
    (orderly : state.Orderly fileByte (.read thread key file nowMsec refusals))
    (stepped : state.perform fileByte (.read thread key file nowMsec refusals) = some next) :
    next.Invariant fileByte := by
  have shrinks := state.cache.shrinks_find key nowMsec
  simp only [perform] at stepped
  split at stepped
  · split at stepped
    · cases stepped
      exact holds.shrinks shrinks
    · rename_i miss
      cases stepped
      obtain ⟨quiet, alone⟩ := orderly miss
      apply (holds.shrinks shrinks).startPopulate quiet
      rcases alone with none | free
      · exact .inl none
      · have less := shrinks.bytes_le
        apply Or.inr
        simp only [populating] at free ⊢
        omega
  · cases stepped

variable {populate : Populate}

/-- A waiting populate, and the list without it. -/
theorem find_populate
    (found : (state.populates.find? fun populate => populate.thread = thread) = some populate) :
    populate ∈ state.populates ∧
      state.populating = (state.dropPopulate thread).populating + populate.key.sizeBytes ∧
      ∀ other ∈ (state.dropPopulate thread).populates, other ∈ state.populates := by
  refine ⟨mem_of_find?_eq_some found, ?_, fun _ => mem_of_mem_eraseP⟩
  obtain ⟨hit, front, back, split, missed⟩ := List.find?_eq_some_iff_append.mp found
  have dropped : (state.dropPopulate thread).populates = front ++ back := by
    have erased : (front ++ populate :: back).eraseP (fun populate => populate.thread = thread) =
        front ++ back := by
      rw [eraseP_append_right _ (by simpa using missed)]
      exact congrArg (front ++ ·) (eraseP_cons_of_pos hit)
    rw [← erased, ← split, CacheState.dropPopulate]
  rw [populating, populating, dropped, split]
  simp only [map_append, map_cons, sum_append, sum_cons]
  omega

theorem Invariant.quiet_of_populate (holds : state.Invariant fileByte)
    (mem : populate ∈ state.populates) :
    state.changes = [] ∧ Coherent fileByte state.backend state.cache := by
  rcases holds.coherent with coherent | ⟨_, _, none, _⟩
  · exact coherent
  · rw [none] at mem
    cases mem

/-- A populate leaves the list. -/
theorem Invariant.dropPopulate (holds : state.Invariant fileByte)
    (found : (state.populates.find? fun populate => populate.thread = thread) = some populate) :
    (state.dropPopulate thread).Invariant fileByte := by
  obtain ⟨mem, _, remaining⟩ := find_populate found
  refine ⟨holds.accounted, ?_, ?_, ?_⟩
  · have room := holds.room
    change state.cache.bytes + _ ≤ _
    omega
  · intro other otherMem
    exact holds.populates other (remaining other otherMem)
  · exact .inl (holds.quiet_of_populate mem)

theorem reads_fetch (count : ℕ)
    (reads : Reads fileByte backend populate.key populate.received populate.buffer) :
    Reads fileByte backend (fetch fileByte backend count populate).key
      (fetch fileByte backend count populate).received
      (fetch fileByte backend count populate).buffer := by
  intro place below
  simp only [fetch] at below ⊢
  split
  · rfl
  · exact reads place (by omega)

section

variable (holds : state.Invariant fileByte)
include holds

theorem Invariant.deliver {count : ℕ}
    (stepped : state.perform fileByte (.deliver thread count) = some next) :
    next.Invariant fileByte := by
  simp only [perform] at stepped
  split at stepped
  · cases stepped
  · rename_i populate found
    split at stepped
    · cases stepped
      have dropped := holds.dropPopulate found
      obtain ⟨mem, sum, _⟩ := find_populate found
      refine ⟨dropped.accounted, ?_, ?_, .inl (holds.quiet_of_populate mem)⟩
      · have room := holds.room
        simp only [populating, map_cons, sum_cons] at sum ⊢
        change state.cache.bytes + (populate.key.sizeBytes + _) ≤ _
        simp only [populating] at room
        omega
      · exact forall_mem_cons.mpr
          ⟨reads_fetch count (holds.populates populate mem), dropped.populates⟩
    · cases stepped

theorem Invariant.finish {allocated : Bool}
    (stepped : state.perform fileByte (.finish thread allocated) = some next) :
    next.Invariant fileByte := by
  simp only [perform] at stepped
  split at stepped
  · cases stepped
  · rename_i populate found
    split at stepped
    · rename_i complete
      cases stepped
      have dropped := holds.dropPopulate found
      obtain ⟨mem, _, _⟩ := find_populate found
      obtain ⟨quiet, coherent⟩ := holds.quiet_of_populate mem
      split
      · have accounted := holds.accounted
        have room := holds.room
        refine ⟨?_, ?_, dropped.populates, .inl ⟨quiet, ?_⟩⟩
        · simp only [Cache.Accounted, Cache.total] at accounted
          simp only [Cache.Accounted, Cache.total, linkEntry, CacheState.dropPopulate,
            map_cons, sum_cons]
          omega
        · change state.cache.bytes + populate.key.sizeBytes +
            (state.dropPopulate thread).populating ≤ _
          omega
        · refine forall_mem_cons.mpr ⟨?_, coherent⟩
          have reads := holds.populates populate mem
          rwa [complete] at reads
      · exact dropped
    · cases stepped

theorem Invariant.abort (stepped : state.perform fileByte (.abort thread) = some next) :
    next.Invariant fileByte := by
  simp only [perform] at stepped
  split at stepped
  · cases stepped
  · rename_i populate found
    cases stepped
    exact holds.dropPopulate found

theorem Invariant.begin (orderly : state.Orderly fileByte (.begin thread))
    (stepped : state.perform fileByte (.begin thread) = some next) :
    next.Invariant fileByte := by
  obtain ⟨noPopulate, quiet⟩ := orderly
  simp only [perform] at stepped
  split at stepped
  · cases stepped
    refine { holds with coherent := .inr ⟨⟨thread, state.backend⟩, ?_, noPopulate,
      holds.coherent_of_quiet quiet⟩ }
    rw [quiet]
  · cases stepped

theorem Invariant.change (stepped : state.perform fileByte (.change thread backend) = some next) :
    next.Invariant fileByte := by
  simp only [perform] at stepped
  split at stepped
  · rename_i changing
    cases stepped
    rcases holds.coherent with ⟨quiet, _⟩ | ⟨change, busy, none, coherent⟩
    · rw [quiet] at changing
      cases changing
    · refine ⟨holds.accounted, holds.room, ?_, .inr ⟨change, busy, none, coherent⟩⟩
      intro _ mem
      rw [none] at mem
      cases mem
  · cases stepped

theorem Invariant.return {succeeded : Bool}
    (orderly : state.Orderly fileByte (.return thread succeeded))
    (stepped : state.perform fileByte (.return thread succeeded) = some next) :
    next.Invariant fileByte := by
  simp only [perform] at stepped
  split at stepped
  · rename_i changing
    cases stepped
    rcases holds.coherent with ⟨quiet, _⟩ | ⟨change, busy, _, coherent⟩
    · rw [quiet] at changing
      cases changing
    · have own : change.thread = thread := by
        rw [busy] at changing
        simpa using changing
      have returned : (state.changes.eraseP fun change => change.thread = thread) = [] := by
        rw [busy, eraseP_cons_of_pos (by simpa using own)]
      split
      · refine ⟨rfl, ?_, holds.populates, .inl ⟨returned, ?_⟩⟩
        · have room := holds.room
          exact Nat.le_trans (Nat.add_le_add_right (Nat.zero_le _) _) room
        · intro entry mem
          cases mem
      · rename_i failed
        refine { holds with coherent := .inl ⟨returned, ?_⟩ }
        have unchanged := orderly (Bool.eq_false_of_not_eq_true failed) change
          (by rw [busy]; exact .head _) own
        intro entry mem place below
        rw [unchanged entry mem place below]
        exact coherent entry mem place below
  · cases stepped

/-- One step under the conditions. -/
theorem Invariant.step {action : CacheAction Backend} (orderly : state.Orderly fileByte action)
    (stepped : state.perform fileByte action = some next) : next.Invariant fileByte := by
  cases action with
  | read => exact holds.read orderly stepped
  | deliver => exact holds.deliver stepped
  | finish => exact holds.finish stepped
  | abort => exact holds.abort stepped
  | begin => exact holds.begin orderly stepped
  | change => exact holds.change stepped
  | «return» thread succeeded => exact holds.return orderly stepped

end

theorem Reachable.invariant (reachable : Reachable fileByte (Orderly fileByte) state) :
    state.Invariant fileByte := by
  refine Runs.Reachable.invariant reachable ?_ fun _ _ _ holds => holds.step
  rintro _ ⟨backend, rfl⟩
  exact .initial backend

/-- In every run that keeps to the conditions the cache is coherent once all calls have
returned, and accounted for and within its limit all the time. -/
theorem cache_sound (reachable : Reachable fileByte (Orderly fileByte) state) :
    state.Sound fileByte :=
  reachable.invariant.sound

/-! ## Runs -/

/-- A volume with the bytes of each file in one stretch. -/
def diskByte (disk : ℕ → UInt8) (key : FileKey) (place : ℕ) : UInt8 :=
  disk (key.inode * maxFileBytes + place)

/-- Read a whole file through the cache. -/
def readFile (thread : ℕ) (key : FileKey) : List (CacheAction (ℕ → UInt8)) :=
  [.read thread key true 0 0, .deliver thread key.sizeBytes, .finish thread true]

/-- A call that overwrites the volume. -/
def overwrite (thread : ℕ) (byte : UInt8) (succeeded : Bool) :
    List (CacheAction (ℕ → UInt8)) :=
  [.begin thread, .change thread fun _ => byte, .return thread succeeded]

/-- Two threads read a file each, one while the other waits for the backend. -/
theorem cache_sound_twoFiles :
    ∃ state, Reachable diskByte (Orderly diskByte) state ∧ state.cache.entries.length = 2 ∧
      state.Sound diskByte := by
  have fresh : Reachable diskByte (Orderly diskByte) (initial fun _ => 0) := .start ⟨_, rfl⟩
  have started := fresh.step (.read 1 ⟨'C', 3, 1⟩ true 0 0) (fun _ => ⟨rfl, .inl rfl⟩) rfl
  have both := started.step (.read 2 ⟨'C', 4, 1⟩ true 0 0) (fun _ => ⟨rfl, .inr (by decide)⟩) rfl
  have reachable := @Runs.Reachable.performAll _ _ _ _ _ _ _
    [.deliver 2 1, .finish 2 true, .deliver 1 1, .finish 1 true] both (by simp [Orderly]) rfl
  exact ⟨_, reachable, rfl, cache_sound reachable⟩

/-- What the runs below are judged by. -/
def observe (state : CacheState (ℕ → UInt8)) : Bool × Bool × List (FileKey × UInt8) × UInt8 :=
  (state.populates.isEmpty, state.changes.isEmpty,
    state.cache.entries.map (fun entry => (entry.key, entry.data 0)),
    diskByte state.backend ⟨'C', 3, 1⟩ 0)

theorem not_sound_of_observe {state : CacheState (ℕ → UInt8)}
    (observed : state.observe = (true, true, [(⟨'C', 3, 1⟩, 0)], 1)) :
    ¬ state.Sound diskByte := by
  intro sound
  simp only [observe, Prod.mk.injEq, List.isEmpty_iff] at observed
  obtain ⟨noPopulate, noChange, entries, byte⟩ := observed
  obtain ⟨entry, _, split, here, _⟩ := List.map_eq_cons_iff.mp entries
  rw [Prod.mk.injEq] at here
  have mem : entry ∈ state.cache.entries := by
    rw [split]
    exact .head _
  have same := sound.coherent noPopulate noChange entry mem 0 (by rw [here.1]; exact Nat.one_pos)
  rw [here.1, here.2, byte] at same
  exact absurd same (by decide)

/-- A file is overwritten while its old bytes are on the way into the cache; two populates are
admitted to the same free room; and a write that fails half-way keeps the old bytes cached. -/
theorem cache_unsound :
    (∃ state, (CacheState.initial fun _ => 0).performAll diskByte
        ([.read 1 ⟨'C', 3, 1⟩ true 0 0, .deliver 1 1] ++ overwrite 2 1 true ++
          [.finish 1 true]) = some state ∧ ¬ state.Sound diskByte) ∧
    (∃ state, (CacheState.initial fun _ => 0).performAll diskByte
        ((List.range 5).flatMap (fun inode => readFile 1 ⟨'C', inode, maxFileBytes⟩) ++
          [.read 1 ⟨'C', 5, maxFileBytes⟩ true 0 0, .read 2 ⟨'C', 6, maxFileBytes⟩ true 0 0,
            .deliver 1 maxFileBytes, .deliver 2 maxFileBytes, .finish 1 true, .finish 2 true]) =
        some state ∧ ¬ state.Sound diskByte) ∧
    ∃ state, (CacheState.initial fun _ => 0).performAll diskByte
        (readFile 1 ⟨'C', 3, 1⟩ ++ overwrite 2 1 false) = some state ∧
      ¬ state.Sound diskByte := by
  refine ⟨Runs.exists_of_map (by decide +kernel) fun _ => not_sound_of_observe, ?_,
    Runs.exists_of_map (by decide +kernel) fun _ => not_sound_of_observe⟩
  refine @Runs.exists_of_map (CacheState _) _ _ (fun state => state.cache.total)
    (7 * maxFileBytes) _ (by decide +kernel) fun _ total sound => ?_
  have within := sound.withinLimit
  rw [total] at within
  exact absurd within (by decide)

end CacheState

end RosKernel.FileCache
