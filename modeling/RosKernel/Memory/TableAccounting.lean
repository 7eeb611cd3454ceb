import RosKernel.Memory.TableSpace

/-!
# Accounting for level-3 tables

The level-3 tables that are allocated are the ones the level-2 table names, as long as no
block is written over a table descriptor and every range lies in the user half.
-/

namespace RosKernel.Memory.TableSpace

open List Function

variable {space : TableSpace} {table address index : ℕ}

/-- A descriptor of the level-2 table names the table. -/
def Names (space : TableSpace) (table : ℕ) : Prop :=
  ∃ index < tableEntries, space.levelTwo index = .table table

/-- The allocated tables are the named ones, each named once. -/
structure Accounted (space : TableSpace) : Prop where
  distinct : (space.tables ++ space.blocks).Nodup
  nonzero : ∀ table ∈ space.tables, table ≠ 0
  owned : ∀ block ∈ space.translationTables, block ∈ space.blocks
  ownedOnce : space.translationTables.Nodup
  clean : space.misfreed = []
  named : space.hasRoot = true → ∀ table, table ∈ space.tables ↔ space.Names table
  once : space.hasRoot = true → ∀ left < tableEntries, ∀ right < tableEntries, ∀ table,
    space.levelTwo left = .table table → space.levelTwo right = .table table → left = right
  gone : space.hasRoot = false → space.tables = []

/-- The entry is not a table descriptor. -/
def LevelTwoEntry.NotTable (entry : LevelTwoEntry) : Prop :=
  ∀ table, entry ≠ .table table

theorem levelIndex_lt (address shift : ℕ) : levelIndex address shift < tableEntries :=
  Nat.mod_lt _ (by decide)

/-- A user address resolves to an entry of the address space's own table. -/
theorem resolveLevel2Entry_user {place : EntryIndex} (user : address < kernelVaBase)
    (resolved : space.resolveLevel2Entry address = some place) :
    place = ⟨false, levelIndex address 21⟩ ∧ space.hasRoot = true := by
  have low : decide (kernelVaBase ≤ address) = false := decide_eq_false (by omega)
  unfold resolveLevel2Entry at resolved
  simp only [low, Bool.not_false, Bool.true_and] at resolved
  split at resolved
  · cases resolved
  split at resolved
  · cases resolved
    rename_i rooted _
    exact ⟨rfl, by simpa using rooted⟩
  · cases resolved

section

variable (accounted : space.Accounted)
include accounted

theorem Accounted.answers (answers : List HeapAnswer) :
    ({ space with answers } : TableSpace).Accounted :=
  { accounted with }

theorem Accounted.writeLevel3 (value : Option (ℕ × MapFlags)) :
    (space.writeLevel3 table address value).Accounted :=
  { accounted with }

variable (rooted : space.hasRoot = true) (bound : index < tableEntries)
include rooted bound

/-- Writing an entry keeps the accounts if the allocated tables change with it. -/
theorem Accounted.write {value : LevelTwoEntry} {tables : List ℕ}
    {contents : ℕ → ℕ → Option (ℕ × MapFlags)} {answers : List HeapAnswer}
    (distinct : (tables ++ space.blocks).Nodup) (nonzero : ∀ table ∈ tables, table ≠ 0)
    (changed : ∀ table, table ∈ tables ↔
      value = .table table ∨ table ∈ space.tables ∧ space.levelTwo index ≠ .table table)
    (fresh : ∀ table, value = .table table → table ∉ space.tables) :
    (({ space with tables, levelThree := contents, answers } :
      TableSpace).setEntry ⟨false, index⟩ value).Accounted := by
  have entries : ∀ other table,
      Function.update space.levelTwo index value other = .table table ↔
        (other = index ∧ value = .table table) ∨
          (other ≠ index ∧ space.levelTwo other = .table table) := by
    intro other table
    by_cases same : other = index <;> simp [same]
  refine ⟨distinct, nonzero, accounted.owned, accounted.ownedOnce, accounted.clean, ?_, ?_,
    fun noRoot => absurd (rooted.symm.trans noRoot) (by decide)⟩
  · intro _ table
    change table ∈ tables ↔ ∃ other < tableEntries,
      Function.update space.levelTwo index value other = .table table
    rw [changed, accounted.named rooted]
    constructor
    · rintro (new | ⟨⟨other, otherBound, names⟩, spared⟩)
      · exact ⟨index, bound, (entries index table).mpr (.inl ⟨rfl, new⟩)⟩
      · refine ⟨other, otherBound, (entries other table).mpr (.inr ⟨?_, names⟩)⟩
        rintro rfl
        exact spared names
    · rintro ⟨other, otherBound, names⟩
      rcases (entries other table).mp names with ⟨-, new⟩ | ⟨ne, names⟩
      · exact .inl new
      · exact .inr ⟨⟨other, otherBound, names⟩, fun also =>
          ne (accounted.once rooted other otherBound index bound table names also)⟩
  · intro _ left leftBound right rightBound table leftNames rightNames
    have notNamed : value = .table table → ¬ space.Names table := fun new names =>
      fresh table new ((accounted.named rooted table).mpr names)
    rcases (entries left table).mp leftNames with ⟨leftSame, new⟩ | ⟨_, leftNames⟩ <;>
      rcases (entries right table).mp rightNames with ⟨rightSame, new⟩ | ⟨_, rightNames⟩
    · exact leftSame.trans rightSame.symm
    · exact absurd ⟨right, rightBound, rightNames⟩ (notNamed new)
    · exact absurd ⟨left, leftBound, leftNames⟩ (notNamed new)
    · exact accounted.once rooted left leftBound right rightBound table leftNames rightNames

/-- Writing a descriptor that is no table over another one. -/
theorem Accounted.setEntry {value : LevelTwoEntry}
    (old : LevelTwoEntry.NotTable (space.levelTwo index))
    (new : LevelTwoEntry.NotTable value) : (space.setEntry ⟨false, index⟩ value).Accounted :=
  accounted.write rooted bound accounted.distinct accounted.nonzero
    (fun table => by simp [new table, old table]) fun table isTable => absurd isTable (new table)

/-- Naming a fresh table in an entry that was none. -/
theorem Accounted.newTable (old : LevelTwoEntry.NotTable (space.levelTwo index))
    (fresh : table ∉ space.tables ++ space.blocks) (nonzero : table ≠ 0)
    {contents : ℕ → ℕ → Option (ℕ × MapFlags)} {answers : List HeapAnswer} :
    (({ space with tables := table :: space.tables, levelThree := contents, answers } :
      TableSpace).setEntry ⟨false, index⟩ (.table table)).Accounted := by
  refine accounted.write rooted bound (nodup_cons.mpr ⟨fresh, accounted.distinct⟩)
    (forall_mem_cons.mpr ⟨nonzero, accounted.nonzero⟩) (fun other => ?_) ?_
  · simp [old other, eq_comm]
  · rintro _ ⟨⟩ allocated
    exact fresh (mem_append_left _ allocated)

/-- Freeing a named table and clearing its entry. -/
theorem Accounted.freeTable (names : space.levelTwo index = .table table) :
    ((space.heapFree table).setEntry ⟨false, index⟩ .invalid).Accounted := by
  have allocated : table ∈ space.tables := (accounted.named rooted table).mpr ⟨index, bound, names⟩
  have tablesDistinct : space.tables.Nodup := (nodup_append.mp accounted.distinct).1
  have freed : space.heapFree table = { space with tables := space.tables.erase table } :=
    if_pos allocated
  rw [freed]
  refine accounted.write rooted bound
    (accounted.distinct.sublist (erase_sublist.append_right space.blocks))
    (fun other mem => accounted.nonzero other (mem_of_mem_erase mem)) (fun other => ?_) nofun
  rw [tablesDistinct.mem_erase_iff, names]
  simp [and_comm, eq_comm]

end

/-- What the heap answered is not in use. -/
theorem heapAlloc_fresh {served : TableSpace} (call : space.heapAlloc = (some table, served)) :
    table ∉ space.tables ++ space.blocks ∧ table ≠ 0 ∧
      ∃ answers, served = { space with answers } := by
  unfold heapAlloc at call
  split at call
  · cases call
  · rename_i answer rest _
    obtain ⟨answered, rfl⟩ := Prod.mk.inj call
    obtain ⟨fresh, -, rfl⟩ := Option.map_eq_some_iff.mp answered
    exact ⟨fresh.2.1, fresh.2.2, rest, rfl⟩

theorem heapAlloc_refused {refused : TableSpace} (call : space.heapAlloc = (none, refused)) :
    ∃ answers, refused = { space with answers } := by
  unfold heapAlloc at call
  split at call
  · obtain ⟨-, rfl⟩ := Prod.mk.inj call
    exact ⟨space.answers, rfl⟩
  · rename_i answer rest _
    obtain ⟨-, rfl⟩ := Prod.mk.inj call
    exact ⟨rest, rfl⟩

/-- Resolving a user address keeps the accounts. -/
theorem Accounted.resolveLevel3Entry (accounted : space.Accounted)
    (user : address < kernelVaBase) (createMissing : Bool) :
    (space.resolveLevel3Entry address createMissing).2.Accounted := by
  unfold TableSpace.resolveLevel3Entry
  cases resolved : space.resolveLevel2Entry address with
  | none => exact accounted
  | some =>
    obtain ⟨rfl, rooted⟩ := resolveLevel2Entry_user user resolved
    have bound := levelIndex_lt address 21
    dsimp only
    split
    · exact accounted
    rename_i notTable
    have old : LevelTwoEntry.NotTable (space.levelTwo (levelIndex address 21)) :=
      fun table isTable => notTable table isTable
    split
    · split
      · rename_i refused call
        obtain ⟨answers, rfl⟩ := heapAlloc_refused call
        exact accounted.answers answers
      · rename_i table served call
        obtain ⟨fresh, nonzero, _, rfl⟩ := heapAlloc_fresh call
        exact accounted.newTable rooted bound old fresh nonzero
    · exact accounted

/-- Releasing an empty table behind a user address keeps the accounts. -/
theorem Accounted.releaseEmptyLevel3Table (accounted : space.Accounted)
    (user : address < kernelVaBase) : (space.releaseEmptyLevel3Table address).Accounted := by
  unfold TableSpace.releaseEmptyLevel3Table
  cases resolved : space.resolveLevel2Entry address with
  | none => exact accounted
  | some =>
    obtain ⟨rfl, rooted⟩ := resolveLevel2Entry_user user resolved
    dsimp only
    split
    · rename_i table names
      split
      · exact accounted.freeTable rooted (levelIndex_lt address 21) names
      · exact accounted
    · exact accounted

/-- The range lies in the user half. -/
def UserRange (base length : ℕ) : Prop :=
  base + length ≤ kernelVaBase

variable {base length offset count : ℕ}

theorem UserRange.addressAt_eq (user : UserRange base length)
    (below : offset ≤ length) : addressAt base offset = base + offset := by
  simp only [UserRange, kernelVaBase] at user
  rw [addressAt, Nat.mod_eq_of_lt]
  omega

theorem UserRange.addressAt_lt (user : UserRange base length)
    (below : offset < length) : addressAt base offset < kernelVaBase := by
  rw [user.addressAt_eq below.le]
  simp only [UserRange] at user
  omega

/-- No block of a range has a table behind it. -/
def NoTables (space : TableSpace) (base length : ℕ) : Prop :=
  ∀ offset < length, LevelTwoEntry.NotTable (space.levelTwo (levelIndex (addressAt base offset) 21))

variable {mapping : VmMapping}

/-- The first of several steps of one size. -/
theorem steps_succ (offset count : ℕ) {a : ℕ} (positive : 0 < a) :
    offset < offset + (count + 1) * a ∧ offset + a + count * a = offset + (count + 1) * a := by
  rw [Nat.succ_mul]
  omega

theorem steps_whole {length a : ℕ} (whole : length % a = 0) : 0 + length / a * a = length := by
  rw [Nat.zero_add, Nat.div_mul_cancel (Nat.dvd_of_mod_eq_zero whole)]

theorem Accounted.mapPages (accounted : space.Accounted)
    (user : UserRange mapping.virtualBase (offset + count * pageSize)) :
    (TableSpace.mapPages mapping offset count space).2.Accounted := by
  induction count generalizing offset space with
  | zero => exact accounted
  | succ count ih =>
    obtain ⟨inside, shifted⟩ := steps_succ offset count (a := pageSize) (by decide)
    have resolved := accounted.resolveLevel3Entry (user.addressAt_lt inside) true
    unfold TableSpace.mapPages
    dsimp only
    split
    · rename_i status failed call
      rwa [call] at resolved
    · rename_i table reached call
      rw [call] at resolved
      exact ih (resolved.writeLevel3 _) (shifted ▸ user)

theorem Accounted.unmapPages (accounted : space.Accounted)
    (user : UserRange base (offset + count * pageSize)) :
    (TableSpace.unmapPages base offset count space).2.Accounted := by
  induction count generalizing offset space with
  | zero => exact accounted
  | succ count ih =>
    obtain ⟨inside, shifted⟩ := steps_succ offset count (a := pageSize) (by decide)
    have resolved := accounted.resolveLevel3Entry (user.addressAt_lt inside) false
    unfold TableSpace.unmapPages
    split
    · rename_i status failed call
      rwa [call] at resolved
    · rename_i table reached call
      rw [call] at resolved
      exact ih (resolved.writeLevel3 _) (shifted ▸ user)

/-- Writing a descriptor that is no table leaves no table behind other blocks either. -/
theorem NoTables.setEntry (noTables : space.NoTables base length)
    {value : LevelTwoEntry} (new : LevelTwoEntry.NotTable value) :
    (space.setEntry ⟨false, index⟩ value).NoTables base length := by
  intro offset below
  change LevelTwoEntry.NotTable (Function.update space.levelTwo index value _)
  rw [update_apply]
  split
  · exact new
  · exact noTables offset below

section

variable (accounted : space.Accounted)
include accounted

theorem Accounted.mapBlocks (user : UserRange mapping.virtualBase (offset + count * l2BlockSize))
    (noTables : space.NoTables mapping.virtualBase (offset + count * l2BlockSize)) :
    (TableSpace.mapBlocks mapping offset count space).2.Accounted := by
  induction count generalizing offset space with
  | zero => exact accounted
  | succ count ih =>
    obtain ⟨inside, shifted⟩ := steps_succ offset count (a := l2BlockSize) (by decide)
    have new : LevelTwoEntry.NotTable
        (.block (addressAt mapping.physicalBase offset) mapping.flags) := nofun
    unfold TableSpace.mapBlocks
    split
    · exact accounted
    · rename_i place resolved
      obtain ⟨rfl, rooted⟩ := resolveLevel2Entry_user (user.addressAt_lt inside) resolved
      exact ih (accounted.setEntry rooted (levelIndex_lt ..) (noTables offset inside) new)
        (shifted ▸ user) (shifted ▸ noTables.setEntry new)

theorem Accounted.unmapBlocks (user : UserRange base (offset + count * l2BlockSize))
    (noTables : space.NoTables base (offset + count * l2BlockSize)) :
    (TableSpace.unmapBlocks base offset count space).2.Accounted := by
  induction count generalizing offset space with
  | zero => exact accounted
  | succ count ih =>
    obtain ⟨inside, shifted⟩ := steps_succ offset count (a := l2BlockSize) (by decide)
    have new : LevelTwoEntry.NotTable .invalid := nofun
    unfold TableSpace.unmapBlocks
    split
    · exact accounted
    · rename_i place resolved
      obtain ⟨rfl, rooted⟩ := resolveLevel2Entry_user (user.addressAt_lt inside) resolved
      exact ih (accounted.setEntry rooted (levelIndex_lt ..) (noTables offset inside) new)
        (shifted ▸ user) (shifted ▸ noTables.setEntry new)

theorem Accounted.releaseEmptyTables {blockBase : ℕ}
    (user : ∀ round < count, blockBase + round * l2BlockSize < kernelVaBase) :
    (TableSpace.releaseEmptyTables blockBase count space).Accounted := by
  induction count generalizing blockBase space with
  | zero => exact accounted
  | succ _ ih =>
    have first : blockBase < kernelVaBase := by simpa using user 0 (by omega)
    refine ih (accounted.releaseEmptyLevel3Table first) fun round _ => ?_
    have later := user (round + 1) (by omega)
    rw [Nat.succ_mul] at later
    omega

/-- The ranges of a call lie in the user half, and a call that works on whole blocks finds no
table behind them. -/
def SparesTables (space : TableSpace) : Call → Prop
  | .map mapping => UserRange mapping.virtualBase mapping.length ∧
      (blockMapped mapping = true → space.NoTables mapping.virtualBase mapping.length)
  | .unmap address length => UserRange address length ∧
      (blockUnmapped address length = true → space.NoTables address length)
  | .destroy => True

theorem Accounted.map
    (spares : space.SparesTables (.map mapping)) : (space.map mapping).2.Accounted := by
  obtain ⟨user, noTables⟩ := spares
  unfold TableSpace.map
  split
  · exact accounted
  split
  · exact accounted
  rename_i aligned
  simp only [not_or, not_not] at aligned
  split
  · rename_i blocks
    have whole : mapping.length % l2BlockSize = 0 := by
      simp only [blockMapped, Bool.and_eq_true, decide_eq_true_eq] at blocks
      exact blocks.2
    exact accounted.mapBlocks ((steps_whole whole).symm ▸ user)
      ((steps_whole whole).symm ▸ noTables blocks)
  · exact accounted.mapPages ((steps_whole aligned.2.2).symm ▸ user)

theorem Accounted.unmap (spares : space.SparesTables (.unmap address length)) :
    (space.unmap address length).2.Accounted := by
  obtain ⟨user, noTables⟩ := spares
  unfold TableSpace.unmap
  split
  · exact accounted
  split
  · exact accounted
  rename_i aligned
  simp only [not_or, not_not] at aligned
  split
  · rename_i blocks
    have whole : length % l2BlockSize = 0 := by
      simp only [blockUnmapped, Bool.and_eq_true, decide_eq_true_eq] at blocks
      exact blocks.2
    exact accounted.unmapBlocks ((steps_whole whole).symm ▸ user)
      ((steps_whole whole).symm ▸ noTables blocks)
  · have cleared : (TableSpace.unmapPages address 0 (length / pageSize) space).2.Accounted :=
      accounted.unmapPages ((steps_whole aligned.2).symm ▸ user)
    split
    · rename_i reached call
      rw [call] at cleared
      refine cleared.releaseEmptyTables fun _ below => ?_
      rw [user.addressAt_eq le_rfl] at below
      simp only [UserRange] at user
      simp only [l2BlockSize] at below ⊢
      omega
    · rename_i call
      rwa [call] at cleared

end

/-- The table that an entry names. -/
def namedTable : LevelTwoEntry → Option ℕ
  | .table table => some table
  | _ => none

theorem namedTable_eq_some {entry : LevelTwoEntry} :
    namedTable entry = some table ↔ entry = .table table := by
  cases entry <;> simp [namedTable]

/-- The loop of `destroy_user_address_space` frees the tables its remaining entries name. -/
theorem freeTables_spec {indices : List ℕ} (nonzero : ∀ table ∈ space.tables, table ≠ 0)
    (named : (indices.filterMap fun index => namedTable (space.levelTwo index)).Perm
      space.tables) : freeTables indices space = { space with tables := [] } := by
  induction indices generalizing space with
  | nil =>
    have none : space.tables = [] := named.nil_eq.symm
    rw [freeTables, ← none]
  | cons index rest ih =>
    unfold freeTables
    split
    · rename_i table names
      rw [filterMap_cons, namedTable_eq_some.mpr names] at named
      obtain ⟨allocated, named⟩ := cons_perm_iff_perm_erase.mp named
      have freed : space.heapFree table = { space with tables := space.tables.erase table } :=
        if_pos allocated
      rw [if_neg (nonzero table allocated), freed]
      exact ih (fun other mem => nonzero other (mem_of_mem_erase mem)) named
    · rename_i notTable
      have unnamed : namedTable (space.levelTwo index) = none :=
        Option.eq_none_iff_forall_ne_some.mpr fun table names =>
          notTable table (namedTable_eq_some.mp names)
      rw [filterMap_cons, unnamed] at named
      exact ih nonzero named

/-- Freeing blocks that are in use frees exactly them. -/
theorem foldl_heapFree {freed : List ℕ} (space : TableSpace) (noTables : space.tables = [])
    (distinct : freed.Nodup) (inUse : ∀ block ∈ freed, block ∈ space.blocks) :
    ∃ blocks, blocks.Sublist space.blocks ∧ freed.foldl heapFree space = { space with blocks } := by
  induction freed generalizing space with
  | nil => exact ⟨space.blocks, List.Sublist.refl _, rfl⟩
  | cons block rest ih =>
    obtain ⟨fresh, restDistinct⟩ := nodup_cons.mp distinct
    have first : space.heapFree block = { space with blocks := space.blocks.erase block } := by
      unfold heapFree
      rw [if_neg (by rw [noTables]; exact not_mem_nil), if_pos (inUse block (.head _))]
    have restInUse : ∀ other ∈ rest, other ∈ space.blocks.erase block := fun other mem =>
      (mem_erase_of_ne (by rintro rfl; exact fresh mem)).mpr
        (inUse other (mem_cons_of_mem block mem))
    obtain ⟨blocks, sublist, result⟩ :=
      ih { space with blocks := space.blocks.erase block } noTables restDistinct restInUse
    exact ⟨blocks, sublist.trans erase_sublist, by rw [foldl_cons, first, result]⟩

theorem Accounted.destroy (accounted : space.Accounted) :
    space.destroyUserAddressSpace.Accounted := by
  unfold destroyUserAddressSpace
  split
  · exact accounted
  rename_i hasRoot
  have rooted : space.hasRoot = true := by simpa using hasRoot
  have emptied : freeTables (List.range tableEntries) space = { space with tables := [] } := by
    refine freeTables_spec accounted.nonzero ((perm_ext_iff_of_nodup ?_
      (nodup_append.mp accounted.distinct).1).mpr fun table => ?_)
    · refine pairwise_filterMap.mpr (nodup_range.imp_of_mem ?_)
      rintro left right inLeft inRight ne table isLeft _ isRight rfl
      exact ne (accounted.once rooted left (mem_range.mp inLeft) right (mem_range.mp inRight) table
        (namedTable_eq_some.mp isLeft) (namedTable_eq_some.mp isRight))
    · rw [accounted.named rooted table]
      simp [Names, namedTable_eq_some]
  obtain ⟨_, sublist, released⟩ :=
    foldl_heapFree { space with tables := [] } rfl accounted.ownedOnce accounted.owned
  dsimp only
  rw [emptied, released]
  refine ⟨?_, nofun, nofun, nodup_nil, accounted.clean, nofun, nofun, fun _ => rfl⟩
  exact (nodup_append.mp accounted.distinct).2.1.sublist sublist

theorem Accounted.perform (accounted : space.Accounted) {call : Call}
    (spares : space.SparesTables call) : (space.perform call).Accounted := by
  cases call with
  | map => exact accounted.map spares
  | unmap => exact accounted.unmap spares
  | destroy => exact accounted.destroy

/-- A block of `create_user_address_space` is new. -/
theorem allocBlock_some {block : ℕ} {after : TableSpace}
    (call : space.allocBlock = (some block, after)) :
    block ∉ space.tables ++ space.blocks ∧
      ∃ answers, after = { space with blocks := block :: space.blocks, answers } := by
  unfold allocBlock at call
  split at call
  · cases call
  · rename_i address served allocated
    obtain ⟨fresh, -, answers, rfl⟩ := heapAlloc_fresh allocated
    cases call
    exact ⟨fresh, answers, rfl⟩

theorem createUserAddressSpace_ok {created : TableSpace} {deviceBase deviceLimit : ℕ}
    (fresh : space.tables = []) (clean : space.misfreed = []) (distinct : space.blocks.Nodup)
    (call : space.createUserAddressSpace deviceBase deviceLimit = (.ok, created)) :
    created.Accounted := by
  unfold createUserAddressSpace at call
  rcases first : space.allocBlock with ⟨_, afterFirst⟩
  rw [first] at call
  dsimp only at call
  rcases second : afterFirst.allocBlock with ⟨_, afterSecond⟩
  rw [second] at call
  rcases third : afterSecond.allocBlock with ⟨_, _⟩
  rw [third] at call
  dsimp only at call
  split at call
  · rename_i l0 l1 l2
    obtain ⟨firstNew, answers, rfl⟩ := allocBlock_some first
    obtain ⟨secondNew, answers, rfl⟩ := allocBlock_some second
    obtain ⟨thirdNew, _, rfl⟩ := allocBlock_some third
    cases call
    simp only [fresh, nil_append] at firstNew secondNew thirdNew
    have blocksDistinct : (l2 :: l1 :: l0 :: space.blocks).Nodup :=
      nodup_cons.mpr ⟨thirdNew, nodup_cons.mpr ⟨secondNew, nodup_cons.mpr ⟨firstNew, distinct⟩⟩⟩
    refine ⟨?_, ?_, ?_, ?_, clean, ?_, ?_, nofun⟩
    · simpa [fresh] using blocksDistinct
    · simp [fresh]
    · exact fun _ mem => mem_append_left space.blocks mem
    · exact blocksDistinct.sublist (by simp)
    · intro _ table
      simp [fresh, Names, mapLowGib]
    · intro _ _ _ _ _ _ names
      simp [mapLowGib] at names
  · cases call

theorem Reachable.accounted (reachable : Reachable SparesTables space) : space.Accounted := by
  induction reachable with
  | start isCreated =>
    obtain ⟨_, _, _, fresh, clean, distinct, call⟩ := isCreated
    exact createUserAddressSpace_ok fresh clean distinct call
  | step _ call meets stepped ih =>
    cases stepped
    exact (ih.answers call.2).perform meets

/-- In every run that spares tables, the allocated level-3 tables are the ones the level-2
table names, and destroying the address space frees each of them once. -/
theorem levelThreeTables_accounted (reachable : Reachable SparesTables space) :
    (space.hasRoot = true → ∀ table, table ∈ space.tables ↔ space.Names table) ∧
      space.misfreed = [] ∧ space.destroyUserAddressSpace.tables = [] ∧
      space.destroyUserAddressSpace.misfreed = [] := by
  have accounted := reachable.accounted
  have destroyed := accounted.destroy
  refine ⟨accounted.named, accounted.clean, destroyed.gone ?_, destroyed.clean⟩
  unfold destroyUserAddressSpace
  split
  · rename_i noRoot
    simpa using noRoot
  · rfl

/-- The heap answers with a certain block if it can. -/
def answerWith (address : ℕ) : HeapAnswer := fun inUse =>
  if usable : address ∉ inUse ∧ address ≠ 0 then some ⟨address, usable⟩ else none

/-- Before the address space is created. -/
def sampleSpace : TableSpace where
  hasRoot := false
  levelTwo := fun _ => .invalid
  kernelLevelTwo := mapLowGib 0x3F000000 0x40000000
  levelThree := fun _ _ => none
  translationTables := []
  tables := []
  blocks := []
  misfreed := []
  answers := [answerWith 0x1000, answerWith 0x2000, answerWith 0x3000]

/-- The created address space. -/
def sampleCreated : TableSpace :=
  (sampleSpace.createUserAddressSpace 0x3F000000 0x40000000).2

theorem sampleCreated_reachable (condition : TableSpace → Call → Prop) :
    Reachable condition sampleCreated :=
  .start ⟨sampleSpace, 0x3F000000, 0x40000000, rfl, rfl, nodup_nil, rfl⟩

/-- Memory of user data. -/
def userData : MapFlags := { writable := true, executable := false, user := true }

/-- One page at 4 MiB. -/
def samplePage : VmMapping := ⟨0x400000, 0x5000, 0x1000, userData⟩

/-- The block at 4 MiB. -/
def sampleBlock : VmMapping := ⟨0x400000, 0x800000, 0x200000, userData⟩

/-- The page is mapped through a new table. -/
def samplePaged : TableSpace :=
  ({ sampleCreated with answers := [answerWith 0x4000] } : TableSpace).perform (.map samplePage)

/-- A block mapping, or an unmapping of the whole block, overwrites the descriptor of a table:
the table stays allocated, and the address space is destroyed without freeing it. -/
theorem levelThreeTable_lost :
    (∃ space : TableSpace, Reachable (fun _ _ => True) space ∧ space.hasRoot = true ∧
        0x4000 ∈ space.tables ∧ ¬ space.Names 0x4000 ∧
        0x4000 ∈ space.destroyUserAddressSpace.tables) ∧
      ∃ space : TableSpace, Reachable (fun _ _ => True) space ∧ space.hasRoot = true ∧
        0x4000 ∈ space.tables ∧ ¬ space.Names 0x4000 ∧
        0x4000 ∈ space.destroyUserAddressSpace.tables := by
  have paged : Reachable (fun _ _ => True) samplePaged :=
    (sampleCreated_reachable fun _ _ => True).step (.map samplePage, [answerWith 0x4000]) trivial
      rfl
  have overwritten := paged.step (.map sampleBlock, []) trivial rfl
  have cleared := paged.step (.unmap 0x400000 0x200000, []) trivial rfl
  unfold Names
  exact ⟨⟨_, overwritten, by decide +kernel⟩, _, cleared, by decide +kernel⟩

/-- The block at 8 MiB. -/
def otherBlock : VmMapping := ⟨0x800000, 0x800000, 0x200000, userData⟩

/-- A page is mapped through a table of its own, and then a block that has no table. -/
theorem levelThreeTables_accounted_pageAndBlock :
    ∃ space : TableSpace, Reachable SparesTables space ∧ 0x4000 ∈ space.tables ∧
      space.Names 0x4000 ∧ space.destroyUserAddressSpace.tables = [] ∧
      space.destroyUserAddressSpace.misfreed = [] := by
  have paged : Reachable SparesTables samplePaged := by
    have user : UserRange samplePage.virtualBase samplePage.length := Nat.le_of_ble_eq_true rfl
    refine (sampleCreated_reachable SparesTables).step (.map samplePage, [answerWith 0x4000])
      ⟨user, fun blocks => ?_⟩ rfl
    exact absurd blocks (by decide +kernel)
  have user : UserRange otherBlock.virtualBase otherBlock.length := Nat.le_of_ble_eq_true rfl
  have spares : samplePaged.SparesTables (.map otherBlock) := by
    refine ⟨user, fun _ offset below => ?_⟩
    have index : levelIndex (addressAt otherBlock.virtualBase offset) 21 = 4 := by
      change offset < 0x200000 at below
      rw [user.addressAt_eq below.le]
      simp only [levelIndex, tableEntries, otherBlock]
      omega
    rw [index, show samplePaged.levelTwo 4 = .block 0x800000 ⟨true, true, false⟩ by decide +kernel]
    nofun
  have blocked := paged.step (.map otherBlock, []) spares rfl
  obtain ⟨named, -, freed, clean⟩ := levelThreeTables_accounted blocked
  exact ⟨_, blocked, by decide +kernel, (named (by decide +kernel) 0x4000).mp (by decide +kernel),
    freed, clean⟩

end RosKernel.Memory.TableSpace
