import RosKernel.Library.Runs
import RosKernel.Memory.Machine

/-!
# Page tables as heap blocks

`mm/arch/aarch64/mm.cpp` with the addresses of the level-3 tables: a table is a heap block
that a level-2 descriptor names. Addresses of both halves of the address space are resolved,
in 64 bits.
-/

namespace RosKernel.Memory

/-- A level-2 descriptor. -/
inductive LevelTwoEntry
  | invalid
  | block (phys : ℕ) (flags : MapFlags)
  /-- A level-3 table at a physical address. -/
  | table (address : ℕ)
  deriving DecidableEq

def kernelVaBase : ℕ := 0xFFFF000000000000

/-- An answer of `Heap::alloc` given the blocks in use: none, or a block that is not in
use. -/
abbrev HeapAnswer := (inUse : List ℕ) → Option { address : ℕ // address ∉ inUse ∧ address ≠ 0 }

/-- A user address space with the heap blocks behind its tables. -/
structure TableSpace where
  /-- `page_table_root` is not 0. -/
  hasRoot : Bool
  levelTwo : ℕ → LevelTwoEntry
  /-- The level-2 table of the kernel. -/
  kernelLevelTwo : ℕ → LevelTwoEntry
  /-- The contents of the level-3 tables. -/
  levelThree : ℕ → ℕ → Option (ℕ × MapFlags)
  /-- `translation_table_l2`, `_l1` and `_l0`. -/
  translationTables : List ℕ
  tables : List ℕ
  /-- The other heap blocks in use. -/
  blocks : List ℕ
  /-- Addresses given to `Heap::free` that were not in use. -/
  misfreed : List ℕ
  /-- What the heap will answer. -/
  answers : List HeapAnswer

namespace TableSpace

/-- `Heap::alloc`. -/
def heapAlloc (space : TableSpace) : Option ℕ × TableSpace :=
  match space.answers with
  | [] => (none, space)
  | answer :: rest =>
    ((answer (space.tables ++ space.blocks)).map Subtype.val, { space with answers := rest })

/-- `Heap::free`. -/
def heapFree (space : TableSpace) (address : ℕ) : TableSpace :=
  if address ∈ space.tables then
    { space with tables := space.tables.erase address }
  else if address ∈ space.blocks then
    { space with blocks := space.blocks.erase address }
  else
    { space with misfreed := address :: space.misfreed }

/-- A level-2 entry: the table it is in, and its index there. -/
structure EntryIndex where
  kernel : Bool
  index : ℕ
  deriving DecidableEq

def resolveLevel2Entry (space : TableSpace) (address : ℕ) : Option EntryIndex :=
  let kernel := decide (kernelVaBase ≤ address)
  if !kernel && !space.hasRoot then
    none
  else if levelIndex address 39 = 0 ∧ levelIndex address 30 = 0 then
    some ⟨kernel, levelIndex address 21⟩
  else
    none

/-- Read a level-2 entry. -/
def entry (space : TableSpace) (place : EntryIndex) : LevelTwoEntry :=
  if place.kernel then space.kernelLevelTwo place.index else space.levelTwo place.index

/-- Write a level-2 entry. -/
def setEntry (space : TableSpace) (place : EntryIndex) (value : LevelTwoEntry) : TableSpace :=
  if place.kernel then
    { space with kernelLevelTwo := Function.update space.kernelLevelTwo place.index value }
  else
    { space with levelTwo := Function.update space.levelTwo place.index value }

/-- `resolve_level3_entry`: the table that holds the entry of an address. -/
def resolveLevel3Entry (space : TableSpace) (address : ℕ) (createMissing : Bool) :
    Except Status ℕ × TableSpace :=
  match space.resolveLevel2Entry address with
  | none => (.error .notSupported, space)
  | some place =>
    match space.entry place with
    | .table table => (.ok table, space)
    | _ =>
      if createMissing then
        match space.heapAlloc with
        | (none, refused) => (.error .noMemory, refused)
        | (some table, served) =>
          let cleared :=
            { served with
              tables := table :: served.tables
              levelThree := Function.update served.levelThree table fun _ => none }
          (.ok table, cleared.setEntry place (.table table))
      else
        (.error .notSupported, space)

/-- Write one entry of a level-3 table. -/
def writeLevel3 (space : TableSpace) (table address : ℕ) (value : Option (ℕ × MapFlags)) :
    TableSpace :=
  { space with
    levelThree := Function.update space.levelThree table
      (Function.update (space.levelThree table) (levelIndex address 12) value) }

def level3TableEmpty (space : TableSpace) (table : ℕ) : Bool :=
  (List.range tableEntries).all fun index => (space.levelThree table index).isNone

def releaseEmptyLevel3Table (space : TableSpace) (address : ℕ) : TableSpace :=
  match space.resolveLevel2Entry address with
  | none => space
  | some place =>
    match space.entry place with
    | .table table =>
      if space.level3TableEmpty table then
        (space.heapFree table).setEntry place .invalid
      else
        space
    | _ => space

/-- The virtual address of a loop of `map` or `unmap` at some offset. -/
def addressAt (base offset : ℕ) : ℕ :=
  (base + offset) % 2 ^ 64

/-- The block loop of `map`. -/
def mapBlocks (mapping : VmMapping) : (offset count : ℕ) → TableSpace → Status × TableSpace
  | _, 0, space => (.ok, space)
  | offset, count + 1, space =>
    match space.resolveLevel2Entry (addressAt mapping.virtualBase offset) with
    | none => (.notSupported, space)
    | some place =>
      mapBlocks mapping (offset + l2BlockSize) count
        (space.setEntry place (.block (addressAt mapping.physicalBase offset) mapping.flags))

/-- The page loop of `map`. -/
def mapPages (mapping : VmMapping) : (offset count : ℕ) → TableSpace → Status × TableSpace
  | _, 0, space => (.ok, space)
  | offset, count + 1, space =>
    let address := addressAt mapping.virtualBase offset
    match space.resolveLevel3Entry address true with
    | (.error status, failed) => (status, failed)
    | (.ok table, resolved) =>
      mapPages mapping (offset + pageSize) count
        (resolved.writeLevel3 table address
          (some (addressAt mapping.physicalBase offset, mapping.flags)))

/-- `block_aligned` in `map`. -/
def blockMapped (mapping : VmMapping) : Bool :=
  mapping.virtualBase % l2BlockSize = 0 && mapping.physicalBase % l2BlockSize = 0 &&
    mapping.length % l2BlockSize = 0

def map (space : TableSpace) (mapping : VmMapping) : Status × TableSpace :=
  if mapping.length = 0 then
    (.invalidArgument, space)
  else if mapping.virtualBase % pageSize ≠ 0 ∨ mapping.physicalBase % pageSize ≠ 0 ∨
      mapping.length % pageSize ≠ 0 then
    (.notSupported, space)
  else if blockMapped mapping then
    mapBlocks mapping 0 (mapping.length / l2BlockSize) space
  else
    mapPages mapping 0 (mapping.length / pageSize) space

/-- The block loop of `unmap`. -/
def unmapBlocks (address : ℕ) : (offset count : ℕ) → TableSpace → Status × TableSpace
  | _, 0, space => (.ok, space)
  | offset, count + 1, space =>
    match space.resolveLevel2Entry (addressAt address offset) with
    | none => (.notSupported, space)
    | some place =>
      unmapBlocks address (offset + l2BlockSize) count (space.setEntry place .invalid)

/-- The page loop of `unmap`. -/
def unmapPages (address : ℕ) : (offset count : ℕ) → TableSpace → Status × TableSpace
  | _, 0, space => (.ok, space)
  | offset, count + 1, space =>
    match space.resolveLevel3Entry (addressAt address offset) false with
    | (.error status, failed) => (status, failed)
    | (.ok table, resolved) =>
      unmapPages address (offset + pageSize) count
        (resolved.writeLevel3 table (addressAt address offset) none)

/-- The closing loop of `unmap`. -/
def releaseEmptyTables (blockBase : ℕ) : ℕ → TableSpace → TableSpace
  | 0, space => space
  | count + 1, space =>
    releaseEmptyTables (blockBase + l2BlockSize) count (space.releaseEmptyLevel3Table blockBase)

/-- `block_aligned` in `unmap`. -/
def blockUnmapped (address length : ℕ) : Bool :=
  address % l2BlockSize = 0 && length % l2BlockSize = 0

def unmap (space : TableSpace) (address length : ℕ) : Status × TableSpace :=
  if length = 0 then
    (.invalidArgument, space)
  else if address % pageSize ≠ 0 ∨ length % pageSize ≠ 0 then
    (.notSupported, space)
  else if blockUnmapped address length then
    unmapBlocks address 0 (length / l2BlockSize) space
  else
    match unmapPages address 0 (length / pageSize) space with
    | (.ok, cleared) =>
      let blockBase := address / l2BlockSize * l2BlockSize
      let rounds := (addressAt address length - blockBase + l2BlockSize - 1) / l2BlockSize
      (.ok, releaseEmptyTables blockBase rounds cleared)
    | (status, failed) => (status, failed)

/-- The loop of `destroy_user_address_space` over the level-2 table. -/
def freeTables : List ℕ → TableSpace → TableSpace
  | [], space => space
  | index :: rest, space =>
    match space.levelTwo index with
    | .table table => freeTables rest (if table = 0 then space else space.heapFree table)
    | _ => freeTables rest space

def destroyUserAddressSpace (space : TableSpace) : TableSpace :=
  if !space.hasRoot then
    space
  else
    let emptied := freeTables (List.range tableEntries) space
    let released := emptied.translationTables.foldl heapFree emptied
    { released with hasRoot := false, translationTables := [] }

/-- `map_low_gib`: identity blocks, those of the device range without execution. -/
def mapLowGib (deviceBase deviceLimit index : ℕ) : LevelTwoEntry :=
  let phys := index * l2BlockSize
  let device := decide (deviceBase ≤ phys ∧ phys < deviceLimit)
  .block phys { writable := true, executable := !device, user := false }

/-- `Heap::alloc` of a table of `create_user_address_space`. -/
def allocBlock (space : TableSpace) : Option ℕ × TableSpace :=
  match space.heapAlloc with
  | (none, refused) => (none, refused)
  | (some address, served) => (some address, { served with blocks := address :: served.blocks })

def createUserAddressSpace (space : TableSpace) (deviceBase deviceLimit : ℕ) :
    Status × TableSpace :=
  let (l0Table, space) := space.allocBlock
  let (l1Table, space) := space.allocBlock
  let (l2Table, space) := space.allocBlock
  match l0Table, l1Table, l2Table with
  | some l0, some l1, some l2 =>
    (.ok,
      { space with
        hasRoot := true
        levelTwo := mapLowGib deviceBase deviceLimit
        translationTables := [l2, l1, l0] })
  | _, _, _ =>
    (.noMemory, (l0Table.toList ++ l1Table.toList ++ l2Table.toList).foldl heapFree space)

/-- The calls on one address space. -/
inductive Call
  | map (mapping : VmMapping)
  | unmap (address length : ℕ)
  | destroy

/-- Perform a call. -/
def perform (space : TableSpace) : Call → TableSpace
  | .map mapping => (space.map mapping).2
  | .unmap address length => (space.unmap address length).2
  | .destroy => space.destroyUserAddressSpace

/-- A new address space. -/
def Created (created : TableSpace) : Prop :=
  ∃ (space : TableSpace) (deviceBase deviceLimit : ℕ),
    space.tables = [] ∧ space.misfreed = [] ∧ space.blocks.Nodup ∧
      space.createUserAddressSpace deviceBase deviceLimit = (.ok, created)

/-- The address spaces reached by calls that all met a condition on the state before. The
heap may answer every call differently. -/
abbrev Reachable (condition : TableSpace → Call → Prop) : TableSpace → Prop :=
  Runs.Reachable Created
    (fun space (call : Call × List HeapAnswer) =>
      some (({ space with answers := call.2 } : TableSpace).perform call.1))
    fun space call => condition space call.1

end TableSpace

end RosKernel.Memory
