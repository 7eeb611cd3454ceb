import Mathlib.Data.List.TakeWhile
import RosKernel.Loader.ImportTables

/-!
# Which slot the loader binds to which import

The packed tables keep symbols in declaration order and give each module one range of them.
Where no two slots share a byte and no slot crosses a page, the loader's walk reaches every
declared slot once, under the declared names, and leaves the declared address there exactly when
the imports of a module stand together and no name holds a terminator.
-/

namespace RosKernel.Loader

open List ImportEntry

/-! ## The string pool -/

/-- The recorded offsets are where the names stand, one offset a name. -/
structure StringPool.Sound (pool : StringPool) : Prop where
  /-- A recorded name stands at its offset, followed by its terminator. -/
  placed : ∀ name offset, (name, offset) ∈ pool.nameOffsets → name ++ [0] <+: pool.bytes.drop offset
  oneOffset : ∀ name first second, (name, first) ∈ pool.nameOffsets →
    (name, second) ∈ pool.nameOffsets → first = second
  oneName : ∀ first second offset, (first, offset) ∈ pool.nameOffsets →
    (second, offset) ∈ pool.nameOffsets → first = second

variable {pool : StringPool}

namespace StringPool

theorem sound_empty : Sound empty := by
  constructor <;> simp [empty]

variable {name : Name} {offset : ℕ} {pairs : List (Name × ℕ)}

theorem mem_of_lookup (found : pairs.lookup name = some offset) : (name, offset) ∈ pairs := by
  obtain ⟨_, _, split, _⟩ := lookup_eq_some_iff.mp found
  rw [split]
  exact mem_append_right _ (.head _)

theorem notMem_of_lookup
    (missing : pairs.lookup name = none) (offset : ℕ) : (name, offset) ∉ pairs := by
  intro mem
  have ne := lookup_eq_none_iff.mp missing _ mem
  simp at ne

theorem Sound.offset_lt (sound : pool.Sound)
    (mem : (name, offset) ∈ pool.nameOffsets) : offset < pool.bytes.length := by
  have long := (sound.placed name offset mem).length_le
  rw [length_append, length_singleton, length_drop] at long
  omega

/-- `add_str` records the name and keeps every earlier offset. -/
theorem Sound.addStr (sound : pool.Sound) (value : Name) :
    (pool.addStr value).2.Sound ∧
      (value, (pool.addStr value).1) ∈ (pool.addStr value).2.nameOffsets ∧
      pool.nameOffsets ⊆ (pool.addStr value).2.nameOffsets := by
  unfold StringPool.addStr
  cases found : pool.nameOffsets.lookup value with
  | some => exact ⟨sound, mem_of_lookup found, List.Subset.refl _⟩
  | none =>
    have fresh := notMem_of_lookup found
    refine ⟨⟨?_, ?_, ?_⟩, .head _, subset_cons_self _ _⟩
    · intro name offset mem
      rcases mem_cons.mp mem with new | old
      · cases new
        rw [drop_left]
      · have inside := sound.offset_lt old
        rw [drop_append_of_le_length inside.le]
        exact (sound.placed name offset old).trans (prefix_append _ _)
    · intro name first second firstMember secondMember
      rcases mem_cons.mp firstMember with firstNew | firstOld <;>
        rcases mem_cons.mp secondMember with secondNew | secondOld
      · cases firstNew
        cases secondNew
        rfl
      · cases firstNew
        exact absurd secondOld (fresh _)
      · cases secondNew
        exact absurd firstOld (fresh _)
      · exact sound.oneOffset name first second firstOld secondOld
    · intro first second offset firstMember secondMember
      rcases mem_cons.mp firstMember with firstNew | firstOld <;>
        rcases mem_cons.mp secondMember with secondNew | secondOld
      · cases firstNew
        cases secondNew
        rfl
      · cases firstNew
        exact absurd (sound.offset_lt secondOld) (lt_irrefl _)
      · cases secondNew
        exact absurd (sound.offset_lt firstOld) (lt_irrefl _)
      · exact sound.oneName first second offset firstOld secondOld

/-- Reading a recorded offset gives the name up to its first terminator. -/
theorem Sound.boundedStringAt (sound : pool.Sound) (mem : (name, offset) ∈ pool.nameOffsets) :
    boundedStringAt pool.bytes offset = some (name.takeWhile (· ≠ 0)) := by
  have inside := sound.offset_lt mem
  obtain ⟨_, placed⟩ := sound.placed name offset mem
  have terminated : 0 ∈ pool.bytes.drop offset := by
    rw [← placed]
    simp
  rw [Loader.boundedStringAt, if_neg (by omega), if_pos terminated, ← placed,
    append_assoc, takeWhile_append]
  split
  · rename_i whole
    rw [singleton_append, takeWhile_cons_of_neg (by simp), append_nil,
      ( takeWhile_prefix _).eq_of_length whole]
  · rfl

end StringPool

theorem takeWhile_eq_self {name : Name} (free : 0 ∉ name) : name.takeWhile (· ≠ 0) = name := by
  rw [takeWhile_eq_self_iff]
  intro byte mem
  simpa using fun zero : byte = 0 => free (zero ▸ mem)

theorem zero_notMem_takeWhile (name : Name) : 0 ∉ name.takeWhile (· ≠ 0) := by
  intro mem
  simpa using mem_takeWhile_imp mem

/-! ## The collected entries -/

/-- An import as the recipe declares it. -/
structure DeclaredImport where
  module : Name
  symbol : Name
  iatRva : ℕ
  deriving DecidableEq

/-- The import an entry was made for. -/
def ImportEntry.declared (entry : ImportEntry) : DeclaredImport :=
  ⟨entry.module, entry.symbol, entry.iatRva⟩

/-- The import a configured entry declares, if its slot symbol resolves. -/
def Recipe.declaredImport (recipe : Recipe) (spec : ImportSpec) : Option DeclaredImport :=
  (recipe.resolveSymbolRva spec.slotSymbol).toOption.map fun iatRva =>
    ⟨spec.module, spec.symbol, iatRva⟩

/-- The declared imports, configured and synthesized, in order. -/
def Recipe.declaredImports (recipe : Recipe) : List DeclaredImport :=
  recipe.imports.filterMap recipe.declaredImport ++ recipe.synthesizedImports.map fun synthesized =>
      ⟨kernelModule, synthesized.symbol, synthesized.iatRva⟩

/-- An entry's names are recorded at its offsets. -/
def ImportEntry.RecordedIn (entry : ImportEntry) (pool : StringPool) : Prop :=
  (entry.module, entry.moduleOff) ∈ pool.nameOffsets ∧
    (entry.symbol, entry.symbolOff) ∈ pool.nameOffsets

variable {entry : ImportEntry} {later : StringPool}

theorem ImportEntry.RecordedIn.mono
    (recorded : entry.RecordedIn pool) (grown : pool.nameOffsets ⊆ later.nameOffsets) :
    entry.RecordedIn later :=
  ⟨grown recorded.1, grown recorded.2⟩

/-- The entries are recorded in the pool that has grown by them, and were made for the given
imports. -/
structure Collected (pool later : StringPool) (entries : List ImportEntry)
    (imports : List DeclaredImport) : Prop where
  sound : later.Sound
  grown : pool.nameOffsets ⊆ later.nameOffsets
  recorded : ∀ entry ∈ entries, entry.RecordedIn later
  declared : entries.map ImportEntry.declared = imports

variable {entries : List ImportEntry} {imports : List DeclaredImport}

/-- Nothing collected, and the pool has only grown. -/
theorem Collected.nil (sound : later.Sound) (grown : pool.nameOffsets ⊆ later.nameOffsets) :
    Collected pool later [] [] :=
  ⟨sound, grown, by simp, rfl⟩

theorem Collected.append {middle : StringPool} {others : List ImportEntry}
    {otherImports : List DeclaredImport} (first : Collected pool middle entries imports)
    (second : Collected middle later others otherImports) :
    Collected pool later (entries ++ others) (imports ++ otherImports) := by
  refine ⟨second.sound, fun _ mem => second.grown (first.grown mem), ?_, ?_⟩
  · intro entry mem
    rcases mem_append.mp mem with early | late
    · exact (first.recorded entry early).mono second.grown
    · exact second.recorded entry late
  · rw [map_append, first.declared, second.declared]

theorem importEntry_spec {module symbol blamed : Name} {span iatRva : ℕ} (sound : pool.Sound)
    (made : importEntry span pool module symbol iatRva blamed = .ok (entry, later)) :
    Collected pool later [entry] [⟨module, symbol, iatRva⟩] := by
  obtain ⟨afterModule, moduleRecorded, moduleGrown⟩ := sound.addStr module
  obtain ⟨afterSymbol, symbolRecorded, symbolGrown⟩ := afterModule.addStr symbol
  rw [importEntry] at made
  simp only at made
  split at made
  · cases made
  · cases made
    refine ⟨afterSymbol, fun _ mem => symbolGrown (moduleGrown mem), ?_, rfl⟩
    exact forall_mem_singleton.mpr ⟨symbolGrown moduleRecorded, symbolRecorded⟩

variable {recipe : Recipe}

theorem importEntries_spec {index : ℕ} {specs : List ImportSpec} (sound : pool.Sound)
    (made : importEntries recipe index specs pool = .ok (entries, later)) :
    Collected pool later entries (specs.filterMap recipe.declaredImport) := by
  induction specs generalizing index pool entries with
  | nil =>
    cases made
    exact .nil sound (List.Subset.refl _)
  | cons spec _ ih =>
    rw [importEntries] at made
    split at made
    · cases made
    cases resolved : recipe.resolveSymbolRva spec.slotSymbol with
    | error =>
      rw [resolved] at made
      cases made
    | ok iatRva =>
      rw [resolved] at made
      simp only at made
      split at made
      · cases made
      rename_i entry afterEntry entryMade
      split at made
      · cases made
      rename_i others afterOthers othersMade
      cases made
      have declared : recipe.declaredImport spec = some ⟨spec.module, spec.symbol, iatRva⟩ := by
        rw [Recipe.declaredImport, resolved]
        rfl
      rw [filterMap_cons_some declared]
      have first := importEntry_spec sound entryMade
      exact first.append (ih first.sound othersMade)

theorem exportEntries_spec {index : ℕ} {specs : List ExportSpec} (sound : pool.Sound)
    (made : exportEntries recipe index specs pool = .ok later) : Collected pool later [] [] := by
  induction specs generalizing index pool with
  | nil =>
    cases made
    exact .nil sound (List.Subset.refl _)
  | cons spec _ ih =>
    rw [exportEntries] at made
    split at made
    · cases made
    simp only at made
    split at made
    · cases made
    split at made
    · cases made
    obtain ⟨added, _, grown⟩ := sound.addStr (if spec.name = [] then spec.symbol else spec.name)
    exact (Collected.nil added grown).append (ih added made)

theorem synthesizedEntries_spec {span : ℕ} {synthesized : List SynthesizedImport}
    (sound : pool.Sound) (made : synthesizedEntries span synthesized pool = .ok (entries, later)) :
    Collected pool later entries
      (synthesized.map fun one => ⟨kernelModule, one.symbol, one.iatRva⟩) := by
  induction synthesized generalizing pool entries with
  | nil =>
    cases made
    exact .nil sound (List.Subset.refl _)
  | cons _ _ ih =>
    rw [synthesizedEntries] at made
    split at made
    · cases made
    rename_i entry afterEntry entryMade
    split at made
    · cases made
    rename_i others afterOthers othersMade
    cases made
    have first := importEntry_spec sound entryMade
    exact first.append (ih first.sound othersMade)

/-- What a packed image is made of. -/
structure PackedFrom (recipe : Recipe) (entries : List ImportEntry) (pool : StringPool)
    (image : PackedImage) : Prop where
  sound : pool.Sound
  recorded : ∀ entry ∈ entries, entry.RecordedIn pool
  declared : entries.map ImportEntry.declared = recipe.declaredImports
  modules : image.importModules = (Group.collect (entries.map ImportEntry.moduleOff)).map
    fun group => ⟨group.key, group.first, group.count⟩
  symbols : image.importSymbols = entries.map
    fun entry => ⟨entry.symbolOff, image.headerSize + entry.iatRva⟩
  strings : image.stringTable = pool.bytes
  aligned : image.headerSize % 4096 = 0

variable {image : PackedImage}

theorem packImage_spec (packed : packImage recipe = .ok image) :
    ∃ entries pool, PackedFrom recipe entries pool image := by
  rw [packImage] at packed
  split at packed
  · cases packed
  rename_i configured configuredPool configuredMade
  split at packed
  · cases packed
  rename_i exportPool exportsMade
  split at packed
  · cases packed
  rename_i synthesized pool synthesizedMade
  have first := importEntries_spec StringPool.sound_empty configuredMade
  have exported := first.append (exportEntries_spec first.sound exportsMade)
  have whole := exported.append (synthesizedEntries_spec exported.sound synthesizedMade)
  rw [append_nil, append_nil] at whole
  rw [packTables] at packed
  split at packed
  · cases packed
  split at packed
  · cases packed
    exact ⟨configured ++ synthesized, pool, whole.sound, whole.recorded, whole.declared, rfl, rfl,
      rfl, Nat.mul_mod_left ..⟩
  · cases packed

/-! ## The walk -/

/-- The address of a declared slot in the loaded image. -/
def PackedImage.slotOf (image : PackedImage) (declared : DeclaredImport) : ℕ :=
  image.headerSize + declared.iatRva

/-- The entry at a position of the symbol table. -/
def entryAt (entries : List ImportEntry) (position : ℕ) : ImportEntry :=
  entries.getD position ⟨[], [], 0, 0, 0⟩

variable {position : ℕ}

theorem entryAt_of_getElem?
    (here : entries[position]? = some entry) : entryAt entries position = entry := by
  rw [entryAt, getD_eq_getElem?_getD, here, Option.getD_some]

theorem entryAt_of_lt
    (bound : position < entries.length) : entryAt entries position = entries[position] :=
  entryAt_of_getElem? (List.getElem?_eq_getElem bound)

/-- The slot of the symbol at a position. -/
def slotAt (entries : List ImportEntry) (position : ℕ) : ℕ := (entryAt entries position).iatRva

theorem take_drop_eq_map_entryAt {first count : ℕ} (bound : first + count ≤ entries.length) :
    (entries.drop first).take count = (List.range' first count).map (entryAt entries) := by
  apply ext_getElem
  · rw [length_take, length_drop, length_map, length_range']
    omega
  · intro _ inside _
    rw [getElem_take, getElem_drop, getElem_map, getElem_range', one_mul, entryAt_of_lt]

namespace PackedFrom

variable {recipe : Recipe} {entries : List ImportEntry} {pool : StringPool} {image : PackedImage}

/-- What the walk sees at a position of the symbol table, under the module at an offset. -/
def reachAt (image : PackedImage) (entries : List ImportEntry) (visit : ℕ × ℕ) : Reach :=
  ⟨boundedStringAt image.stringTable visit.1,
    boundedStringAt image.stringTable (entryAt entries visit.2).symbolOff,
    image.headerSize + slotAt entries visit.2⟩

variable (from_ : PackedFrom recipe entries pool image)
include from_

/-- The walk visits the positions of the groups. -/
theorem importWalk_eq :
    image.importWalk = (Group.visits (Group.collect (entries.map ImportEntry.moduleOff))).map
        (reachAt image entries) := by
  have describes := Group.describes_collect (entries.map ImportEntry.moduleOff)
  rw [PackedImage.importWalk, from_.modules, Group.visits, map_flatMap, flatMap_map]
  apply flatMap_congr
  intro group mem
  have bound : group.first + group.count ≤ entries.length := by
    have counted := describes.first_add_count_le mem
    rwa [length_map] at counted
  rw [PackedImage.symbolsOf, from_.symbols, ← map_drop, ← map_take, take_drop_eq_map_entryAt bound]
  simp only [map_map]
  rfl

/-- The declared imports are the entries, position by position. -/
theorem declared_at {entry : ImportEntry} (here : entries[position]? = some entry) :
    recipe.declaredImports[position]? = some entry.declared := by
  rw [← from_.declared, List.getElem?_map, here]
  rfl

theorem entry_of_declared {declared : DeclaredImport} (mem : declared ∈ recipe.declaredImports) :
    ∃ (position : ℕ) (entry : ImportEntry), entries[position]? = some entry ∧
      entry.declared = declared := by
  rw [← from_.declared] at mem
  obtain ⟨entry, entryMember, same⟩ := mem_map.mp mem
  obtain ⟨position, here⟩ := mem_iff_getElem?.mp entryMember
  exact ⟨position, entry, here, same⟩

/-- Modules share an offset exactly when they share the name. -/
theorem moduleOff_eq_iff
    {left right : ImportEntry} (leftMember : left ∈ entries) (rightMember : right ∈ entries) :
    left.moduleOff = right.moduleOff ↔ left.module = right.module := by
  have leftRecorded := (from_.recorded left leftMember).1
  have rightRecorded := (from_.recorded right rightMember).1
  constructor
  · intro same
    rw [same] at leftRecorded
    exact from_.sound.oneName _ _ _ leftRecorded rightRecorded
  · intro same
    rw [same] at leftRecorded
    exact from_.sound.oneOffset _ _ _ leftRecorded rightRecorded

/-- Grouping by offset is grouping by name. -/
theorem clustered_iff :
    Group.Clustered (entries.map ImportEntry.moduleOff) ↔
      Group.Clustered (recipe.declaredImports.map DeclaredImport.module) := by
  have names : recipe.declaredImports.map DeclaredImport.module = entries.map module := by
    rw [← from_.declared, map_map]
    rfl
  rw [names]
  apply Group.clustered_congr
  · rw [length_map, length_map]
  · intro _ _ leftBound rightBound
    rw [length_map] at leftBound rightBound
    simp only [List.getElem?_map, List.getElem?_eq_getElem leftBound,
      List.getElem?_eq_getElem rightBound, Option.map_some, Option.some.injEq]
    exact from_.moduleOff_eq_iff (getElem_mem leftBound) (getElem_mem rightBound)

/-- The part of the walk that reaches one slot. -/
theorem filter_importWalk {entry : ImportEntry} (here : entries[position]? = some entry) :
    image.importWalk.filter (fun reach => reach.iatRva = image.slotOf entry.declared) =
      ((Group.visits (Group.collect (entries.map ImportEntry.moduleOff))).filter fun visit =>
        slotAt entries visit.2 = slotAt entries position).map (reachAt image entries) := by
  rw [from_.importWalk_eq, filter_map]
  congr 1
  apply filter_congr
  intro _ _
  simp [reachAt, PackedImage.slotOf, ImportEntry.declared, slotAt, entryAt_of_getElem? here]

end PackedFrom

/-! ## The stores -/

/-- A store that a reached slot gives rise to. -/
def Stores (process : LoadingProcess) (reach : Reach) (store : ℕ × ℕ) : Prop :=
  store.1 = reach.iatRva ∧ ∃ dependency, process.findModuleByPath reach.module = some dependency ∧
    process.lookupExportAddress dependency reach.symbol = .ok store.2

variable {stores : List (ℕ × ℕ)}

theorem applySymbols_spec {process : LoadingProcess} {module : ImportModule}
    {dependency : ℕ} (found : process.findModuleByPath
      (boundedStringAt image.stringTable module.moduleNameOffset) = some dependency)
    {symbols : List ImportSymbol}
    (applied : applySymbols process image dependency symbols = .ok stores) :
    List.Forall₂ (Stores process) (symbols.map (image.reach module)) stores := by
  induction symbols generalizing stores with
  | nil =>
    cases applied
    exact .nil
  | cons _ _ ih =>
    rw [applySymbols] at applied
    split at applied
    · cases applied
    rename_i exportAddress looked
    split at applied
    · split at applied
      · cases applied
      rename_i later laterApplied
      cases applied
      exact .cons ⟨rfl, dependency, found, looked⟩ (ih laterApplied)
    · cases applied

/-- A completed pass makes one store for each slot the walk reaches, in order. -/
theorem applyPrivateImageImports_spec {process : LoadingProcess} {modules : List ImportModule}
    (applied : applyPrivateImageImports process image modules = .ok stores) :
    List.Forall₂ (Stores process)
      (modules.flatMap fun module => (image.symbolsOf module).map (image.reach module)) stores := by
  induction modules generalizing stores with
  | nil =>
    cases applied
    exact .nil
  | cons _ _ ih =>
    rw [applyPrivateImageImports] at applied
    split at applied
    · cases applied
    rename_i dependency found
    split at applied
    · cases applied
    rename_i early earlyApplied
    split at applied
    · cases applied
    rename_i later laterApplied
    cases applied
    exact rel_append (applySymbols_spec found earlyApplied) (ih laterApplied)

theorem map_fst_stores {process : LoadingProcess} {walk : List Reach}
    (made : List.Forall₂ (Stores process) walk stores) :
    stores.map Prod.fst = walk.map Reach.iatRva := by
  induction made with
  | nil => rfl
  | cons stored _ ih => rw [map_cons, map_cons, stored.1, ih]

/-! ## The bytes of a slot -/

variable {memory : ℕ × ℕ → UInt8} {slot : ℕ}

theorem performStores_of_notMem {cell : ℕ × ℕ}
    (outside : ∀ store ∈ stores, cell ∉ storeCells store.1) :
    performStores stores memory cell = memory cell := by
  induction stores generalizing memory with
  | nil => rfl
  | cons first rest ih =>
    obtain ⟨here, later⟩ := forall_mem_cons.mp outside
    exact (ih later).trans (ByteMemory.write_of_notMem here)

theorem notMem_storeCells {rva other : ℕ} (inPage : other % 4096 ≤ 4088)
    (outside : rva < other ∨ other + 8 ≤ rva) : imageCell rva ∉ storeCells other := by
  intro mem
  obtain ⟨index, bound, same⟩ := mem_map.mp mem
  obtain ⟨page, place⟩ := Prod.mk.inj same
  rw [mem_range] at bound
  simp only [imageCell, alignDownImagePage] at page place
  omega

/-- The last store that meets the slot is found there. -/
theorem slotValue_performStores {before after : List (ℕ × ℕ)} {address : ℕ}
    (inPage : slot % 4096 ≤ 4088)
    (apart : ∀ store ∈ after, store.1 % 4096 ≤ 4088 ∧ (slot + 8 ≤ store.1 ∨ store.1 + 8 ≤ slot)) :
    slotValue (performStores (before ++ (slot, address) :: after) memory) slot =
      address % 2 ^ 64 := by
  have cells : slotCells slot = storeCells slot := by
    refine map_congr_left fun index bound => ?_
    rw [mem_range] at bound
    ext <;> simp only [imageCell, alignDownImagePage] <;> omega
  have distinct : (storeCells slot).Nodup :=
    nodup_range.map fun left right same => Nat.add_left_cancel (Prod.mk.inj same).2
  have kept (between : ℕ × ℕ → UInt8) : ByteMemory.read (slotCells slot)
      (performStores after between) = ByteMemory.read (slotCells slot) between := by
    refine map_congr_left fun cell mem => performStores_of_notMem fun store listed => ?_
    obtain ⟨index, bound, rfl⟩ := mem_map.mp mem
    obtain ⟨otherInPage, disjoint⟩ := apart store listed
    rw [mem_range] at bound
    exact notMem_storeCells otherInPage (by omega)
  rw [slotValue, performStores, foldl_append, foldl_cons, ← performStores, ← performStores, kept,
    cells, ByteMemory.read_write_same distinct (by simp [storeCells]), ByteMemory.decode_encode]
  rfl

/-! ## Binding -/

/-- The walk reaches a declared slot once, under the declared names. -/
def PackedImage.ReachesOnce (image : PackedImage) (declared : DeclaredImport) : Prop :=
  image.importWalk.filter (fun reach => reach.iatRva = image.slotOf declared) =
    [⟨some declared.module, some declared.symbol, image.slotOf declared⟩]

/-- Each declared slot is reached once, under the declared names, and after a completed pass the
process reads from it the address that module exports under that name. -/
structure BindsDeclared (recipe : Recipe) (image : PackedImage) : Prop where
  reached : ∀ declared ∈ recipe.declaredImports, image.ReachesOnce declared
  bound : ∀ process stores memory,
    applyPrivateImageImports process image image.importModules = .ok stores →
    ∀ declared ∈ recipe.declaredImports, ∃ dependency address,
      process.findModuleByPath (some declared.module) = some dependency ∧
      process.lookupExportAddress dependency (some declared.symbol) = .ok address ∧
      slotValue (performStores stores memory) (image.slotOf declared) = address % 2 ^ 64

/-- A completed pass makes one store into a slot that is reached once. -/
theorem stored_of_reached {process : LoadingProcess} {declared : DeclaredImport}
    (reached : image.ReachesOnce declared)
    (made : List.Forall₂ (Stores process) image.importWalk stores) :
    ∃ dependency address, process.findModuleByPath (some declared.module) = some dependency ∧
      process.lookupExportAddress dependency (some declared.symbol) = .ok address ∧
      stores.filter (fun store => store.1 = image.slotOf declared) =
        [(image.slotOf declared, address)] := by
  have filtered : List.Forall₂ (Stores process)
      (image.importWalk.filter fun reach => reach.iatRva = image.slotOf declared)
      (stores.filter fun store => store.1 = image.slotOf declared) := by
    refine rel_filter ?_ made
    intro _ store stored
    simp [stored.1]
  rw [reached] at filtered
  generalize stores.filter (fun store => store.1 = image.slotOf declared) = hits at filtered
  cases filtered with
  | cons stored none =>
    cases none
    obtain ⟨place, dependency, found, looked⟩ := stored
    exact ⟨dependency, _, found, looked, congrArg (fun slot => [(slot, _)]) place⟩

/-- The slots of two imports share no byte. -/
def DeclaredImport.Apart (left right : DeclaredImport) : Prop :=
  left.iatRva + 8 ≤ right.iatRva ∨ right.iatRva + 8 ≤ left.iatRva

instance : Std.Symm DeclaredImport.Apart := ⟨fun _ _ => Or.symm⟩

/-- Declared slots share no byte, and each lies in one page. -/
structure SlotsApart (imports : List DeclaredImport) : Prop where
  apart : imports.Pairwise DeclaredImport.Apart
  inPage : ∀ declared ∈ imports, declared.iatRva % 4096 ≤ 4088

theorem SlotsApart.nodup {imports : List DeclaredImport} (slots : SlotsApart imports) :
    (imports.map DeclaredImport.iatRva).Nodup :=
  pairwise_map.mpr (slots.apart.imp fun apart => by unfold DeclaredImport.Apart at apart; omega)

/-- No name of an import holds a terminator. -/
def NamesTerminated (imports : List DeclaredImport) : Prop :=
  ∀ declared ∈ imports, 0 ∉ declared.module ∧ 0 ∉ declared.symbol

namespace PackedFrom

variable {recipe : Recipe} {entries : List ImportEntry} {pool : StringPool} {image : PackedImage}

variable (from_ : PackedFrom recipe entries pool image)
include from_

theorem boundedStringAt_module {entry : ImportEntry} (mem : entry ∈ entries) :
    boundedStringAt image.stringTable entry.moduleOff = some (entry.module.takeWhile (· ≠ 0)) := by
  rw [from_.strings]
  exact from_.sound.boundedStringAt (from_.recorded entry mem).1

theorem boundedStringAt_symbol {entry : ImportEntry} (mem : entry ∈ entries) :
    boundedStringAt image.stringTable entry.symbolOff = some (entry.symbol.takeWhile (· ≠ 0)) := by
  rw [from_.strings]
  exact from_.sound.boundedStringAt (from_.recorded entry mem).2

/-- Slots are distinct as a list exactly when they are distinct by position. -/
theorem nodup_iff :
    (recipe.declaredImports.map DeclaredImport.iatRva).Nodup ↔ Set.InjOn (slotAt entries)
        {position | position < (entries.map ImportEntry.moduleOff).length} := by
  have slots : recipe.declaredImports.map DeclaredImport.iatRva =
      (List.range entries.length).map (slotAt entries) := by
    rw [← from_.declared, map_map]
    apply ext_getElem
    · rw [length_map, length_map, length_range]
    · intro position bound _
      rw [length_map] at bound
      rw [getElem_map, getElem_map, getElem_range, slotAt, entryAt_of_lt bound]
      rfl
  rw [slots, length_map, nodup_map_iff_inj_on nodup_range]
  simp only [mem_range, Set.InjOn, Set.mem_ofPred_eq]

/-- Adjacent imports with distinct slots are reached as declared. -/
theorem reached_of_clustered (terminated : NamesTerminated recipe.declaredImports)
    (distinct : (recipe.declaredImports.map DeclaredImport.iatRva).Nodup)
    (clustered : Group.Clustered (recipe.declaredImports.map DeclaredImport.module))
    {declared : DeclaredImport} (mem : declared ∈ recipe.declaredImports) :
    image.ReachesOnce declared := by
  obtain ⟨position, entry, here, rfl⟩ := from_.entry_of_declared mem
  have entryMember := mem_of_getElem? here
  have keyHere : (entries.map ImportEntry.moduleOff)[position]? = some entry.moduleOff := by
    rw [List.getElem?_map, here]
    rfl
  obtain ⟨moduleTerminated, symbolTerminated⟩ := terminated _ mem
  rw [PackedImage.ReachesOnce, from_.filter_importWalk here,
    (Group.describes_collect _).filter_visits (from_.clustered_iff.mpr clustered)
      (from_.nodup_iff.mp distinct) keyHere, map_singleton, reachAt, slotAt,
    entryAt_of_getElem? here, from_.boundedStringAt_module entryMember,
    from_.boundedStringAt_symbol entryMember]
  rw [ImportEntry.declared] at moduleTerminated symbolTerminated
  rw [takeWhile_eq_self moduleTerminated, takeWhile_eq_self symbolTerminated]
  rfl

/-- Reaching every slot as declared leaves no other arrangement. -/
theorem clustered_of_reached
    (reached : ∀ declared ∈ recipe.declaredImports, image.ReachesOnce declared) :
    NamesTerminated recipe.declaredImports ∧
      Group.Clustered (recipe.declaredImports.map DeclaredImport.module) := by
  have describes := Group.describes_collect (entries.map ImportEntry.moduleOff)
  -- the one visit of a slot shows the declared names, read back from the string table
  have single : ∀ (position : ℕ) (entry : ImportEntry), entries[position]? = some entry →
      ∃ owner ∈ entries, ∃ place, ∃ shown ∈ entries,
        (Group.visits (Group.collect (entries.map ImportEntry.moduleOff))).filter (fun visit =>
          slotAt entries visit.2 = slotAt entries position) = [(owner.moduleOff, place)] ∧
        owner.module.takeWhile (· ≠ 0) = entry.module ∧
        shown.symbol.takeWhile (· ≠ 0) = entry.symbol := by
    intro position entry here
    have declaredMember : entry.declared ∈ recipe.declaredImports :=
      mem_of_getElem? (from_.declared_at here)
    have once := reached _ declaredMember
    rw [PackedImage.ReachesOnce, from_.filter_importWalk here] at once
    obtain ⟨⟨key, place⟩, visits, shows⟩ := map_eq_singleton_iff.mp once
    have visited : (key, place) ∈
        Group.visits (Group.collect (entries.map ImportEntry.moduleOff)) := by
      apply mem_of_mem_filter
      rw [visits]
      exact mem_singleton_self _
    have bound := describes.visited_lt visited
    rw [length_map] at bound
    obtain ⟨group, groupMember, rfl, _, _⟩ := Group.mem_visits.mp visited
    obtain ⟨owner, ownerMember, ownerKey⟩ := mem_map.mp (describes.occurs group groupMember)
    rw [reachAt, entryAt_of_lt bound, ← ownerKey, from_.boundedStringAt_module ownerMember,
      from_.boundedStringAt_symbol (getElem_mem bound)] at shows
    have names := Reach.mk.inj shows
    refine ⟨owner, ownerMember, place, entries[place], getElem_mem bound, ?_,
      Option.some.inj names.1, Option.some.inj names.2.1⟩
    rw [visits, ownerKey]
  have terminated : NamesTerminated recipe.declaredImports := by
    intro _ mem
    obtain ⟨position, entry, here, rfl⟩ := from_.entry_of_declared mem
    obtain ⟨owner, _, _, _, _, _, moduleName, symbolName⟩ := single position entry here
    constructor
    · rw [ImportEntry.declared, ← moduleName]
      exact zero_notMem_takeWhile _
    · rw [ImportEntry.declared, ← symbolName]
      exact zero_notMem_takeWhile _
  have exact_ : ∀ position key, (entries.map ImportEntry.moduleOff)[position]? = some key →
      ∃ place, (Group.visits (Group.collect (entries.map ImportEntry.moduleOff))).filter
        (fun visit => slotAt entries visit.2 = slotAt entries position) = [(key, place)] := by
    intro position _ keyHere
    rw [List.getElem?_map] at keyHere
    obtain ⟨entry, here, rfl⟩ := Option.map_eq_some_iff.mp keyHere
    obtain ⟨_, ownerMember, place, _, _, visits, moduleName, _⟩ := single position entry here
    obtain ⟨_, ownerHere⟩ := mem_iff_getElem?.mp ownerMember
    have ownerTerminated := (terminated _ (mem_of_getElem? (from_.declared_at ownerHere))).1
    rw [ImportEntry.declared] at ownerTerminated
    rw [takeWhile_eq_self ownerTerminated] at moduleName
    refine ⟨place, ?_⟩
    rw [visits, (from_.moduleOff_eq_iff ownerMember (mem_of_getElem? here)).mpr moduleName]
  exact ⟨terminated, from_.clustered_iff.mp (describes.clustered_of_exact exact_)⟩

/-- Every store goes to a declared slot. -/
theorem slot_of_store {process : LoadingProcess} {stores : List (ℕ × ℕ)} {store : ℕ × ℕ}
    (made : List.Forall₂ (Stores process) image.importWalk stores) (mem : store ∈ stores) :
    ∃ declared ∈ recipe.declaredImports, store.1 = image.slotOf declared := by
  have slot := mem_map_of_mem (f := Prod.fst) mem
  rw [map_fst_stores made, from_.importWalk_eq, map_map] at slot
  obtain ⟨⟨key, place⟩, visited, same⟩ := mem_map.mp slot
  have bound := (Group.describes_collect (entries.map ImportEntry.moduleOff)).visited_lt visited
  rw [length_map] at bound
  refine ⟨entries[place].declared, mem_of_getElem? (from_.declared_at (getElem?_eq_getElem bound)),
    same.symm.trans ?_⟩
  rw [Function.comp_apply, reachAt, slotAt, entryAt_of_lt bound]
  rfl

/-- Slots that are apart hold in the end what was stored into them. -/
theorem binds_of_reached (slots : SlotsApart recipe.declaredImports)
    (reached : ∀ declared ∈ recipe.declaredImports, image.ReachesOnce declared) :
    BindsDeclared recipe image := by
  have aligned := from_.aligned
  refine ⟨reached, fun process stores memory applied declared mem => ?_⟩
  have made := applyPrivateImageImports_spec applied
  obtain ⟨dependency, address, found, looked, once⟩ :=
    stored_of_reached (reached declared mem) made
  obtain ⟨before, after, rfl, -, -, rest⟩ := filter_eq_cons_iff.mp once
  have inPage := slots.inPage declared mem
  refine ⟨dependency, address, found, looked, slotValue_performStores
    (by unfold PackedImage.slotOf; omega) fun store listed => ?_⟩
  obtain ⟨other, otherMem, isOther⟩ := from_.slot_of_store made
    (mem_append_right before (.tail _ listed))
  have otherInPage := slots.inPage other otherMem
  have ne : store.1 ≠ image.slotOf declared := by
    simpa using filter_eq_nil_iff.mp rest store listed
  rw [isOther] at ne ⊢
  have apart := slots.apart.forall mem otherMem fun same => ne (same ▸ rfl)
  unfold DeclaredImport.Apart at apart
  unfold PackedImage.slotOf
  omega

end PackedFrom

/-- A linked image of one section whose three slot symbols `x`, `y` and `z` are consecutive
words. -/
def threeSlots (imports : List ImportSpec) : Recipe where
  relocatable := false
  allocSections := [⟨0x1000, 64, 64, 1⟩]
  symbols := fun name =>
    if name = [120] then some ⟨0x1000, 1⟩
    else if name = [121] then some ⟨0x1008, 1⟩
    else if name = [122] then some ⟨0x1010, 1⟩
    else none
  imports := imports
  exports := []
  synthesizedImports := []
  absRelocCount := 0

/-- Imports `a.f`, `a.h` and `b.g`, the two of `a` next to each other. -/
def groupedRecipe : Recipe :=
  threeSlots [⟨[97], [102], [120]⟩, ⟨[97], [104], [121]⟩, ⟨[98], [103], [122]⟩]

/-- The same imports with `b.g` between the two of `a`. -/
def interleavedRecipe : Recipe :=
  threeSlots [⟨[97], [102], [120]⟩, ⟨[98], [103], [121]⟩, ⟨[97], [104], [122]⟩]

/-- The tables of the grouped imports. -/
def groupedImage : PackedImage where
  headerSize := 0x1000
  importModules := [⟨0, 0, 2⟩, ⟨6, 2, 1⟩]
  importSymbols := [⟨2, 0x1000⟩, ⟨4, 0x1008⟩, ⟨8, 0x1010⟩]
  stringTable := [97, 0, 102, 0, 104, 0, 98, 0, 103, 0]

/-- The tables of the interleaved imports: the range of `a` ends inside `b`. -/
def interleavedImage : PackedImage where
  headerSize := 0x1000
  importModules := [⟨0, 0, 2⟩, ⟨4, 1, 1⟩]
  importSymbols := [⟨2, 0x1000⟩, ⟨6, 0x1008⟩, ⟨8, 0x1010⟩]
  stringTable := [97, 0, 102, 0, 98, 0, 103, 0, 104, 0]

theorem packImage_groupedRecipe : packImage groupedRecipe = .ok groupedImage := by
  decide +kernel

theorem packImage_interleavedRecipe : packImage interleavedRecipe = .ok interleavedImage := by
  decide +kernel

theorem clustered_groupedRecipe :
    Group.Clustered (groupedRecipe.declaredImports.map DeclaredImport.module) := by
  have modules : groupedRecipe.declaredImports.map DeclaredImport.module = [[97], [97], [98]] := by
    decide +kernel
  rw [modules]
  intro first middle last _ _ bound same
  obtain rfl : last = 2 := by
    simp only [length_cons, length_nil] at bound
    omega
  obtain rfl : middle = 1 := by omega
  obtain rfl : first = 0 := by omega
  simp at same

end RosKernel.Loader
