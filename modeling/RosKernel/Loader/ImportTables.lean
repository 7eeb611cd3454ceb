import RosKernel.Library.ByteMemory
import RosKernel.Library.Grouping
import RosKernel.Status

/-!
# Import tables of DLL0 images

`pack_image` (`ldr_build.py`) writes the import tables of an image: a string table, one entry
for each import symbol in declaration order, and one entry for each module with the index of
its first symbol and its number of symbols. `apply_private_image_imports` (`dll_loader.cpp`)
walks the module entries and binds the symbols each one spans.
-/

namespace RosKernel.Loader

/-- The UTF-8 bytes of a name. -/
abbrev Name := List UInt8

/-! ## The packer's inputs -/

/-- An allocatable section, with its place in the linked ELF. -/
structure SectionInfo where
  rva : ℕ
  virtSize : ℕ
  /-- Bytes of raw data, at most the file size. -/
  payloadSize : ℕ
  sectionIndex : ℕ
  deriving DecidableEq

/-- An ELF symbol. -/
structure SymbolInfo where
  value : ℕ
  sectionIndex : ℕ
  deriving DecidableEq

/-- An import of the build configuration, with surrounding blanks stripped. -/
structure ImportSpec where
  module : Name
  symbol : Name
  slotSymbol : Name
  deriving DecidableEq

/-- An export of the build configuration. -/
structure ExportSpec where
  name : Name
  symbol : Name
  deriving DecidableEq

/-- An undefined symbol of a relocation, bound against the kernel. -/
structure SynthesizedImport where
  symbol : Name
  iatRva : ℕ
  deriving DecidableEq

/-- What `pack_image` reads of the configuration and the ELF file. -/
structure Recipe where
  relocatable : Bool
  allocSections : List SectionInfo
  symbols : Name → Option SymbolInfo
  imports : List ImportSpec
  exports : List ExportSpec
  synthesizedImports : List SynthesizedImport
  /-- Relocations that stay in the image. -/
  absRelocCount : ℕ

/-- The reasons for which packing stops. -/
inductive PackError
  | invalidImport (index : ℕ)
  | invalidExport (index : ℕ)
  | symbolNotFound (symbol : Name)
  | symbolSectionNotMapped (symbol : Name)
  | cannotResolveRva (symbol : Name)
  | importSlotOutsideImage (symbol : Name)
  | exportSymbolOutsideImage (symbol : Name)
  | patchOutsideRawData (rva : ℕ)
  /-- `struct.error` of a value that does not fit its 32-bit field. -/
  | fieldOverflow
  deriving DecidableEq

namespace Recipe

/-- `DLL_SECTION_ALIGNMENT`. -/
def sectionAlignment : ℕ := 0x1000

/-- `align_up` to the section alignment. -/
def alignUp (value : ℕ) : ℕ :=
  (value + (sectionAlignment - 1)) / sectionAlignment * sectionAlignment

/-- The lowest section address, aligned down. -/
def rvaBias (recipe : Recipe) : ℕ :=
  match (recipe.allocSections.map SectionInfo.rva).min? with
  | none => 0
  | some least => least / sectionAlignment * sectionAlignment

/-- The extent of the sections above the bias. -/
def imageSpan (recipe : Recipe) : ℕ :=
  (recipe.allocSections.map fun section_ => section_.rva + section_.virtSize).foldl max 0 -
    recipe.rvaBias

/-- `section_by_index`: the last section of that index. -/
def sectionByIndex (recipe : Recipe) (index : ℕ) : Option SectionInfo :=
  recipe.allocSections.reverse.find? fun section_ => section_.sectionIndex = index

def resolveSymbolRva (recipe : Recipe) (symbolName : Name) : Except PackError ℕ :=
  match recipe.symbols symbolName with
  | none => .error (.symbolNotFound symbolName)
  | some symbol =>
    if recipe.relocatable then
      match recipe.sectionByIndex symbol.sectionIndex with
      | none => .error (.symbolSectionNotMapped symbolName)
      | some section_ => .ok (section_.rva - recipe.rvaBias + symbol.value)
    else if recipe.rvaBias ≤ symbol.value ∧ symbol.value < recipe.rvaBias + recipe.imageSpan then
      .ok (symbol.value - recipe.rvaBias)
    else
      match recipe.sectionByIndex symbol.sectionIndex with
      | none => .error (.cannotResolveRva symbolName)
      | some section_ =>
        if section_.rva ≤ symbol.value ∧ symbol.value < section_.rva + section_.virtSize then
          .ok (section_.rva - recipe.rvaBias + (symbol.value - section_.rva))
        else
          .error (.cannotResolveRva symbolName)

end Recipe

/-! ## The string pool -/

/-- `string_pool` with `name_offsets`. -/
structure StringPool where
  bytes : List UInt8
  nameOffsets : List (Name × ℕ)
  deriving DecidableEq

namespace StringPool

/-- The pool before the first name. -/
def empty : StringPool := ⟨[], []⟩

/-- `add_str`: the offset of a name, appended with its terminator when it is new. -/
def addStr (pool : StringPool) (value : Name) : ℕ × StringPool :=
  match pool.nameOffsets.lookup value with
  | some offset => (offset, pool)
  | none =>
    (pool.bytes.length,
      ⟨pool.bytes ++ (value ++ [0]), (value, pool.bytes.length) :: pool.nameOffsets⟩)

end StringPool

/-! ## Collecting the imports and exports -/

/-- An import with its names in the string pool and its slot. -/
structure ImportEntry where
  module : Name
  symbol : Name
  moduleOff : ℕ
  symbolOff : ℕ
  iatRva : ℕ
  deriving DecidableEq

/-- The module of every synthesized import, `"kernel"`. -/
def kernelModule : Name := [107, 101, 114, 110, 101, 108]

/-- One import entry: both names enter the pool, and the slot must lie in the image. The last
argument names the import in the error. -/
def importEntry (span : ℕ) (pool : StringPool) (module symbol : Name) (iatRva : ℕ)
    (blamed : Name) : Except PackError (ImportEntry × StringPool) :=
  let (moduleOff, pool) := pool.addStr module
  let (symbolOff, pool) := pool.addStr symbol
  if span < iatRva + 8 then .error (.importSlotOutsideImage blamed)
  else .ok (⟨module, symbol, moduleOff, symbolOff, iatRva⟩, pool)

/-- The loop over `cfg.imports`. -/
def importEntries (recipe : Recipe) :
    ℕ → List ImportSpec → StringPool → Except PackError (List ImportEntry × StringPool)
  | _, [], pool => .ok ([], pool)
  | index, spec :: rest, pool =>
    if spec.module = [] ∨ spec.symbol = [] ∨ spec.slotSymbol = [] then
      .error (.invalidImport index)
    else
      match recipe.resolveSymbolRva spec.slotSymbol with
      | .error error => .error error
      | .ok iatRva =>
        match importEntry recipe.imageSpan pool spec.module spec.symbol iatRva spec.slotSymbol with
        | .error error => .error error
        | .ok (entry, pool) =>
          match importEntries recipe (index + 1) rest pool with
          | .error error => .error error
          | .ok (entries, pool) => .ok (entry :: entries, pool)

/-- The loop over `cfg.exports`: its names enter the pool. -/
def exportEntries (recipe : Recipe) :
    ℕ → List ExportSpec → StringPool → Except PackError StringPool
  | _, [], pool => .ok pool
  | index, spec :: rest, pool =>
    if spec.symbol = [] then .error (.invalidExport index)
    else
      let exportName := if spec.name = [] then spec.symbol else spec.name
      match recipe.resolveSymbolRva spec.symbol with
      | .error error => .error error
      | .ok symbolRva =>
        if recipe.imageSpan ≤ symbolRva then .error (.exportSymbolOutsideImage spec.symbol)
        else exportEntries recipe (index + 1) rest (pool.addStr exportName).2

/-- The loop over the synthesized imports. -/
def synthesizedEntries (span : ℕ) :
    List SynthesizedImport → StringPool → Except PackError (List ImportEntry × StringPool)
  | [], pool => .ok ([], pool)
  | synthesized :: rest, pool =>
    match importEntry span pool kernelModule synthesized.symbol synthesized.iatRva
        synthesized.symbol with
    | .error error => .error error
    | .ok (entry, pool) =>
      match synthesizedEntries span rest pool with
      | .error error => .error error
      | .ok (entries, pool) => .ok (entry :: entries, pool)

/-! ## The tables -/

/-- `dll_import_module`. -/
structure ImportModule where
  moduleNameOffset : ℕ
  firstSymbolIndex : ℕ
  symbolCount : ℕ
  deriving DecidableEq

/-- `dll_import_symbol`. -/
structure ImportSymbol where
  symbolNameOffset : ℕ
  iatRva : ℕ
  deriving DecidableEq

/-- The import part of a packed image. -/
structure PackedImage where
  headerSize : ℕ
  importModules : List ImportModule
  importSymbols : List ImportSymbol
  stringTable : List UInt8
  deriving DecidableEq

/-- `header_size`: the header, the tables and the string pool, aligned to a section. -/
def headerSize (recipe : Recipe) (modules symbols poolBytes : ℕ) : ℕ :=
  Recipe.alignUp (120 + recipe.allocSections.length * 48 + modules * 16 + symbols * 16 +
    recipe.exports.length * 16 + recipe.absRelocCount * 16 + poolBytes)

/-- `patch_section_u64` finds raw data for the eight bytes at that address. -/
def patchable (recipe : Recipe) (patchRva : ℕ) : Bool :=
  recipe.allocSections.any fun section_ =>
    section_.rva - recipe.rvaBias ≤ patchRva ∧
      patchRva + 8 ≤ section_.rva - recipe.rvaBias + section_.payloadSize

/-- The grouping loop and the tables it is written to. -/
def packTables (recipe : Recipe) (entries : List ImportEntry) (pool : StringPool) :
    Except PackError PackedImage :=
  let groupedImports := Group.collect (entries.map ImportEntry.moduleOff)
  let rvaShift := headerSize recipe groupedImports.length entries.length pool.bytes.length
  let importModules := groupedImports.map fun group =>
    ImportModule.mk group.key group.first group.count
  let importSymbols := entries.map fun entry =>
    ImportSymbol.mk entry.symbolOff (rvaShift + entry.iatRva)
  match entries.find? fun entry => !patchable recipe entry.iatRva with
  | some entry => .error (.patchOutsideRawData entry.iatRva)
  | none =>
    if (importModules.all fun module => module.moduleNameOffset < 2 ^ 32 ∧
          module.firstSymbolIndex < 2 ^ 32 ∧ module.symbolCount < 2 ^ 32) ∧
        (importSymbols.all fun symbol => symbol.symbolNameOffset < 2 ^ 32 ∧
          symbol.iatRva < 2 ^ 32) then
      .ok ⟨rvaShift, importModules, importSymbols, pool.bytes⟩
    else .error .fieldOverflow

/-- The part of `pack_image` that writes the import tables. -/
def packImage (recipe : Recipe) : Except PackError PackedImage :=
  match importEntries recipe 0 recipe.imports .empty with
  | .error error => .error error
  | .ok (declared, pool) =>
    match exportEntries recipe 0 recipe.exports pool with
    | .error error => .error error
    | .ok pool =>
      match synthesizedEntries recipe.imageSpan recipe.synthesizedImports pool with
      | .error error => .error error
      | .ok (synthesized, pool) => packTables recipe (declared ++ synthesized) pool

/-! ## The loader's walk -/

/-- `bounded_string_at`: the text up to the terminator, if the table holds one. -/
def boundedStringAt (stringTable : List UInt8) (offset : ℕ) : Option Name :=
  if stringTable.length ≤ offset then none
  else if 0 ∈ stringTable.drop offset then
    some ((stringTable.drop offset).takeWhile (· ≠ 0))
  else none

/-- A slot with the names under which the walk reaches it. -/
structure Reach where
  module : Option Name
  symbol : Option Name
  iatRva : ℕ
  deriving DecidableEq

namespace PackedImage

/-- The symbols a module entry spans. -/
def symbolsOf (image : PackedImage) (module : ImportModule) : List ImportSymbol :=
  (image.importSymbols.drop module.firstSymbolIndex).take module.symbolCount

/-- The names and slot of one symbol, reached under one module entry. -/
def reach (image : PackedImage) (module : ImportModule) (symbol : ImportSymbol) : Reach :=
  ⟨boundedStringAt image.stringTable module.moduleNameOffset,
    boundedStringAt image.stringTable symbol.symbolNameOffset, symbol.iatRva⟩

/-- Every slot the loader's loops reach, in order. -/
def importWalk (image : PackedImage) : List Reach :=
  image.importModules.flatMap fun module => (image.symbolsOf module).map (image.reach module)

end PackedImage

/-- What the walk asks of the process it loads for. -/
structure LoadingProcess where
  findModuleByPath : Option Name → Option ℕ
  lookupExportAddress : ℕ → Option Name → Except Status ℕ
  ensurePrivateImagePage : ℕ → Status

/-- The inner loop: the stores into the slots of one module entry, or the first failure. -/
def applySymbols (process : LoadingProcess) (image : PackedImage) (dependency : ℕ) :
    List ImportSymbol → Except Status (List (ℕ × ℕ))
  | [] => .ok []
  | symbol :: rest =>
    match process.lookupExportAddress dependency
        (boundedStringAt image.stringTable symbol.symbolNameOffset) with
    | .error status => .error status
    | .ok exportAddress =>
      if process.ensurePrivateImagePage symbol.iatRva = .ok then
        match applySymbols process image dependency rest with
        | .error status => .error status
        | .ok stores => .ok ((symbol.iatRva, exportAddress) :: stores)
      else .error (process.ensurePrivateImagePage symbol.iatRva)

/-- `apply_private_image_imports` over the module entries: the stores it makes, in order. -/
def applyPrivateImageImports (process : LoadingProcess) (image : PackedImage) :
    List ImportModule → Except Status (List (ℕ × ℕ))
  | [] => .ok []
  | module :: rest =>
    match process.findModuleByPath
        (boundedStringAt image.stringTable module.moduleNameOffset) with
    | none => .error .notFound
    | some dependency =>
      match applySymbols process image dependency (image.symbolsOf module) with
      | .error status => .error status
      | .ok stores =>
        match applyPrivateImageImports process image rest with
        | .error status => .error status
        | .ok later => .ok (stores ++ later)

/-! ## The private pages -/

def alignDownImagePage (rva : ℕ) : ℕ := rva / 4096 * 4096

/-- Where the process sees a byte of the image: the page and the place in it. -/
def imageCell (rva : ℕ) : ℕ × ℕ := (alignDownImagePage rva, rva - alignDownImagePage rva)

/-- The eight bytes of a slot, as the process sees them. -/
def slotCells (iatRva : ℕ) : List (ℕ × ℕ) :=
  (List.range 8).map fun index => imageCell (iatRva + index)

/-- The eight bytes that the loader stores for a slot. All are counted from the start of one
page, so they may lie behind its end, in memory that is not of the image. -/
def storeCells (iatRva : ℕ) : List (ℕ × ℕ) :=
  (List.range 8).map fun index => ((imageCell iatRva).1, (imageCell iatRva).2 + index)

/-- The stores, one after the other. -/
def performStores (stores : List (ℕ × ℕ)) (memory : ℕ × ℕ → UInt8) : ℕ × ℕ → UInt8 :=
  stores.foldl (fun memory store =>
    ByteMemory.write (storeCells store.1) (ByteMemory.encode 8 store.2) memory) memory

/-- The address that the process reads from a slot. -/
def slotValue (memory : ℕ × ℕ → UInt8) (iatRva : ℕ) : ℕ :=
  ByteMemory.decode (ByteMemory.read (slotCells iatRva) memory)

end RosKernel.Loader
