import RosKernel.Library.WordMemory
import RosKernel.Loader.ImportTables

/-!
# Parsed image views

The layout of DLL0 images (`dll_image.h`) and `parse_image_view` (`dll_loader.cpp`), which
checks the header, that every table lies in the header bytes, and each entry of the tables.
The tables are read again from the resident backing later on, by the same accessors.
-/

namespace RosKernel.Loader

open WordMemory

/-! ## The layout -/

/-- First address modules are placed at. -/
def moduleRegionBase : ℕ := 3 * 0x200000

/-- The address behind the module region. -/
def moduleRegionLimit : ℕ := 64 * 0x200000

/-- `dll_header`, the fields the loader reads. -/
structure Header where
  magic : ℕ
  versionMajor : ℕ
  machine : ℕ
  imageType : ℕ
  imageBase : ℕ
  imageSize : ℕ
  headerSize : ℕ
  sectionCount : ℕ
  sectionTableOffset : ℕ
  importModuleTableOffset : ℕ
  importModuleCount : ℕ
  importSymbolTableOffset : ℕ
  importSymbolCount : ℕ
  exportTableOffset : ℕ
  exportCount : ℕ
  relocationTableOffset : ℕ
  relocationCount : ℕ
  stringTableOffset : ℕ
  stringTableSize : ℕ
  deriving DecidableEq

/-- `dll_section`. -/
structure Section where
  virtualAddress : ℕ
  virtualSize : ℕ
  rawDataOffset : ℕ
  rawDataSize : ℕ
  flags : ℕ
  deriving DecidableEq

/-- `dll_export_symbol`. -/
structure ExportSymbol where
  symbolNameOffset : ℕ
  symbolRva : ℕ
  deriving DecidableEq

/-- `dll_relocation`. -/
structure Relocation where
  type : ℕ
  targetRva : ℕ
  deriving DecidableEq

/-- The header at the start of some bytes. -/
def Header.ofBytes (bytes : Memory) : Header where
  magic := field 4 bytes 0
  versionMajor := field 2 bytes 4
  machine := field 2 bytes 8
  imageType := field 2 bytes 10
  imageBase := field 8 bytes 16
  imageSize := field 8 bytes 32
  headerSize := field 8 bytes 40
  sectionCount := field 4 bytes 64
  sectionTableOffset := field 4 bytes 68
  importModuleTableOffset := field 4 bytes 72
  importModuleCount := field 4 bytes 76
  importSymbolTableOffset := field 4 bytes 80
  importSymbolCount := field 4 bytes 84
  exportTableOffset := field 4 bytes 88
  exportCount := field 4 bytes 92
  relocationTableOffset := field 4 bytes 96
  relocationCount := field 4 bytes 100
  stringTableOffset := field 4 bytes 104
  stringTableSize := field 4 bytes 108

/-- `sizeof(dll_header)`. -/
def headerBytes : ℕ := 120

def Section.ofBytes (bytes : Memory) (offset : ℕ) : Section where
  virtualAddress := field 8 bytes (offset + 8)
  virtualSize := field 8 bytes (offset + 16)
  rawDataOffset := field 8 bytes (offset + 24)
  rawDataSize := field 8 bytes (offset + 32)
  flags := field 4 bytes (offset + 40)

def ImportModule.ofBytes (bytes : Memory) (offset : ℕ) : ImportModule where
  moduleNameOffset := field 4 bytes offset
  firstSymbolIndex := field 4 bytes (offset + 4)
  symbolCount := field 4 bytes (offset + 8)

def ImportSymbol.ofBytes (bytes : Memory) (offset : ℕ) : ImportSymbol where
  symbolNameOffset := field 4 bytes offset
  iatRva := field 4 bytes (offset + 4)

def ExportSymbol.ofBytes (bytes : Memory) (offset : ℕ) : ExportSymbol where
  symbolNameOffset := field 4 bytes offset
  symbolRva := field 8 bytes (offset + 8)

def Relocation.ofBytes (bytes : Memory) (offset : ℕ) : Relocation where
  type := field 4 bytes offset
  targetRva := field 8 bytes (offset + 8)

/-- `DLL_SEC_BSS`. -/
def Section.isBss (section_ : Section) : Bool := section_.flags.testBit 3

/-- The records of a table. -/
def table {α : Type} (record : Memory → ℕ → α) (bytes : Memory) (offset count size : ℕ) : List α :=
  (List.range count).map fun index => record bytes (offset + index * size)

/-- `ParsedImageView`, with the tables its pointers lead to. -/
structure ImageView where
  header : Header
  sections : List Section
  importModules : List ImportModule
  importSymbols : List ImportSymbol
  exports : List ExportSymbol
  relocations : List Relocation
  stringTable : List UInt8
  deriving DecidableEq

/-- The tables as the accessors find them in some bytes (`sections_of_backing` and the like). -/
def ImageView.ofBytes (bytes : Memory) : ImageView :=
  let header := Header.ofBytes bytes
  { header := header
    sections := table Section.ofBytes bytes header.sectionTableOffset header.sectionCount 48
    importModules :=
      table ImportModule.ofBytes bytes header.importModuleTableOffset header.importModuleCount 16
    importSymbols :=
      table ImportSymbol.ofBytes bytes header.importSymbolTableOffset header.importSymbolCount 16
    exports := table ExportSymbol.ofBytes bytes header.exportTableOffset header.exportCount 16
    relocations :=
      table Relocation.ofBytes bytes header.relocationTableOffset header.relocationCount 16
    stringTable :=
      ByteMemory.read (List.range' header.stringTableOffset header.stringTableSize) bytes }

/-! ## Validation -/

def addRangeOverflows (base length limit : ℕ) : Bool :=
  limit < length ∨ limit - length < base

namespace Header

/-- Offset and length of each table. -/
def tableRanges (header : Header) : List (ℕ × ℕ) :=
  [(header.sectionTableOffset, header.sectionCount * 48),
    (header.importModuleTableOffset, header.importModuleCount * 16),
    (header.importSymbolTableOffset, header.importSymbolCount * 16),
    (header.exportTableOffset, header.exportCount * 16),
    (header.relocationTableOffset, header.relocationCount * 16),
    (header.stringTableOffset, header.stringTableSize)]

end Header

namespace ImageView

/-- `view_string_at`. -/
def stringAt (view : ImageView) (offset : ℕ) : Option Name :=
  boundedStringAt view.stringTable offset

def sectionRejected (view : ImageView) (fileSize : ℕ) (section_ : Section) : Bool :=
  section_.virtualSize < section_.rawDataSize ∨
    addRangeOverflows section_.virtualAddress section_.virtualSize view.header.imageSize ∨
    (section_.isBss = false ∧
      addRangeOverflows section_.rawDataOffset section_.rawDataSize fileSize)

def importModuleRejected (view : ImageView) (importModule : ImportModule) : Bool :=
  view.stringAt importModule.moduleNameOffset = none ∨
    view.header.importSymbolCount < importModule.firstSymbolIndex ∨
    view.header.importSymbolCount - importModule.firstSymbolIndex < importModule.symbolCount

def importSymbolRejected (view : ImageView) (importSymbol : ImportSymbol) : Bool :=
  view.stringAt importSymbol.symbolNameOffset = none ∨
    addRangeOverflows importSymbol.iatRva 8 view.header.imageSize

def exportRejected (view : ImageView) (exportSymbol : ExportSymbol) : Bool :=
  view.stringAt exportSymbol.symbolNameOffset = none ∨
    view.header.imageSize ≤ exportSymbol.symbolRva

def relocationRejected (view : ImageView) (relocation : Relocation) : Bool :=
  addRangeOverflows relocation.targetRva 8 view.header.imageSize

/-- One of the table entries is rejected. -/
def entryRejected (view : ImageView) (fileSize : ℕ) : Bool :=
  view.sections.any (view.sectionRejected fileSize) ∨
    view.importModules.any view.importModuleRejected ∨
    view.importSymbols.any view.importSymbolRejected ∨
    view.exports.any view.exportRejected ∨
    view.relocations.any view.relocationRejected

end ImageView

def parseImageView (bytes : Memory) (fileSize : ℕ) : Except Status ImageView :=
  let view := ImageView.ofBytes bytes
  let header := view.header
  if fileSize < headerBytes then .error .invalidArgument
  else if header.magic ≠ 0x304C4C44 then .error .invalidArgument
  else if header.versionMajor ≠ 1 ∨ header.machine ≠ 0xAA64 then .error .notSupported
  else if header.imageSize = 0 ∨ moduleRegionLimit - moduleRegionBase < header.imageSize then
    .error .notSupported
  else if header.headerSize < headerBytes ∨ fileSize < header.headerSize ∨
      header.imageSize < header.headerSize then
    .error .invalidArgument
  else if header.tableRanges.any fun range =>
      addRangeOverflows range.1 range.2 header.headerSize then
    .error .invalidArgument
  else if view.entryRejected fileSize then .error .invalidArgument
  else .ok view

/-- What an accepted header says. -/
structure Header.Accepted (header : Header) (fileSize : ℕ) : Prop where
  imageSize_pos : 0 < header.imageSize
  imageSize_le : header.imageSize ≤ moduleRegionLimit - moduleRegionBase
  headerBytes_le : headerBytes ≤ header.headerSize
  headerSize_le_fileSize : header.headerSize ≤ fileSize
  headerSize_le_imageSize : header.headerSize ≤ header.imageSize
  tableRange_le : ∀ range ∈ header.tableRanges, range.1 + range.2 ≤ header.headerSize

theorem addRangeOverflows_eq_false {base length limit : ℕ} :
    addRangeOverflows base length limit = false ↔ base + length ≤ limit := by
  rw [addRangeOverflows, decide_eq_false_iff_not]
  omega

section

variable {bytes : Memory} {fileSize : ℕ} {view : ImageView}

theorem parseImageView_ok (parsed : parseImageView bytes fileSize = .ok view) :
    view = ImageView.ofBytes bytes ∧ view.header.Accepted fileSize ∧
      view.entryRejected fileSize = false := by
  unfold parseImageView at parsed
  simp only at parsed
  split at parsed
  · cases parsed
  split at parsed
  · cases parsed
  split at parsed
  · cases parsed
  split at parsed
  · cases parsed
  split at parsed
  · cases parsed
  split at parsed
  · cases parsed
  rename_i ranges
  split at parsed
  · cases parsed
  rename_i entries
  cases parsed
  refine ⟨rfl, ⟨by omega, by omega, by omega, by omega, by omega, ?_⟩, ?_⟩
  · intro range mem
    rw [Bool.not_eq_true, List.any_eq_false] at ranges
    exact addRangeOverflows_eq_false.mp (Bool.eq_false_of_not_eq_true (ranges range mem))
  · exact Bool.eq_false_of_not_eq_true entries

end

/-! ## Reading the tables back -/

variable {bytes other : Memory}

theorem Header.ofBytes_congr (same : ∀ place < headerBytes, bytes place = other place) :
    Header.ofBytes bytes = Header.ofBytes other := by
  have fieldSame (width address : ℕ) (inside : address + width ≤ headerBytes) :
      field width bytes address = field width other address := by
    apply field_congr
    intro place _ upper
    exact same place (lt_of_lt_of_le upper inside)
  simp (disch := decide) only [Header.ofBytes, fieldSame]

/-- A table is the same in bytes that agree over its range. -/
theorem table_congr {α : Type} {record : Memory → ℕ → α} {offset count size limit : ℕ}
    (recordSame : ∀ start, (∀ place, start ≤ place → place < start + size →
      bytes place = other place) → record bytes start = record other start)
    (same : ∀ place < limit, bytes place = other place) (inside : offset + count * size ≤ limit) :
    table record bytes offset count size = table record other offset count size := by
  apply List.map_congr_left
  intro index mem
  apply recordSame
  intro _ _ _
  apply same
  have below : (index + 1) * size ≤ count * size :=
    Nat.mul_le_mul_right size (List.mem_range.mp mem)
  rw [Nat.succ_mul] at below
  omega

/-- Fields of a record. -/
theorem field_congr_of_record {size : ℕ} (start : ℕ)
    (same : ∀ place, start ≤ place → place < start + size → bytes place = other place)
    (width offset : ℕ) (inside : offset + width ≤ size) :
    field width bytes (start + offset) = field width other (start + offset) := by
  apply field_congr
  intro place _ _
  exact same place (by omega) (by omega)

theorem Section.ofBytes_congr (start : ℕ)
    (same : ∀ place, start ≤ place → place < start + 48 → bytes place = other place) :
    Section.ofBytes bytes start = Section.ofBytes other start := by
  simp (disch := decide) only [Section.ofBytes, field_congr_of_record start same]

section

variable (start : ℕ)
  (same : ∀ place, start ≤ place → place < start + 16 → bytes place = other place)
include start same

theorem field_congr_start : field 4 bytes start = field 4 other start :=
  field_congr_of_record start same 4 0 (by decide)

theorem ImportModule.ofBytes_congr :
    ImportModule.ofBytes bytes start = ImportModule.ofBytes other start := by
  simp (disch := decide) only [ImportModule.ofBytes, field_congr_start start same,
    field_congr_of_record start same]

theorem ImportSymbol.ofBytes_congr :
    ImportSymbol.ofBytes bytes start = ImportSymbol.ofBytes other start := by
  simp (disch := decide) only [ImportSymbol.ofBytes, field_congr_start start same,
    field_congr_of_record start same]

theorem ExportSymbol.ofBytes_congr :
    ExportSymbol.ofBytes bytes start = ExportSymbol.ofBytes other start := by
  simp (disch := decide) only [ExportSymbol.ofBytes, field_congr_start start same,
    field_congr_of_record start same]

theorem Relocation.ofBytes_congr :
    Relocation.ofBytes bytes start = Relocation.ofBytes other start := by
  simp (disch := decide) only [Relocation.ofBytes, field_congr_start start same,
    field_congr_of_record start same]

end

/-- Bytes that agree over an accepted header hold the same tables. -/
theorem ImageView.ofBytes_congr {fileSize : ℕ} (accepted : (Header.ofBytes bytes).Accepted fileSize)
    (same : ∀ place < (Header.ofBytes bytes).headerSize, bytes place = other place) :
    ImageView.ofBytes other = ImageView.ofBytes bytes := by
  have headerSame : Header.ofBytes bytes = Header.ofBytes other := by
    apply Header.ofBytes_congr
    intro place inside
    exact same place (lt_of_lt_of_le inside accepted.headerBytes_le)
  have inside := accepted.tableRange_le
  simp only [Header.tableRanges, List.forall_mem_cons] at inside
  obtain ⟨sections, importModules, importSymbols, exports, relocations, strings, _⟩ := inside
  rw [ImageView.ofBytes, ImageView.ofBytes, ← headerSame]
  rw [table_congr Section.ofBytes_congr same sections,
    table_congr ImportModule.ofBytes_congr same importModules,
    table_congr ImportSymbol.ofBytes_congr same importSymbols,
    table_congr ExportSymbol.ofBytes_congr same exports,
    table_congr Relocation.ofBytes_congr same relocations,
    read_congr fun place _ upper => same place (lt_of_lt_of_le upper strings)]

end RosKernel.Loader
