import RosKernel.Loader.ImageView

/-!
# Populating and relocating an image backing

`copy_image_to_backing` and `populate_image_backing_from_file` copy the header bytes and then
the sections of an accepted image into its backing; `apply_image_relocations` adds the base
delta at the relocation sites. Sections and sites are bounded by the image size only, so they
may lie over the header bytes. The header and tables stay as validated through both passes
exactly when every section stores there what is there already, and no site adds to it.
-/

namespace RosKernel.Loader

open WordMemory List ImageView

/-! ## The passes -/

/-- `memcopy` and `memzero`. -/
def fill (memory : Memory) (start count : ℕ) (source : ℕ → UInt8) : Memory := fun place =>
  if start ≤ place ∧ place < start + count then source (place - start) else memory place

/-- Where the raw data of a section comes from: the staged file bytes, or a read of the file,
which may fail. -/
abbrev RawSource := Section → Except Status (ℕ → UInt8)

/-- The raw data in the staged file bytes. -/
def stagedSource (bytes : Memory) : RawSource := fun section_ =>
  .ok fun offset => bytes (section_.rawDataOffset + offset)

/-- One turn of the section loop. -/
def copySection (source : RawSource) (memory : Memory) (section_ : Section) :
    Except Status Memory :=
  if section_.isBss then
    .ok (fill memory section_.virtualAddress section_.virtualSize fun _ => 0)
  else do
    let copied ←
      if section_.rawDataSize ≠ 0 then do
        let raw ← source section_
        pure (fill memory section_.virtualAddress section_.rawDataSize raw)
      else pure memory
    if section_.rawDataSize < section_.virtualSize then
      pure (fill copied (section_.virtualAddress + section_.rawDataSize)
        (section_.virtualSize - section_.rawDataSize) fun _ => 0)
    else pure copied

/-- `populate_image_backing_from_file`. -/
def populateImageBacking (source : RawSource) (view : ImageView) (bytes : Memory)
    (capacity : ℕ) : Except Status Memory :=
  if capacity < view.header.imageSize then .error .notSupported
  else view.sections.foldlM (copySection source) (fill (fun _ => 0) 0 view.header.headerSize bytes)

def copyImageToBacking (view : ImageView) (bytes : Memory) (capacity : ℕ) :
    Except Status Memory :=
  populateImageBacking (stagedSource bytes) view bytes capacity

/-- The difference the image is moved by. -/
def baseDelta (actualBase imageBase : ℕ) : ℕ := (actualBase + 2 ^ 64 - imageBase) % 2 ^ 64

/-- Add the delta to the number of some width at a site. -/
def addAt (width delta : ℕ) (memory : Memory) (site : ℕ) : Memory :=
  setField width memory site (field width memory site + delta)

/-- One turn of the relocation loop. -/
def patchSite (delta : ℕ) (memory : Memory) (relocation : Relocation) : Except Status Memory :=
  if relocation.type = 1 then .ok (addAt 8 delta memory relocation.targetRva)
  else if relocation.type = 2 then .ok (addAt 4 delta memory relocation.targetRva)
  else .error .notSupported

def applyImageRelocations (view : ImageView) (memory : Memory) (capacity actualBase : ℕ) :
    Except Status Memory :=
  if capacity < view.header.imageSize then .error .notSupported
  else if baseDelta actualBase view.header.imageBase = 0 then .ok memory
  else view.relocations.foldlM (patchSite (baseDelta actualBase view.header.imageBase)) memory

/-! ## Passes that stop at an error -/

section

variable {σ α ε : Type} {step : σ → α → Except ε σ} {start final : σ}

theorem foldlM_cons_ok {item : α} {rest : List α} :
    (item :: rest).foldlM step start = .ok final ↔
      ∃ next, step start item = .ok next ∧ rest.foldlM step next = .ok final := by
  rw [foldlM_cons]
  cases step start item with
  | error =>
    constructor
    · intro failed
      cases failed
    · rintro ⟨_, failed, _⟩
      cases failed
  | ok next =>
    constructor
    · intro done
      exact ⟨next, rfl, done⟩
    · rintro ⟨_, same, done⟩
      cases same
      exact done

/-- A property holds after every part of a pass exactly when every item keeps it. -/
theorem forall_take_iff {Good : σ → Prop} {Fine : α → Prop} {items : List α}
    (keeps : ∀ item ∈ items, ∀ state next, Good state → step state item = .ok next →
      (Good next ↔ Fine item)) (good : Good start) (run : items.foldlM step start = .ok final) :
    (∀ done state, (items.take done).foldlM step start = .ok state → Good state) ↔
      ∀ item ∈ items, Fine item := by
  induction items generalizing start with
  | nil =>
    constructor
    · intro _ item mem
      cases mem
    · intro _ done state reached
      rw [take_nil] at reached
      cases reached
      exact good
  | cons item _ ih =>
    obtain ⟨next, stepped, run⟩ := foldlM_cons_ok.mp run
    have first := keeps item (.head _) start next good stepped
    have later (goodNext : Good next) := ih (fun item mem => keeps item (.tail _ mem)) goodNext run
    constructor
    · intro throughout
      have goodNext : Good next := by
        apply throughout 1
        rw [take_succ_cons, foldlM_cons_ok]
        exact ⟨next, stepped, rfl⟩
      refine forall_mem_cons.mpr ⟨first.mp goodNext, (later goodNext).mp ?_⟩
      intro done state reached
      apply throughout (done + 1)
      rw [take_succ_cons, foldlM_cons_ok]
      exact ⟨next, stepped, reached⟩
    · intro fine
      obtain ⟨fineFirst, fineRest⟩ := forall_mem_cons.mp fine
      intro done state reached
      cases done with
      | zero =>
        cases reached
        exact good
      | succ done =>
        rw [take_succ_cons, foldlM_cons_ok] at reached
        obtain ⟨_, same, reached⟩ := reached
        cases same.symm.trans stepped
        exact (later (first.mpr fineFirst)).mpr fineRest done state reached

end

/-! ## What a section stores -/

/-- The bytes a section lays over its range. -/
def Section.contents (source : RawSource) (section_ : Section) : Except Status (ℕ → UInt8) :=
  if section_.isBss ∨ section_.rawDataSize = 0 then .ok fun _ => 0
  else do
    let raw ← source section_
    pure fun offset => if offset < section_.rawDataSize then raw offset else 0

theorem fill_of_mem {memory : Memory} {start count place : ℕ} {source : ℕ → UInt8}
    (lower : start ≤ place) (upper : place < start + count) :
    fill memory start count source place = source (place - start) :=
  if_pos ⟨lower, upper⟩

theorem fill_of_outside {memory : Memory} {start count place : ℕ} {source : ℕ → UInt8}
    (outside : place < start ∨ start + count ≤ place) :
    fill memory start count source place = memory place :=
  if_neg (by omega)

/-- Zeros behind a copy, as one fill. -/
theorem fill_fill_zero (memory : Memory) (start : ℕ) {count total : ℕ} (raw : ℕ → UInt8)
    (fits : count ≤ total) :
    fill (fill memory start count raw) (start + count) (total - count) (fun _ => 0) =
      fill memory start total fun offset => if offset < count then raw offset else 0 := by
  funext place
  by_cases outside : place < start ∨ start + total ≤ place
  · rw [fill_of_outside (by omega), fill_of_outside (by omega), fill_of_outside outside]
  · rw [@fill_of_mem memory start total place _ (by omega) (by omega)]
    by_cases early : place < start + count
    · rw [fill_of_outside (by omega), fill_of_mem (by omega) early, if_pos (by omega)]
    · rw [fill_of_mem (by omega) (by omega), if_neg (by omega)]

theorem fill_zero_count (memory : Memory) (start : ℕ) (source : ℕ → UInt8) :
    fill memory start 0 source = memory := by
  funext place
  exact fill_of_outside (by omega)

/-- A section lays its contents over its range. -/
theorem copySection_eq {source : RawSource} {section_ : Section} (memory : Memory)
    (rawFits : section_.rawDataSize ≤ section_.virtualSize) :
    copySection source memory section_ = (section_.contents source).map
        (fill memory section_.virtualAddress section_.virtualSize) := by
  rw [copySection, Section.contents]
  by_cases bss : section_.isBss = true
  · rw [if_pos bss, if_pos (.inl bss), Except.map]
  rw [if_neg bss]
  by_cases empty : section_.rawDataSize = 0
  · rw [if_pos (Or.inr empty), if_neg (not_not_intro empty), empty]
    by_cases room : 0 < section_.virtualSize
    · simp only [pure_bind, if_pos room, Nat.add_zero, Nat.sub_zero]
      rfl
    · have none : section_.virtualSize = 0 := by omega
      simp only [pure_bind, none, Except.map, fill_zero_count]
      rfl
  · rw [if_neg (not_or.mpr ⟨bss, empty⟩), if_pos empty]
    cases source section_ with
    | error => rfl
    | ok raw =>
      have zeros := fill_fill_zero memory section_.virtualAddress raw rawFits
      by_cases room : section_.rawDataSize < section_.virtualSize
      · change (if _ then _ else _) = _
        rw [if_pos room, zeros]
        rfl
      · have same : section_.virtualSize - section_.rawDataSize = 0 := by omega
        rw [same, fill_zero_count] at zeros
        change (if _ then _ else _) = _
        rw [if_neg room, zeros]
        rfl

/-! ## The header bytes -/

namespace ImageView

/-- The header bytes of a backing are those that were validated. -/
def HeaderKept (view : ImageView) (bytes memory : Memory) : Prop :=
  ∀ place < view.header.headerSize, memory place = bytes place

/-- The header bytes are as validated after each section and after each relocation. -/
def StaysValidated (view : ImageView) (bytes : Memory) (source : RawSource)
    (capacity base : ℕ) : Prop :=
  (∀ done memory,
    populateImageBacking source { view with sections := view.sections.take done } bytes
      capacity = .ok memory → view.HeaderKept bytes memory) ∧
  ∀ populated, populateImageBacking source view bytes capacity = .ok populated →
    ∀ done memory,
      applyImageRelocations { view with relocations := view.relocations.take done } populated
        capacity base = .ok memory → view.HeaderKept bytes memory

end ImageView

/-- Bytes a relocation reads and writes. -/
def Relocation.width (relocation : Relocation) : ℕ :=
  if relocation.type = 1 then 8 else 4

/-- The bytes a section stores below some address are the ones given. -/
def Section.Restores (section_ : Section) (source : RawSource) (bytes : Memory)
    (limit : ℕ) : Prop :=
  ∀ contents, section_.contents source = .ok contents →
    ∀ offset < section_.virtualSize, section_.virtualAddress + offset < limit →
      contents offset = bytes (section_.virtualAddress + offset)

/-- The delta has only zeros in the bytes that a site has below some address. -/
def Relocation.Spares (relocation : Relocation) (delta limit : ℕ) : Prop :=
  256 ^ min relocation.width (limit - relocation.targetRva) ∣ delta

/-- No section and no relocation changes a byte of the header. -/
structure ImageView.WritesKeepHeader (view : ImageView) (bytes : Memory) (source : RawSource)
    (base : ℕ) : Prop where
  sections : ∀ section_ ∈ view.sections, section_.Restores source bytes view.header.headerSize
  relocations : ∀ relocation ∈ view.relocations,
    relocation.Spares (baseDelta base view.header.imageBase) view.header.headerSize

theorem patchSite_ok {delta : ℕ} {memory next : Memory} {relocation : Relocation}
    (patched : patchSite delta memory relocation = .ok next) :
    next = addAt relocation.width delta memory relocation.targetRva := by
  unfold patchSite at patched
  unfold Relocation.width
  split at patched
  · rename_i wide
    cases patched
    rw [if_pos wide]
  · rename_i narrow
    split at patched
    · cases patched
      rw [if_neg narrow]
    · cases patched

section

variable {view : ImageView} {bytes memory next : Memory} {source : RawSource}

/-- One section keeps the header bytes exactly when it stores them again. -/
theorem headerKept_copySection_iff {section_ : Section}
    (rawFits : section_.rawDataSize ≤ section_.virtualSize) (kept : view.HeaderKept bytes memory)
    (copied : copySection source memory section_ = .ok next) :
    view.HeaderKept bytes next ↔ section_.Restores source bytes view.header.headerSize := by
  rw [copySection_eq memory rawFits] at copied
  unfold Section.Restores
  cases read : section_.contents source with
  | error =>
    rw [read] at copied
    cases copied
  | ok contents =>
    rw [read] at copied
    cases copied
    constructor
    · intro keptNext _ same _ _ below
      cases same
      rw [← keptNext _ below, fill_of_mem (by omega) (by omega), Nat.add_sub_cancel_left]
    · intro restores place below
      by_cases outside : place < section_.virtualAddress ∨
          section_.virtualAddress + section_.virtualSize ≤ place
      · rw [fill_of_outside outside]
        exact kept place below
      · have position : section_.virtualAddress + (place - section_.virtualAddress) = place := by
          omega
        rw [fill_of_mem (by omega) (by omega), restores contents rfl _ (by omega) (by omega),
          position]

/-- One relocation keeps the header bytes exactly when it adds nothing to them. -/
theorem headerKept_patchSite_iff {delta : ℕ} {relocation : Relocation}
    (kept : view.HeaderKept bytes memory) (patched : patchSite delta memory relocation = .ok next) :
    view.HeaderKept bytes next ↔ relocation.Spares delta view.header.headerSize := by
  cases patchSite_ok patched
  rw [Relocation.Spares, ← setField_add_keeps_iff memory relocation.targetRva delta
    (Nat.min_le_left relocation.width (view.header.headerSize - relocation.targetRva))]
  constructor
  · intro keptNext place _ _
    have below : place < view.header.headerSize := by omega
    rw [kept place below]
    exact keptNext place below
  · intro spares place below
    rw [← kept place below]
    by_cases outside : place < relocation.targetRva ∨
        relocation.targetRva + relocation.width ≤ place
    · exact setField_of_outside outside
    · exact spares place (by omega) (by omega)

theorem headerKept_start (view : ImageView) (bytes : Memory) :
    view.HeaderKept bytes (fill (fun _ => 0) 0 view.header.headerSize bytes) := by
  intro _ _
  rw [fill_of_mem (Nat.zero_le _) (by omega), Nat.sub_zero]

theorem populateImageBacking_ok {capacity : ℕ}
    (populated : populateImageBacking source view bytes capacity = .ok memory) :
    view.header.imageSize ≤ capacity ∧ view.sections.foldlM (copySection source)
        (fill (fun _ => 0) 0 view.header.headerSize bytes) = .ok memory := by
  unfold populateImageBacking at populated
  split at populated
  · cases populated
  · exact ⟨by omega, populated⟩

variable {capacity base : ℕ}

theorem rawDataSize_le {fileSize : ℕ} (accepted : view.entryRejected fileSize = false) :
    ∀ section_ ∈ view.sections, section_.rawDataSize ≤ section_.virtualSize := by
  intro section_ mem
  rw [entryRejected, decide_eq_false_iff_not, not_or] at accepted
  have fine := accepted.1
  rw [Bool.not_eq_true, any_eq_false] at fine
  have sectionFine := fine section_ mem
  rw [sectionRejected, decide_eq_true_iff, not_or] at sectionFine
  exact Nat.le_of_not_lt sectionFine.1

/-- The section loop keeps the header throughout exactly when every section does. -/
theorem populate_throughout_iff {fileSize capacity : ℕ}
    (accepted : view.entryRejected fileSize = false)
    (populated : populateImageBacking source view bytes capacity = .ok memory) :
    (∀ done reached,
      populateImageBacking source { view with sections := view.sections.take done } bytes
        capacity = .ok reached → view.HeaderKept bytes reached) ↔
      ∀ section_ ∈ view.sections, section_.Restores source bytes view.header.headerSize := by
  obtain ⟨fits, run⟩ := populateImageBacking_ok populated
  have rawFits := rawDataSize_le accepted
  rw [← forall_take_iff (fun section_ mem _ _ kept copied =>
    headerKept_copySection_iff (rawFits section_ mem) kept copied)
    (headerKept_start view bytes) run]
  refine forall₂_congr fun done _ => ?_
  rw [populateImageBacking, if_neg (Nat.not_lt.mpr fits)]

/-- The relocation loop keeps a kept header throughout exactly when every site does. -/
theorem relocate_throughout_iff {final : Memory}
    (fits : view.header.imageSize ≤ capacity) (kept : view.HeaderKept bytes memory)
    (relocated : applyImageRelocations view memory capacity base = .ok final) :
    (∀ done reached,
      applyImageRelocations { view with relocations := view.relocations.take done } memory
        capacity base = .ok reached → view.HeaderKept bytes reached) ↔
      ∀ relocation ∈ view.relocations,
        relocation.Spares (baseDelta base view.header.imageBase) view.header.headerSize := by
  by_cases unmoved : baseDelta base view.header.imageBase = 0
  · -- without a delta the loop is skipped, and zero has no bytes to add
    constructor
    · intro _ _ _
      rw [Relocation.Spares, unmoved]
      exact Nat.dvd_zero _
    · intro _ done reached run
      rw [applyImageRelocations, if_neg (Nat.not_lt.mpr fits), if_pos unmoved] at run
      cases run
      exact kept
  · rw [applyImageRelocations, if_neg (Nat.not_lt.mpr fits), if_neg unmoved] at relocated
    rw [← forall_take_iff (fun _ _ _ _ kept patched => headerKept_patchSite_iff kept patched)
      kept relocated]
    refine forall₂_congr fun done _ => ?_
    rw [applyImageRelocations, if_neg (Nat.not_lt.mpr fits), if_neg unmoved]

end

/-- The validated header survives population and relocation, step by step, exactly when no
section and no relocation changes its bytes; the tables read back from the finished backing are
then the validated ones. -/
theorem staysValidated_iff {bytes populated final : Memory} {source : RawSource}
    {fileSize capacity base : ℕ} {view : ImageView}
    (parsed : parseImageView bytes fileSize = .ok view)
    (population : populateImageBacking source view bytes capacity = .ok populated)
    (relocation : applyImageRelocations view populated capacity base = .ok final) :
    (view.StaysValidated bytes source capacity base ↔ view.WritesKeepHeader bytes source base) ∧
      (view.WritesKeepHeader bytes source base →
        view.HeaderKept bytes final ∧ ofBytes final = view) := by
  obtain ⟨same, accepted, entries⟩ := parseImageView_ok parsed
  have fits := (populateImageBacking_ok population).1
  have sectionsIff := populate_throughout_iff entries population
  have whole : { view with sections := view.sections.take view.sections.length } = view := by
    rw [take_length]
  have keptPopulated (throughout : ∀ done reached,
      populateImageBacking source { view with sections := view.sections.take done } bytes
        capacity = .ok reached → view.HeaderKept bytes reached) :
      view.HeaderKept bytes populated := by
    apply throughout view.sections.length
    rw [whole]
    exact population
  have iff : view.StaysValidated bytes source capacity base ↔
      view.WritesKeepHeader bytes source base := by
    constructor
    · rintro ⟨sections, relocations⟩
      have sitesIff := relocate_throughout_iff fits (keptPopulated sections) relocation
      exact ⟨sectionsIff.mp sections, sitesIff.mp (relocations populated population)⟩
    · rintro ⟨sections, relocations⟩
      have throughout := sectionsIff.mpr sections
      refine ⟨throughout, ?_⟩
      intro _ otherPopulation
      cases otherPopulation.symm.trans population
      exact (relocate_throughout_iff fits (keptPopulated throughout) relocation).mpr relocations
  refine ⟨iff, ?_⟩
  intro keeps
  have keptFinal : view.HeaderKept bytes final := by
    apply (iff.mpr keeps).2 populated population view.relocations.length
    rw [take_length]
    exact relocation
  refine ⟨keptFinal, ?_⟩
  rw [same] at accepted keptFinal ⊢
  apply ofBytes_congr accepted
  intro place below
  exact (keptFinal place below).symm

/-! ## Two images -/

/-- A file with one section and one relocation entry, both in the header bytes. -/
def sampleFile (virtualAddress targetRva : ℕ) (raw : List UInt8) : Memory :=
  let header := [(4, 0x304C4C44), (2, 1), (2, 0), (2, 0xAA64), (2, 2), (4, 0), (8, 0x600000),
    (8, 0), (8, 192), (8, 184), (8, 0), (8, 0), (4, 1), (4, 120), (4, 0), (4, 0), (4, 0), (4, 0),
    (4, 0), (4, 0), (4, 168), (4, 1), (4, 0), (4, 0), (4, 0), (4, 0)]
  let sectionEntry := [(8, 0), (8, virtualAddress), (8, 8), (8, 184), (8, 8), (4, 2), (4, 0)]
  let relocationEntry := [(4, 1), (4, 0), (8, targetRva)]
  let fields : List (ℕ × ℕ) := header ++ sectionEntry ++ relocationEntry
  let bytes := fields.flatMap (fun field => ByteMemory.encode field.1 field.2) ++ raw
  fun place => bytes.getD place 0

/-- The section of the file lies behind the header, and so does the relocation site. -/
def plainFile : Memory := sampleFile 184 184 [1, 0, 0, 0, 0, 0, 0, 0]

/-- The section lies over the place and number of the relocations. -/
def overlayFile : Memory := sampleFile 96 184 [255, 255, 255, 255, 255, 255, 255, 255]

theorem exists_eq_ok_of_isOk {ε α : Type} {result : Except ε α} (ok : result.isOk = true) :
    ∃ value, result = .ok value := by
  cases result with
  | error => cases ok
  | ok value => exact ⟨value, rfl⟩

/-- A file that is populated and relocated behind its header bytes. -/
theorem staysValidated_iff_plainFile :
    ∃ populated final, parseImageView plainFile 192 = .ok (ofBytes plainFile) ∧
      copyImageToBacking (ofBytes plainFile) plainFile 4096 = .ok populated ∧
      applyImageRelocations (ofBytes plainFile) populated 4096 0x700000 = .ok final ∧
      ((ofBytes plainFile).StaysValidated plainFile (stagedSource plainFile) 4096
          0x700000 ↔
        (ofBytes plainFile).WritesKeepHeader plainFile (stagedSource plainFile)
          0x700000) := by
  have parsed : parseImageView plainFile 192 = .ok (ofBytes plainFile) := by
    decide +kernel
  obtain ⟨populated, population⟩ : ∃ populated,
      populateImageBacking (stagedSource plainFile) (ofBytes plainFile) plainFile 4096 =
        .ok populated := exists_eq_ok_of_isOk (by decide +kernel)
  obtain ⟨final, relocation⟩ : ∃ final,
      applyImageRelocations (ofBytes plainFile) populated 4096 0x700000 = .ok final :=
    exists_eq_ok_of_isOk (by rfl)
  exact ⟨populated, final, parsed, population, relocation,
    (staysValidated_iff parsed population relocation).1⟩

/-- The accepted overlay image leaves a backing whose header sends the later passes to a
relocation table of four thousand million entries outside the image. -/
theorem overlayFile_corrupts_header :
    parseImageView overlayFile 192 = .ok (ofBytes overlayFile) ∧ ∃ final,
        (copyImageToBacking (ofBytes overlayFile) overlayFile 4096).bind (fun populated =>
            applyImageRelocations (ofBytes overlayFile) populated 4096 0x600000) =
          .ok final ∧
        ¬ (ofBytes overlayFile).HeaderKept overlayFile final ∧
        (Header.ofBytes final).relocationTableOffset = 2 ^ 32 - 1 ∧
        (Header.ofBytes final).relocationCount = 2 ^ 32 - 1 := by
  refine ⟨by decide +kernel, ?_⟩
  obtain ⟨final, loaded⟩ : ∃ final,
      (copyImageToBacking (ofBytes overlayFile) overlayFile 4096).bind (fun populated =>
          applyImageRelocations (ofBytes overlayFile) populated 4096 0x600000) =
        .ok final := exists_eq_ok_of_isOk (by decide +kernel)
  have observed : ((copyImageToBacking (ofBytes overlayFile) overlayFile 4096).bind
      (fun populated =>
        applyImageRelocations (ofBytes overlayFile) populated 4096 0x600000)).toOption.map
      (fun final => (final 96, (Header.ofBytes final).relocationTableOffset,
        (Header.ofBytes final).relocationCount)) =
      some (255, 2 ^ 32 - 1, 2 ^ 32 - 1) := by
    decide +kernel
  rw [loaded, Except.toOption, Option.map_some, Option.some.injEq, Prod.mk.injEq,
    Prod.mk.injEq] at observed
  refine ⟨final, loaded, ?_, observed.2.1, observed.2.2⟩
  intro kept
  have changed := kept 96 (by decide +kernel)
  rw [observed.1] at changed
  exact absurd changed (by decide +kernel)

end RosKernel.Loader
