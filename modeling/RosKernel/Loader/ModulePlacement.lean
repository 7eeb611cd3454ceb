import RosKernel.Library.Runs
import RosKernel.Library.Spans
import RosKernel.Loader.ImagePopulation

/-!
# Placing modules

`load_new_module` chooses a base for an image with `choose_base`, relocates the backing, links
the module and maps it. The relocation pass gives up the processor at the loader's cooperative
polls, so other threads run between the choice and the link. The model steps through the loads
of any number of threads, with a switch only where the source polls.
-/

namespace RosKernel.Loader

open WordMemory List Option

/-! ## Choosing a base -/

/-- A module in the list of linked modules. -/
structure LinkedModule where
  /-- `owner_process`. -/
  process : ℕ
  /-- `image_base` and `image_bytes`. -/
  span : Span
  deriving DecidableEq

/-- `ranges_overlap`, with ends that wrap. -/
def rangesOverlap (first second : Span) : Bool :=
  first.base < second.limit % 2 ^ 64 ∧ second.base < first.limit % 2 ^ 64

def alignUpModuleBase (address : ℕ) : ℕ := (address + 4095) % 2 ^ 64 / 4096 * 4096

def alignUpImageBytes (imageBytes : ℕ) : ℕ :=
  if imageBytes = 0 then 0 else (imageBytes + 4095) % 2 ^ 64 / 4096 * 4096

def moduleRangeInUse (modules : List LinkedModule) (process : ℕ) (range : Span) : Bool :=
  modules.any fun module => module.process = process ∧ rangesOverlap range module.span

/-- The scan of `choose_base`, page by page, for so many turns. -/
def scanBases (modules : List LinkedModule) (process imageBytes : ℕ) : ℕ → ℕ → ℕ
  | 0, _ => 0
  | turns + 1, candidate =>
    if moduleRegionLimit < (candidate + imageBytes) % 2 ^ 64 then 0
    else if moduleRangeInUse modules process ⟨candidate, imageBytes⟩ then
      scanBases modules process imageBytes turns ((candidate + 4096) % 2 ^ 64)
    else candidate

/-- The scan leaves the region after this many turns. -/
def scanTurns : ℕ := (moduleRegionLimit - moduleRegionBase) / 4096 + 1

/-- `choose_base`; 0 stands for no place. -/
def chooseBase (modules : List LinkedModule) (process preferredBase imageBytes : ℕ) : ℕ :=
  let candidate := alignUpModuleBase preferredBase
  if imageBytes = 0 then 0
  else if moduleRegionBase ≤ candidate ∧ (candidate + imageBytes) % 2 ^ 64 ≤ moduleRegionLimit ∧
      moduleRangeInUse modules process ⟨candidate, imageBytes⟩ = false then
    candidate
  else scanBases modules process imageBytes scanTurns moduleRegionBase

/-! ## Loads as steps -/

/-- The preferred base of an image: its own, or the default for its type. -/
def preferredBase (header : Header) : ℕ :=
  if header.imageBase = 0 then
    if header.imageType = 3 then moduleRegionBase + 8 * 0x200000 else moduleRegionBase
  else header.imageBase

/-- Polls of `apply_image_relocations`, which moves a file image to its preferred base. A
resident image is not relocated again. -/
def relocationPolls (header : Header) (resident : Bool) : ℕ :=
  if resident ∨ baseDelta (preferredBase header) header.imageBase = 0 then 0
  else (header.relocationCount - 1) / 128

/-- A range chosen for a module that is not linked yet. -/
structure Placement where
  process : ℕ
  span : Span
  /-- The modules that were linked when the range was chosen. -/
  seen : List LinkedModule

/-- Where a thread stands in `load_new_module`. -/
inductive LoadStage
  /-- Outside, or before `choose_base`. -/
  | idle
  /-- At a poll of the relocation pass, with so many polls behind it. -/
  | relocating (placement : Placement) (polls : ℕ)
  /-- Before `link_module`. -/
  | placed (placement : Placement)
  /-- Before `map_module`. -/
  | linked (module : LinkedModule)

/-- The linked modules and the loads under way. -/
structure PlacementState where
  modules : List LinkedModule
  stage : ℕ → LoadStage
  /-- The thread between two polls of its load. -/
  running : Option ℕ

/-- The loader before the first load. -/
def PlacementState.initial : PlacementState := ⟨[], fun _ => .idle, none⟩

inductive PlacementAction
  /-- A thread has parsed a file, or found it resident, and chooses a base. -/
  | choose (thread process : ℕ) (bytes : Memory) (fileSize : ℕ) (resident : Bool)
  /-- A thread runs again after a poll. -/
  | resume (thread : ℕ)
  /-- The load fails before the link. -/
  | abandon (thread : ℕ)
  | link (thread : ℕ)
  | map (thread : ℕ) (mapped : Bool)
  /-- A module is freed, or its process exits. -/
  | unload (module : LinkedModule)

/-- `resolve_level2_entry` finds a table: each half has one entry at levels 0 and 1. -/
def resolvesLevel2 (address : ℕ) : Bool :=
  address / 2 ^ 39 % 512 = 0 ∧ address / 2 ^ 30 % 512 = 0

namespace PlacementState

def setStage (state : PlacementState) (thread : ℕ) (stage : LoadStage) (running : Option ℕ) :
    PlacementState :=
  { state with stage := Function.update state.stage thread stage, running := running }

/-- On to the next poll, or past the last one. -/
def proceed (state : PlacementState) (thread : ℕ) (placement : Placement) :
    ℕ → PlacementState
  | 0 => state.setStage thread (.placed placement) (some thread)
  | polls + 1 => state.setStage thread (.relocating placement polls) none

/-- One action; `none` where it cannot be taken. -/
def perform (state : PlacementState) : PlacementAction → Option PlacementState
  | .choose thread process bytes fileSize resident =>
    match state.running, state.stage thread, parseImageView bytes fileSize with
    | none, .idle, .ok view =>
      if view.header.imageType = 2 ∨ view.header.imageType = 3 then
        let imageBytes := alignUpImageBytes view.header.imageSize
        let base := chooseBase state.modules process (preferredBase view.header) imageBytes
        if base = 0 then some state
        else some (state.proceed thread ⟨process, ⟨base, imageBytes⟩, state.modules⟩
          (relocationPolls view.header resident))
      else none
    | _, _, _ => none
  | .resume thread =>
    match state.running, state.stage thread with
    | none, .relocating placement polls => some (state.proceed thread placement polls)
    | _, _ => none
  | .abandon thread =>
    match state.running, state.stage thread with
    | none, .relocating _ _ => some (state.setStage thread .idle none)
    | some current, .placed _ =>
      if current = thread then some (state.setStage thread .idle none) else none
    | _, _ => none
  | .link thread =>
    match state.running, state.stage thread with
    | some current, .placed placement =>
      if current = thread then
        let module : LinkedModule := ⟨placement.process, placement.span⟩
        some { state.setStage thread (.linked module) (some thread) with
          modules := state.modules ++ [module] }
      else none
    | _, _ => none
  | .map thread mapped =>
    match state.running, state.stage thread with
    | some current, .linked module =>
      if current = thread then
        if mapped then
          if resolvesLevel2 module.span.base then some (state.setStage thread .idle none)
          else none
        else some { state.setStage thread .idle none with modules := state.modules.erase module }
      else none
    | _, _ => none
  | .unload module =>
    match state.running with
    | none =>
      if module ∈ state.modules then
        some { state with modules := state.modules.erase module }
      else none
    | some _ => none

/-- A run of actions. -/
abbrev performAll := Runs.performAll perform

end PlacementState

/-! ## Chosen ranges -/

/-- A page-aligned range in the module region. -/
structure InRegion (span : Span) : Prop where
  base_dvd : 4096 ∣ span.base
  size_dvd : 4096 ∣ span.size
  lower : moduleRegionBase ≤ span.base
  upper : span.limit ≤ moduleRegionLimit

/-- Inside the region no end wraps, so the overlap test is exact. -/
theorem apart_of_rangesOverlap {first second : Span} (firstInside : InRegion first)
    (secondInside : InRegion second) (free : rangesOverlap first second = false) :
    first.Apart second := by
  have firstUpper := firstInside.upper
  have secondUpper := secondInside.upper
  rw [rangesOverlap, decide_eq_false_iff_not] at free
  unfold moduleRegionLimit at firstUpper secondUpper
  unfold Span.Apart
  omega

theorem apart_of_not_inUse {modules : List LinkedModule} {process : ℕ} {range : Span}
    (inside : InRegion range) (linkedInside : ∀ module ∈ modules, InRegion module.span)
    (free : moduleRangeInUse modules process range = false) :
    ∀ module ∈ modules, module.process = process → range.Apart module.span := by
  intro module mem owned
  have notHit := any_eq_false.mp free module mem
  rw [decide_eq_true_iff, not_and] at notHit
  apply apart_of_rangesOverlap inside (linkedInside module mem)
  exact Bool.eq_false_of_not_eq_true (notHit owned)

section

variable {modules : List LinkedModule} {process imageBytes : ℕ}

theorem scanBases_spec {turns candidate : ℕ} (small : imageBytes ≤ moduleRegionLimit)
    (bytesAligned : 4096 ∣ imageBytes) (aligned : 4096 ∣ candidate)
    (lower : moduleRegionBase ≤ candidate) (upper : candidate ≤ moduleRegionLimit + 4096)
    (found : scanBases modules process imageBytes turns candidate ≠ 0) :
    InRegion ⟨scanBases modules process imageBytes turns candidate, imageBytes⟩ ∧
      moduleRangeInUse modules process
        ⟨scanBases modules process imageBytes turns candidate, imageBytes⟩ = false := by
  have limit : moduleRegionLimit = 0x8000000 := rfl
  induction turns generalizing candidate with
  | zero => exact absurd rfl found
  | succ _ ih =>
    rw [scanBases] at found ⊢
    split at found
    · exact absurd rfl found
    rename_i inside
    rw [if_neg inside]
    have noWrap : (candidate + imageBytes) % 2 ^ 64 = candidate + imageBytes := by omega
    rw [noWrap] at inside
    split at found
    · rename_i taken
      rw [if_pos taken]
      have next : (candidate + 4096) % 2 ^ 64 = candidate + 4096 := by omega
      rw [next] at found ⊢
      apply ih (Nat.dvd_add aligned (Nat.dvd_refl 4096)) (by omega) (by omega) found
    · rename_i free
      rw [if_neg free]
      exact ⟨⟨aligned, bytesAligned, lower, Nat.le_of_not_lt inside⟩,
        Bool.eq_false_of_not_eq_true free⟩

/-- A scan that finds nothing has tried every page of its turns. -/
theorem scanBases_tried {turns candidate base : ℕ} (nonzero : 0 < candidate)
    (lower : candidate ≤ base) (aligned : 4096 ∣ base - candidate)
    (tried : base < candidate + turns * 4096) (fits : base + imageBytes ≤ moduleRegionLimit)
    (failed : scanBases modules process imageBytes turns candidate = 0) :
    moduleRangeInUse modules process ⟨base, imageBytes⟩ = true := by
  have limit : moduleRegionLimit = 0x8000000 := rfl
  induction turns generalizing candidate with
  | zero => omega
  | succ _ ih =>
    rw [scanBases, if_neg (by omega)] at failed
    split at failed
    · rename_i taken
      rcases lower.eq_or_lt with rfl | later
      · exact taken
      · rw [Nat.mod_eq_of_lt (by omega)] at failed
        exact ih (by omega) (by omega) (by omega) (by omega) failed
    · omega

/-- Without wraparound the chosen range is in the region and free. -/
theorem chooseBase_spec {preferred : ℕ} (small : imageBytes ≤ moduleRegionLimit)
    (bytesAligned : 4096 ∣ imageBytes) (noWrap : alignUpModuleBase preferred + imageBytes < 2 ^ 64)
    (found : chooseBase modules process preferred imageBytes ≠ 0) :
    InRegion ⟨chooseBase modules process preferred imageBytes, imageBytes⟩ ∧
      moduleRangeInUse modules process
        ⟨chooseBase modules process preferred imageBytes, imageBytes⟩ = false := by
  unfold chooseBase at found ⊢
  simp only at found ⊢
  split at found
  · exact absurd rfl found
  rename_i nonempty
  rw [if_neg nonempty]
  split at found
  · rename_i accepted
    rw [if_pos accepted]
    obtain ⟨lower, upper, free⟩ := accepted
    rw [Nat.mod_eq_of_lt noWrap] at upper
    exact ⟨⟨Nat.dvd_mul_left _ _, bytesAligned, lower, upper⟩, free⟩
  · rename_i refused
    rw [if_neg refused]
    exact scanBases_spec small bytesAligned (by decide) le_rfl (by decide) found

/-- `choose_base` fails exactly if no page-aligned range of the module region is free. -/
theorem chooseBase_eq_zero_iff {preferred : ℕ} (nonempty : imageBytes ≠ 0)
    (small : imageBytes ≤ moduleRegionLimit) (bytesAligned : 4096 ∣ imageBytes)
    (noWrap : alignUpModuleBase preferred + imageBytes < 2 ^ 64) :
    chooseBase modules process preferred imageBytes = 0 ↔
      ∀ base, InRegion ⟨base, imageBytes⟩ →
        moduleRangeInUse modules process ⟨base, imageBytes⟩ = true := by
  constructor
  · intro failed base inside
    have upper : base + imageBytes ≤ moduleRegionLimit := inside.upper
    simp only [chooseBase, if_neg nonempty] at failed
    split at failed
    · rename_i accepted
      exact absurd (failed ▸ accepted.1) (by decide)
    have aligned := Nat.dvd_sub inside.base_dvd (by decide : 4096 ∣ moduleRegionBase)
    refine scanBases_tried (by decide) inside.lower aligned ?_ upper failed
    rw [scanTurns]
    omega
  · intro taken
    by_contra found
    obtain ⟨inside, free⟩ := chooseBase_spec small bytesAligned noWrap found
    exact Bool.false_ne_true (free.symm.trans (taken _ inside))

/-- There is room behind the only module of a process. -/
theorem chooseBase_eq_zero_iff_oneModule :
    chooseBase [⟨1, ⟨0x600000, 4096⟩⟩] 1 0 4096 ≠ 0 := fun failed =>
  Bool.false_ne_true ((chooseBase_eq_zero_iff (by decide) (by decide) (by decide) (by decide)).mp
    failed 0x601000 ⟨by decide, by decide, by decide, by decide⟩)

end

theorem alignUpImageBytes_dvd (imageBytes : ℕ) : 4096 ∣ alignUpImageBytes imageBytes := by
  unfold alignUpImageBytes
  split
  · exact dvd_zero _
  · exact Nat.dvd_mul_left _ _

theorem alignUpImageBytes_le {imageBytes : ℕ}
    (small : imageBytes ≤ moduleRegionLimit - moduleRegionBase) :
    alignUpImageBytes imageBytes ≤ moduleRegionLimit := by
  have base : moduleRegionBase = 0x600000 := rfl
  unfold alignUpImageBytes
  split
  · exact Nat.zero_le _
  · omega

/-! ## Placed modules -/

namespace PlacementState

/-- The linked modules of each process lie apart from each other in the module region. -/
structure WellPlaced (state : PlacementState) : Prop where
  inside : ∀ module ∈ state.modules, InRegion module.span
  apart : state.modules.Pairwise fun left right =>
    left.process = right.process → left.span.Apart right.span

/-- A step keeps to the conditions: the image, put at its preferred base, ends below the top of
the address space; and a module is linked only when every module of its process was already
linked as its base was chosen. -/
def Orderly (state : PlacementState) : PlacementAction → Prop
  | .choose _ _ bytes fileSize _ =>
    ∀ view, parseImageView bytes fileSize = .ok view →
      alignUpModuleBase (preferredBase view.header) +
        alignUpImageBytes view.header.imageSize < 2 ^ 64
  | .link thread =>
    ∀ placement, state.stage thread = .placed placement →
      ∀ module ∈ state.modules, module.process = placement.process → module ∈ placement.seen
  | _ => True

/-- The states of runs whose steps meet a condition. -/
abbrev Reachable := Runs.Reachable (· = .initial) perform

end PlacementState

/-- The placement a thread holds and has not linked. -/
def LoadStage.placement? : LoadStage → Option Placement
  | .relocating placement _ => some placement
  | .placed placement => some placement
  | _ => none

/-- A range in the region, apart from the modules that were linked when it was chosen. -/
structure Placement.Free (placement : Placement) : Prop where
  inside : InRegion placement.span
  apart : ∀ module ∈ placement.seen, module.process = placement.process →
    placement.span.Apart module.span

namespace PlacementState

/-- What every step keeps. -/
structure Invariant (state : PlacementState) : Prop where
  wellPlaced : state.WellPlaced
  free : ∀ thread placement, (state.stage thread).placement? = some placement → placement.Free

variable {state next : PlacementState} {thread : ℕ}

section

variable (holds : state.Invariant)
include holds

/-- A change of stage keeps the invariant when the placement it leaves is free. -/
theorem Invariant.setStage {stage : LoadStage} {running : Option ℕ}
    (free : ∀ placement, stage.placement? = some placement → placement.Free) :
    (state.setStage thread stage running).Invariant := by
  refine ⟨⟨holds.wellPlaced.inside, holds.wellPlaced.apart⟩, ?_⟩
  intro other placement held
  change (Function.update state.stage thread stage other).placement? = some placement at held
  by_cases same : other = thread
  · rw [same, Function.update_self] at held
    exact free placement held
  · rw [Function.update_of_ne same] at held
    exact holds.free other placement held

theorem Invariant.proceed {placement : Placement} (free : placement.Free) (polls : ℕ) :
    (state.proceed thread placement polls).Invariant := by
  cases polls with
  | zero | succ =>
    apply holds.setStage
    rintro _ ⟨⟩
    exact free

theorem Invariant.idle : (state.setStage thread .idle none).Invariant := by
  apply holds.setStage
  rintro _ ⟨⟩

/-- Modules may leave the list. -/
theorem Invariant.erase (module : LinkedModule) :
    ({ state with modules := state.modules.erase module } : PlacementState).Invariant := by
  refine ⟨⟨?_, ?_⟩, holds.free⟩
  · intro other mem
    exact holds.wellPlaced.inside other (mem_of_mem_erase mem)
  · exact holds.wellPlaced.apart.sublist erase_sublist

theorem Invariant.choose {process fileSize : ℕ} {bytes : Memory}
    {resident : Bool} (orderly : state.Orderly (.choose thread process bytes fileSize resident))
    (stepped : state.perform (.choose thread process bytes fileSize resident) = some next) :
    next.Invariant := by
  simp only [perform] at stepped
  split at stepped
  · rename_i view _ _ parsed
    split at stepped
    · split at stepped
      · cases stepped
        exact holds
      · rename_i found
        cases stepped
        have accepted := (parseImageView_ok parsed).2.1
        obtain ⟨inside, unused⟩ := chooseBase_spec (alignUpImageBytes_le accepted.imageSize_le)
          (alignUpImageBytes_dvd _) (orderly view parsed) found
        exact holds.proceed ⟨inside, apart_of_not_inUse inside holds.wellPlaced.inside unused⟩ _
    · cases stepped
  · cases stepped

theorem Invariant.resume
    (stepped : state.perform (.resume thread) = some next) : next.Invariant := by
  simp only [perform] at stepped
  split at stepped
  · rename_i placement polls _ stage
    cases stepped
    apply holds.proceed
    apply holds.free thread
    rw [stage, LoadStage.placement?]
  · cases stepped

theorem Invariant.abandon
    (stepped : state.perform (.abandon thread) = some next) : next.Invariant := by
  simp only [perform] at stepped
  split at stepped
  · cases stepped
    exact holds.idle
  · split at stepped
    · cases stepped
      exact holds.idle
    · cases stepped
  · cases stepped

/-- The linked module lies apart from those its choice has seen, and these are all. -/
theorem Invariant.link (orderly : state.Orderly (.link thread))
    (stepped : state.perform (.link thread) = some next) : next.Invariant := by
  simp only [perform] at stepped
  split at stepped
  · rename_i current placement _ stage
    split at stepped
    · cases stepped
      have held : (state.stage thread).placement? = some placement := by
        rw [stage, LoadStage.placement?]
      have free := holds.free thread placement held
      have unlinked : (state.setStage thread
          (.linked ⟨placement.process, placement.span⟩) (some thread)).Invariant := by
        apply holds.setStage
        rintro _ ⟨⟩
      refine ⟨⟨?_, ?_⟩, unlinked.free⟩
      · intro module mem
        rcases mem_append.mp mem with old | new
        · exact holds.wellPlaced.inside module old
        · rw [mem_singleton.mp new]
          exact free.inside
      · apply pairwise_append.mpr
        refine ⟨holds.wellPlaced.apart, pairwise_singleton _ _, ?_⟩
        intro module mem _ new
        rw [mem_singleton.mp new]
        intro sameProcess
        have seen := orderly placement stage module mem sameProcess
        exact (free.apart module seen sameProcess).symm
    · cases stepped
  · cases stepped

theorem Invariant.map {mapped : Bool}
    (stepped : state.perform (.map thread mapped) = some next) : next.Invariant := by
  simp only [perform] at stepped
  split at stepped
  · rename_i current module _ _
    split at stepped
    · split at stepped
      · split at stepped
        · cases stepped
          exact holds.idle
        · cases stepped
      · cases stepped
        exact Invariant.erase (holds.idle) module
    · cases stepped
  · cases stepped

theorem Invariant.unload {module : LinkedModule}
    (stepped : state.perform (.unload module) = some next) : next.Invariant := by
  simp only [perform] at stepped
  split at stepped
  · split at stepped
    · cases stepped
      exact holds.erase module
    · cases stepped
  · cases stepped

/-- One step under the conditions. -/
theorem Invariant.step {action : PlacementAction}
    (orderly : state.Orderly action) (stepped : state.perform action = some next) :
    next.Invariant := by
  cases action with
  | choose => exact holds.choose orderly stepped
  | resume => exact holds.resume stepped
  | abandon => exact holds.abandon stepped
  | link => exact holds.link orderly stepped
  | map => exact holds.map stepped
  | unload => exact holds.unload stepped

end

theorem Invariant.initial : PlacementState.initial.Invariant := by
  refine ⟨⟨?_, List.Pairwise.nil⟩, ?_⟩
  · intro _ mem
    cases mem
  · rintro _ _ ⟨⟩

theorem Reachable.invariant (reachable : Reachable Orderly state) : state.Invariant := by
  refine Runs.Reachable.invariant reachable ?_ fun _ _ _ holds => holds.step
  rintro _ rfl
  exact .initial

/-- In every run that keeps to the conditions the linked modules of each process are
page-aligned, in the module region and pairwise apart. -/
theorem modules_wellPlaced (reachable : Reachable Orderly state) : state.WellPlaced :=
  reachable.invariant.wellPlaced

end PlacementState

/-! ## Runs -/

/-- A library of some preferred base and size without sections, and its relocations. -/
def libraryFile (imageBase imageSize relocationCount : ℕ) : Memory :=
  let fields := [(4, 0x304C4C44), (2, 1), (2, 0), (2, 0xAA64), (2, 2), (4, 0), (8, imageBase),
    (8, 0), (8, imageSize), (8, 120 + relocationCount * 16), (8, 0), (8, 0), (4, 0), (4, 0),
    (4, 0), (4, 0), (4, 0), (4, 0), (4, 0), (4, 0), (4, 120), (4, relocationCount), (4, 0),
    (4, 0), (4, 0), (4, 0)]
  let header := fields.flatMap fun field => ByteMemory.encode field.1 field.2
  fun place =>
    if place < headerBytes then header.getD place 0
    else if (place - headerBytes) % 16 = 0 then 1
    else if (place - headerBytes) % 16 = 9 then 12
    else 0

namespace PlacementState

/-- A check of `Orderly`. -/
def passes (state : PlacementState) : PlacementAction → Bool
  | .choose _ _ bytes fileSize _ => (parseImageView bytes fileSize).toOption.all fun view =>
    alignUpModuleBase (preferredBase view.header) + alignUpImageBytes view.header.imageSize < 2 ^ 64
  | .link thread => (state.stage thread).placement?.all (·.seen = state.modules)
  | _ => true

theorem orderly_of_passes (state : PlacementState) (action : PlacementAction)
    (passed : state.passes action = true) : state.Orderly action := by
  cases action with
  | choose =>
    intro view parsed
    simpa [passes, parsed, Except.toOption] using passed
  | link =>
    intro placement placed module member _
    have seen : placement.seen = state.modules := by
      simpa [passes, placed, LoadStage.placement?] using passed
    exact seen ▸ member
  | _ => trivial

/-- Two threads of a process load a library each, the second when the first one has linked. -/
theorem modules_wellPlaced_twoLoads : ∃ state, Reachable Orderly state ∧
    state.modules = [⟨7, ⟨0x600000, 4096⟩⟩, ⟨7, ⟨0x601000, 4096⟩⟩] ∧ state.WellPlaced := by
  have run : (Runs.performAll (Runs.checked passes perform) initial
      [.choose 1 7 (libraryFile 0 4096 0) 120 false, .link 1, .map 1 true,
        .choose 2 7 (libraryFile 0 4096 0) 120 false, .link 2]).map modules =
      some [⟨7, ⟨0x600000, 4096⟩⟩, ⟨7, ⟨0x601000, 4096⟩⟩] := by decide +kernel
  obtain ⟨state, ran, listed⟩ := map_eq_some_iff.mp run
  have reachable : Reachable Orderly state :=
    .of_checked orderly_of_passes (.performAll (.start rfl) (fun _ _ _ => trivial) ran)
  exact ⟨state, reachable, listed, modules_wellPlaced reachable⟩

/-- Two threads of a process choose the same base, one while the other one is at a poll of its
relocation pass; and a preferred base at the top of the address space is accepted, because the
end of the image wraps. -/
theorem modules_collide :
    (∃ state, initial.performAll [.choose 1 7 (libraryFile 0 4096 129) 2184 false,
        .choose 2 7 (libraryFile 0 4096 129) 2184 false, .resume 1, .link 1, .map 1 true,
        .resume 2, .link 2, .map 2 true] = some state ∧
      state.modules = [⟨7, ⟨0x600000, 4096⟩⟩, ⟨7, ⟨0x600000, 4096⟩⟩] ∧ ¬ state.WellPlaced) ∧
    ∃ state,
      initial.performAll [.choose 1 7 (libraryFile (2 ^ 64 - 4096) 8192 0) 120 false, .link 1] =
        some state ∧
      state.modules = [⟨7, ⟨2 ^ 64 - 4096, 8192⟩⟩] ∧ ¬ state.WellPlaced := by
  constructor
  · refine @Runs.exists_of_map _ _ _ modules _ _ (by decide +kernel)
      fun state listed => ⟨listed, fun placed => ?_⟩
    have apart := placed.apart
    rw [listed, pairwise_pair] at apart
    exact absurd (apart rfl) (by decide)
  · refine @Runs.exists_of_map _ _ _ modules _ _ (by decide +kernel)
      fun _ listed => ⟨listed, fun placed => ?_⟩
    have inside := placed.inside
    rw [listed] at inside
    have upper := (inside _ (.head _)).upper
    exact absurd upper (by decide)

end PlacementState

end RosKernel.Loader
