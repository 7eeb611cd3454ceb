import RosKernel.Library.Attempt
import RosKernel.Library.References
import RosKernel.Status

/-!
# References to loaded modules

`load_library` and `free_library` on the list of loaded modules and the shared images behind
them. A module counts the references taken on it, by explicit loads and by the import entries
of other modules; an image counts the modules that use it. Steps that read files, allocate or
map may fail at any time.
-/

namespace RosKernel.ModuleReferences

/-- A path as `normalize_path` leaves it, up to case. -/
structure ModulePath where
  directory : ℕ
  basename : ℕ
  deriving DecidableEq

/-- What a load reads in an image. -/
structure ImageFile where
  /-- `image_type` is that of a DLL or a driver. -/
  library : Bool
  /-- The names in the import table; `none` where `normalize_path` refuses one. -/
  imports : List (Option ModulePath)
  /-- `entry_point_rva` is not 0. -/
  entryPoint : Bool

structure SharedLoadedImage where
  path : ModulePath
  backing : ImageFile

structure LoadedModule where
  ownerProcess : ℕ
  path : ModulePath
  backing : ImageFile
  sharedImage : ℕ
  pendingProcessAttach : Bool
  pendingProcessDetach : Bool

/-- The loader's lists, with the counts `ref_count` and `reference_count`. Records are told
apart by the order in which they were made. -/
structure LoaderState where
  modules : Registry (Counted LoadedModule)
  images : Registry (Counted SharedLoadedImage)
  /-- How the next steps that can fail will end. -/
  failures : List (Option Status)

/-- A function of the loader that may return a status other than `StatusOK`. -/
abbrev Load : Type → Type := Attempt LoaderState Status

namespace LoaderState

def releaseSharedImage (state : LoaderState) (id : ℕ) : LoaderState :=
  { state with images := state.images.drop id }

def destroyModule (state : LoaderState) (id : ℕ) : LoaderState :=
  match state.modules.lookup id with
  | none => state
  | some module =>
    { state with modules := state.modules.remove id }.releaseSharedImage module.value.sharedImage

/-- `reference_object` on a module. -/
def referenceModule (state : LoaderState) (id : ℕ) : LoaderState :=
  { state with modules := state.modules.take id }

/-- `dereference_object` on a module. -/
def dereferenceModule (state : LoaderState) (id : ℕ) : LoaderState :=
  if state.modules.references id = 1 then state.destroyModule id
  else { state with modules := state.modules.drop id }

/-- `release_dependencies_on_failure`. -/
def releaseDependencies (state : LoaderState) (dependencies : List ℕ) : LoaderState :=
  dependencies.foldl dereferenceModule state

/-- Write to a module. -/
def modifyModule (state : LoaderState) (id : ℕ) (change : LoadedModule → LoadedModule) :
    LoaderState :=
  { state with modules := state.modules.update id change }

/-- `find_module_by_path`: the last part of the path is enough for a match. -/
def findModuleByPath (state : LoaderState) (process : ℕ) (path : Option ModulePath) :
    Option (ℕ × Counted LoadedModule) :=
  path.bind fun path => state.modules.entries.find? fun (_, ⟨module, _⟩) =>
    module.ownerProcess = process ∧ (module.path = path ∨ module.path.basename = path.basename)

def findSharedImageByPath (state : LoaderState) (path : ModulePath) :
    Option (ℕ × Counted SharedLoadedImage) :=
  state.images.entries.find? fun (_, ⟨image, _⟩) => image.path = path

/-- `free_library`, and whether the process has to detach first. -/
def freeLibrary (state : LoaderState) (id : ℕ) : Bool × LoaderState :=
  match state.modules.lookup id with
  | none => (false, state)
  | some ⟨module, references⟩ =>
    if module.pendingProcessDetach then
      (false, (state.modifyModule id fun module =>
        { module with pendingProcessDetach := false }).dereferenceModule id)
    else if 1 < (references : ℕ) then (false, state.dereferenceModule id)
    else if module.backing.entryPoint then
      (true, state.modifyModule id fun module => { module with pendingProcessDetach := true })
    else (false, state.dereferenceModule id)

/-- `free_library` and the call that completes a detach. -/
def freeAndDetach (state : LoaderState) (id : ℕ) : LoaderState :=
  let (detach, freed) := state.freeLibrary id
  if detach then (freed.freeLibrary id).2 else freed

end LoaderState

/-- A step that may fail, or several with the same way out. -/
def step : Load Unit := fun state =>
  match state.failures with
  | some status :: rest => some (.error status, { state with failures := rest })
  | none :: rest => some (.ok (), { state with failures := rest })
  | [] => some (.ok (), state)

/-- A write to the loader's lists. -/
def write (update : LoaderState → LoaderState) : Load Unit := fun state =>
  some (.ok (), update state)

/-- `link_shared_image` on a new record. -/
def linkSharedImage (image : SharedLoadedImage) : Load ℕ := fun state =>
  some (.ok state.images.nextId, { state with images := state.images.insert (.once image) })

/-- `link_module` on a new record. -/
def linkModule (module : LoadedModule) : Load ℕ := fun state =>
  some (.ok state.modules.nextId, { state with modules := state.modules.insert (.once module) })

/-- `ensure_backing_dependencies_loaded`, which keeps each dependency once. -/
def ensureBackingDependenciesLoaded (ensure : Option ModulePath → Load ℕ) :
    List (Option ModulePath) → List ℕ → Load (List ℕ)
  | [], dependencies => pure dependencies
  | path :: rest, dependencies => do
    let dependency ← (ensure path).undoing (·.releaseDependencies dependencies)
    if dependency ∈ dependencies then ensureBackingDependenciesLoaded ensure rest dependencies
    else do
      step.undoing fun state =>
        (state.dereferenceModule dependency).releaseDependencies dependencies
      ensureBackingDependenciesLoaded ensure rest (dependencies ++ [dependency])

/-- The end of `load_new_module`: `create_loaded_module` and `map_module`. -/
def mapNewModule (process : ℕ) (explicitOpen : Bool) (dependencies : List ℕ) (image : ℕ)
    (path : ModulePath) (backing : ImageFile) : Load ℕ := do
  step.undoing fun state => (state.releaseSharedImage image).releaseDependencies dependencies
  let id ← linkModule ⟨process, path, backing, image, true, false⟩
  step.undoing fun state => (state.destroyModule id).releaseDependencies dependencies
  write (·.modifyModule id fun module =>
    { module with pendingProcessAttach := module.pendingProcessAttach && !explicitOpen })
  pure id

/-- `load_new_module` on a resident image. -/
def loadResidentModule (ensure : Option ModulePath → Load ℕ) (process : ℕ) (explicitOpen : Bool)
    (id : ℕ) (image : SharedLoadedImage) : Load ℕ := do
  Attempt.failIf (image.backing.library = false) .fault
  write fun state => { state with images := state.images.take id }
  let dependencies ← (ensureBackingDependenciesLoaded ensure image.backing.imports []).undoing
    (·.releaseSharedImage id)
  step.undoing fun state => (state.releaseDependencies dependencies).releaseSharedImage id
  mapNewModule process explicitOpen dependencies id image.path image.backing

/-- `load_new_module` on a file: it is read, its backing is allocated and filled, the
dependencies are loaded, and a base and the relocation follow, which fail without an undo. -/
def loadFileModule (files : ModulePath → Option ImageFile) (ensure : Option ModulePath → Load ℕ)
    (process : ℕ) (explicitOpen : Bool) (path : ModulePath) : Load ℕ := do
  step
  match files path with
  | none => Attempt.fail .notFound
  | some file => do
    Attempt.failIf (file.library = false) .invalidArgument
    step
    let dependencies ← ensureBackingDependenciesLoaded ensure file.imports []
    step
    step.undoing (·.releaseDependencies dependencies)
    let image ← linkSharedImage ⟨path, file⟩
    mapNewModule process explicitOpen dependencies image path file

def loadNewModule (files : ModulePath → Option ImageFile) (ensure : Option ModulePath → Load ℕ)
    (process : ℕ) (explicitOpen : Bool) : Option ModulePath → Load ℕ
  | none => Attempt.fail .invalidArgument
  | some path => fun state =>
    match state.findSharedImageByPath path with
    | some (id, image) => loadResidentModule ensure process explicitOpen id image.value state
    | none => loadFileModule files ensure process explicitOpen path state

/-- `ensure_library_loaded` with at most so many loads in one another. -/
def ensureLibraryLoaded (files : ModulePath → Option ImageFile) (process fuel : ℕ)
    (explicitOpen : Bool) (path : Option ModulePath) : Load ℕ := fun state =>
  match state.findModuleByPath process path with
  | some (id, module) =>
    some (.ok id, if explicitOpen ∧ module.value.pendingProcessAttach then
        state.modifyModule id fun module => { module with pendingProcessAttach := false }
      else state.referenceModule id)
  | none =>
    match fuel with
    | 0 => none
    | fuel + 1 =>
      loadNewModule files (ensureLibraryLoaded files process fuel false) process explicitOpen
        path state

def loadLibrary (files : ModulePath → Option ImageFile) (process fuel : ℕ) :
    Option ModulePath → Load ℕ :=
  ensureLibraryLoaded files process fuel true

/-! ## What a successful load does -/

section

variable {files : ModulePath → Option ImageFile} {ensure : Option ModulePath → Load ℕ}
  {process fuel id : ℕ} {explicitOpen : Bool} {state final : LoaderState}

theorem step_ok {value : Unit} (passed : step state = some (.ok value, final)) :
    final.modules = state.modules ∧ final.images = state.images := by
  unfold step at passed
  split at passed <;> cases passed <;> exact ⟨rfl, rfl⟩

/-- A module with one reference has been linked. -/
structure Links (state final : LoaderState) (id image : ℕ) : Prop where
  references : final.modules.references = state.modules.references + Pi.single id 1
  sole : final.modules.references id = 1
  images : final.images = state.images
  module : ∃ module, final.modules.lookup id = some module ∧ module.value.sharedImage = image

theorem mapNewModule_ok {dependencies : List ℕ} {image : ℕ} {path : ModulePath}
    {backing : ImageFile}
    (mapped : mapNewModule process explicitOpen dependencies image path backing state =
      some (.ok id, final)) : Links state final id image := by
  simp only [mapNewModule, Attempt.bind_eq_ok, Attempt.undoing_eq_ok] at mapped
  obtain ⟨_, _, created, _, _, linked, _, _, stepped, _, _, written, returned⟩ := mapped
  cases linked
  cases written
  cases returned
  obtain ⟨firstModules, firstImages⟩ := step_ok created
  obtain ⟨secondModules, secondImages⟩ := step_ok stepped
  refine ⟨?_, ?_, secondImages.trans firstImages, ?_⟩ <;>
    simp [LoaderState.modifyModule, secondModules, firstModules, Registry.references_insert]
  · simp [Registry.references]
  · simp [Registry.update, Registry.lookup_modify, Registry.lookup_insert]

/-- The imports of an image, resident or in its file. -/
def LoaderState.importsOf (state : LoaderState) (files : ModulePath → Option ImageFile)
    (path : ModulePath) : List (Option ModulePath) :=
  match state.findSharedImageByPath path with
  | some (_, image) => image.value.backing.imports
  | none => (files path).elim [] ImageFile.imports

/-- A module has been linked after its dependencies, with a reference on its image. -/
inductive LinksAfter (state final : LoaderState) (ensure : Option ModulePath → Load ℕ)
    (imports : List (Option ModulePath)) (id : ℕ) : Prop
  | intro {start middle later : LoaderState} {known : List ℕ} {image : ℕ}
      (ensured : ensureBackingDependenciesLoaded ensure imports [] start = some (.ok known, middle))
      (before : start.modules = state.modules) (after : later.modules = middle.modules)
      (links : Links later final id image)
      (images : imports = [] →
        later.images.references = state.images.references + Pi.single image 1)

theorem loadNewModule_ok {path : ModulePath}
    (loaded : loadNewModule files ensure process explicitOpen (some path) state =
      some (.ok id, final)) : LinksAfter state final ensure (state.importsOf files path) id := by
  simp only [loadNewModule] at loaded
  cases resident : state.findSharedImageByPath path with
  | some image =>
    have imports : state.importsOf files path = image.2.value.backing.imports := by
      rw [LoaderState.importsOf, resident]
    rw [imports]
    simp only [resident, loadResidentModule, Attempt.failIf_eq_ok, Attempt.bind_eq_ok,
      Attempt.undoing_eq_ok] at loaded
    obtain ⟨_, _, ⟨-, rfl⟩, _, _, written, _, middle, ensured, _, _, stepped, mapped⟩ := loaded
    cases written
    have later := step_ok stepped
    refine .intro ensured rfl later.1 (mapNewModule_ok mapped) fun leaf => ?_
    rw [leaf] at ensured
    cases ensured
    rw [later.2]
    exact Registry.references_take (Registry.lookup_of_mem _ (List.mem_of_find?_eq_some resident))
  | none =>
    simp only [resident, loadFileModule, Attempt.bind_eq_ok] at loaded
    obtain ⟨_, _, opened, loaded⟩ := loaded
    cases read : files path with
    | none => simp [read] at loaded
    | some file =>
      simp only [read, Attempt.failIf_eq_ok, Attempt.bind_eq_ok, Attempt.undoing_eq_ok] at loaded
      obtain ⟨_, _, ⟨-, rfl⟩, _, _, filled, _, _, ensured, _, _, based, _, _, recorded, _, _,
        linked, mapped⟩ := loaded
      cases linked
      have start := step_ok filled
      rw [(step_ok opened).1, (step_ok opened).2] at start
      have later := step_ok recorded
      rw [(step_ok based).1, (step_ok based).2] at later
      have imports : state.importsOf files path = file.imports := by
        rw [LoaderState.importsOf, resident, read]
        rfl
      rw [imports]
      have links := mapNewModule_ok mapped
      refine .intro ensured start.1 (by exact later.1) links fun leaf => ?_
      rw [leaf] at ensured
      cases ensured
      rw [← start.2, ← later.2]
      exact Registry.references_insert _ _

theorem ensureBackingDependenciesLoaded_le
    (takes : ∀ path state final id, ensure path state = some (.ok id, final) →
      state.modules.references + Pi.single id 1 ≤ final.modules.references)
    {imports : List (Option ModulePath)} {known loaded : List ℕ}
    (ensured : ensureBackingDependenciesLoaded ensure imports known state =
      some (.ok loaded, final)) :
    state.modules.references ≤ final.modules.references ∧
      (imports ≠ [] → state.modules.references ≠ final.modules.references) := by
  induction imports generalizing known state with
  | nil =>
    cases ensured
    exact ⟨le_rfl, fun nonempty => absurd rfl nonempty⟩
  | cons _ _ ih =>
    rw [ensureBackingDependenciesLoaded, Attempt.bind_eq_ok] at ensured
    obtain ⟨dependency, middle, first, others⟩ := ensured
    have taken := takes _ _ _ _ (Attempt.undoing_eq_ok.mp first)
    have later : middle.modules.references ≤ final.modules.references := by
      split at others
      · exact (ih others).1
      · rw [Attempt.bind_eq_ok] at others
        obtain ⟨_, _, stepped, others⟩ := others
        rw [← (step_ok (Attempt.undoing_eq_ok.mp stepped)).1]
        exact (ih others).1
    refine ⟨fun id => (Nat.le_add_right _ _).trans ((taken.trans later) id), fun _ same => ?_⟩
    have more := (taken.trans later) dependency
    simp [same] at more

/-- An implicit load takes a reference on the module it returns, and gives none back. -/
theorem ensureLibraryLoaded_le {path : Option ModulePath}
    (loaded : ensureLibraryLoaded files process fuel false path state = some (.ok id, final)) :
    state.modules.references + Pi.single id 1 ≤ final.modules.references := by
  induction fuel using Nat.strong_induction_on generalizing path state final id with
  | _ fuel ih =>
    unfold ensureLibraryLoaded at loaded
    split at loaded
    · rename_i found
      obtain ⟨_, _, found⟩ := Option.bind_eq_some_iff.mp found
      cases loaded
      exact (Registry.references_take
        (Registry.lookup_of_mem _ (List.mem_of_find?_eq_some found))).ge
    · cases fuel with
      | zero => cases loaded
      | succ fuel =>
        cases path with
        | none => cases loaded
        | some =>
          obtain ⟨ensured, before, after, links, -⟩ := loadNewModule_ok loaded
          have grown := (ensureBackingDependenciesLoaded_le
            (fun _ _ _ _ => ih fuel (Nat.lt_succ_self _)) ensured).1
          rw [links.references, after, ← before]
          exact fun other => Nat.add_le_add_right (grown other) _

/-! ## Freeing -/

/-- One reference on a module is given back, and with the last one that on its image. -/
structure GivesBack (before after : LoaderState) (id image : ℕ) : Prop where
  modules : after.modules.references + Pi.single id 1 = before.modules.references
  images : after.images = if before.modules.references id = 1 then before.images.drop image
    else before.images

variable {module : Counted LoadedModule} (found : state.modules.lookup id = some module)
include found

theorem givesBack_dereferenceModule :
    GivesBack state (state.dereferenceModule id) id module.value.sharedImage := by
  have dropped := Registry.references_drop found
  unfold LoaderState.dereferenceModule
  split
  · rename_i last
    have sole : module.references = 1 := by simpa [Registry.references, found] using last
    simp only [Registry.drop, found, if_pos sole] at dropped
    simp only [LoaderState.destroyModule, found]
    exact ⟨dropped, (if_pos last).symm⟩
  · rename_i several
    exact ⟨dropped, (if_neg several).symm⟩

theorem lookup_modifyModule (change : LoadedModule → LoadedModule) :
    (state.modifyModule id change).modules.lookup id =
      some { module with value := change module.value } := by
  simp [LoaderState.modifyModule, Registry.update, Registry.lookup_modify, found]

omit found in
theorem GivesBack.of_modifyModule {change : LoadedModule → LoadedModule} {image : ℕ}
    (given : GivesBack (state.modifyModule id change) final id image) :
    GivesBack state final id image := by
  obtain ⟨modules, images⟩ := given
  simp only [LoaderState.modifyModule, Registry.references_update] at modules images
  exact ⟨modules, images⟩

/-- A free and its detach give back one reference. -/
theorem givesBack_freeAndDetach :
    GivesBack state (state.freeAndDetach id) id module.value.sharedImage := by
  have detaching := lookup_modifyModule found fun module =>
    { module with pendingProcessDetach := true }
  unfold LoaderState.freeAndDetach LoaderState.freeLibrary
  simp only [found]
  split
  · exact (givesBack_dereferenceModule (lookup_modifyModule found _)).of_modifyModule
  split
  · exact givesBack_dereferenceModule found
  split
  · simp only [detaching, if_true]
    exact (givesBack_dereferenceModule
      (lookup_modifyModule detaching _)).of_modifyModule.of_modifyModule
  · exact givesBack_dereferenceModule found

omit found

/-! ## Load and free -/

/-- The same modules and images are loaded, with the same reference counts. -/
def Restored (before after : LoaderState) : Prop :=
  after.modules.references = before.modules.references ∧
    after.images.references = before.images.references

/-- A load and its free cancel out on a loaded module that its process has attached, and on an
image without imports. -/
def LoaderState.Cancels (state : LoaderState) (files : ModulePath → Option ImageFile)
    (process : ℕ) (path : Option ModulePath) : Prop :=
  match state.findModuleByPath process path with
  | some (_, module) => module.value.pendingProcessAttach = false
  | none => path.elim [] (state.importsOf files) = []

/-- A load and the free of its module restore the references exactly under `Cancels`. -/
theorem loadLibrary_freeAndDetach_iff {path : Option ModulePath}
    (loaded : loadLibrary files process fuel path state = some (.ok id, final)) :
    Restored state (final.freeAndDetach id) ↔ state.Cancels files process path := by
  unfold loadLibrary ensureLibraryLoaded at loaded
  unfold LoaderState.Cancels
  split at loaded
  · rename_i module matched
    obtain ⟨_, _, found⟩ := Option.bind_eq_some_iff.mp matched
    replace found := state.modules.lookup_of_mem (List.mem_of_find?_eq_some found)
    cases loaded
    split
    · -- The module was handed out without a reference.
      rename_i pending
      have given := givesBack_freeAndDetach (lookup_modifyModule found fun module =>
        { module with pendingProcessAttach := false })
      refine iff_of_false (fun restored => ?_) (by simp [pending])
      have missed := congrFun given.modules id
      rw [restored.1] at missed
      simp [LoaderState.modifyModule] at missed
    · rename_i known
      have taken : (state.referenceModule id).modules.lookup id =
          some { module with references := module.references + 1 } := by
        simp [LoaderState.referenceModule, Registry.take, Registry.lookup_modify, found]
      have given := givesBack_freeAndDetach taken
      refine iff_of_true ⟨?_, ?_⟩ (by simpa using known)
      · exact add_right_cancel (given.modules.trans (Registry.references_take found))
      · rw [given.images, if_neg]
        · rfl
        · simp [Registry.references, taken]
  · cases fuel with
    | zero => cases loaded
    | succ =>
      cases path with
      | none => cases loaded
      | some path =>
        obtain ⟨ensured, before, after, links, images⟩ := loadNewModule_ok loaded
        obtain ⟨_, found, rfl⟩ := links.module
        have given := givesBack_freeAndDetach found
        have back := add_right_cancel (given.modules.trans links.references)
        rw [after] at back
        constructor
        · intro restored
          by_contra imported
          apply (ensureBackingDependenciesLoaded_le
            (fun _ _ _ _ => ensureLibraryLoaded_le) ensured).2 imported
          rw [before, ← back, restored.1]
        · intro leaf
          change state.importsOf files path = [] at leaf
          refine ⟨?_, ?_⟩
          · rw [leaf] at ensured
            cases ensured
            rw [back, before]
          · rw [given.images, if_pos links.sole, links.images]
            exact Registry.references_drop_of_eq (images leaf)

end

/-- A library that imports another one, and the other one. -/
def twoFiles (path : ModulePath) : Option ImageFile :=
  if path = ⟨0, 0⟩ then some ⟨true, [some ⟨0, 1⟩], false⟩
  else if path = ⟨0, 1⟩ then some ⟨true, [], true⟩
  else none

/-- No module is loaded. -/
def LoaderState.initial : LoaderState := ⟨.empty 1, .empty 1, []⟩

/-- A library without imports. -/
theorem loadLibrary_freeAndDetach_leaf :
    ∃ final, loadLibrary twoFiles 7 1 (some ⟨0, 1⟩) .initial = some (.ok 1, final) ∧
      Restored .initial (final.freeAndDetach 1) := by
  have loaded : loadLibrary twoFiles 7 1 (some ⟨0, 1⟩) .initial = some (.ok 1, _) := rfl
  exact ⟨_, loaded, (loadLibrary_freeAndDetach_iff loaded).mpr rfl⟩

/-- The dependency stays behind. -/
theorem loadLibrary_freeAndDetach_leaks :
    ∃ final, loadLibrary twoFiles 7 2 (some ⟨0, 0⟩) .initial = some (.ok 2, final) ∧
      ¬ Restored .initial (final.freeAndDetach 2) :=
  ⟨_, rfl, fun restored => absurd (congrFun restored.1 1) (by decide)⟩

end RosKernel.ModuleReferences
