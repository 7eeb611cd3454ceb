import RosKernel.Status
import Mathlib.Data.List.Basic

/-!
# Path lookup on a FAT32 volume

The walk of `fat32_lookup` through the directories of a mounted volume (`fat32.cpp`), on
directory slots whose names are decoded. A step back to the parent leads there exactly when the
`..` entry does not store the cluster number 0.
-/

namespace RosKernel.Fat32

open List

/-- The bytes of a name. -/
abbrev Name := List Char

/-- `fat32_same_text_case_insensitive`. -/
def sameText (left right : Name) : Bool := left.map Char.toUpper = right.map Char.toUpper

/-- `Fat32DirectoryRecord`: a short entry, where it lies and the long name before it. -/
structure DirectoryRecord where
  shortName : Name
  longName : Option Name
  attributes : ℕ
  cluster : ℕ
  size : ℕ
  sectorLba : ℕ
  sectorOffset : ℕ

/-- A slot of a directory cluster. -/
inductive Slot
  /-- `Fat32DirEntryUnused`: the directory ends here. -/
  | unused
  /-- A deleted slot, a part of a long name or the volume label. -/
  | skipped
  | entry (record : DirectoryRecord)

/-- `FilesystemNode`, with the place of the entry as its private data. -/
structure Node where
  identifier : ℕ
  sizeBytes : ℕ
  mode : ℕ
  isDirectory : Bool
  entrySectorLba : ℕ
  entrySectorOffset : ℕ

def attributeDirectory : ℕ := 0x10

/-- `fat32_populate_filesystem_node`. -/
def DirectoryRecord.node (record : DirectoryRecord) : Node :=
  ⟨record.cluster, record.size, record.attributes, record.attributes &&& attributeDirectory ≠ 0,
    record.sectorLba, record.sectorOffset⟩

/-- `fat32_record_matches_component`. -/
def DirectoryRecord.matchesComponent (record : DirectoryRecord) (component : Name) : Bool :=
  sameText record.shortName component ∨
    record.longName.any fun longName => sameText longName component

def clusterEnd : ℕ := 0x0FFFFFF8

def clusterBad : ℕ := 0x0FFFFFF7

def longNameCapacity : ℕ := 256

/-- The slots of one cluster in `fat32_scan_directory`; `none` leads to the next cluster. -/
def visitSlots (component : Name) : List Slot → Option (Except Status DirectoryRecord)
  | [] => none
  | .unused :: _ => some (.error .notFound)
  | .skipped :: rest => visitSlots component rest
  | .entry record :: rest =>
    if record.matchesComponent component then some (.ok record) else visitSlots component rest

/-- A mounted volume: `fat32_read_fat_entry` and the slots of each cluster. -/
structure Volume where
  rootCluster : ℕ
  clusterCount : ℕ
  fatEntry : ℕ → ℕ
  slots : ℕ → List Slot

namespace Volume

section

variable (volume : Volume)

/-- `fat32_scan_directory` with `fat32_lookup_visitor`; `none` if the cluster chain does not
end. -/
def scanDirectory (component : Name) : ℕ → ℕ → Option (Except Status DirectoryRecord)
  | 0, _ => none
  | fuel + 1, cluster =>
    match visitSlots component (volume.slots cluster) with
    | some result => some result
    | none =>
      let next := volume.fatEntry cluster
      if clusterEnd ≤ next then some (.error .notFound)
      else if next < 2 ∨ next = clusterBad then some (.error .ioError)
      else scanDirectory component fuel next

def findDirectoryEntry (cluster : ℕ) (component : Name) :
    Option (Except Status DirectoryRecord) :=
  if component = [] then some (.error .invalidArgument)
  else if cluster < 2 ∨ clusterEnd ≤ cluster then some (.error .notFound)
  else volume.scanDirectory component (volume.clusterCount + 1) cluster

/-- The loop of `fat32_lookup` from one directory on, over the components that
`fat32_copy_next_component` cuts from the path. -/
def lookupFrom (node : Node) : List Name → Option (Except Status Node)
  | [] => some (.ok node)
  | component :: rest =>
    if component = [] then some (.error .invalidArgument)
    else if longNameCapacity ≤ component.length then some (.error .noSpace)
    else
      match volume.findDirectoryEntry node.identifier component with
      | none => none
      | some (.error status) => some (.error status)
      | some (.ok record) =>
        if rest ≠ [] ∧ !record.node.isDirectory then some (.error .notFound)
        else lookupFrom record.node rest

/-- `fat32_lookup`; the empty path is the root. -/
def lookup : List Name → Option (Except Status Node) :=
  volume.lookupFrom ⟨volume.rootCluster, 0, attributeDirectory, true, 0, 0⟩

/-- A path leads to a directory. -/
def DirectoryAt (path : List Name) (node : Node) : Prop :=
  volume.lookup path = some (.ok node) ∧ node.isDirectory

end

/-- The name of the entry for the parent. -/
def dotDot : Name := ['.', '.']

/-- A directory has the entry `..`, which stores the cluster of its parent, or 0 if that is the
root. `fat32_initialize_directory_cluster` stores the cluster of the root as well. -/
def StandardDots (volume : Volume) (parent child : Node) : Prop :=
  ∃ record, volume.findDirectoryEntry child.identifier dotDot = some (.ok record) ∧
    record.node.isDirectory ∧ (record.cluster = parent.identifier ∨
      parent.identifier = volume.rootCluster ∧ record.cluster = 0)

variable {volume : Volume} {node reached : Node} {path rest : List Name} {component : Name}

/-- One step of the walk. -/
theorem lookupFrom_cons_eq_ok
    (found : volume.lookupFrom node (component :: rest) = some (.ok reached)) :
    component ≠ [] ∧ component.length < longNameCapacity ∧
    ∃ record, volume.findDirectoryEntry node.identifier component = some (.ok record) ∧
      (rest ≠ [] → record.node.isDirectory) ∧
      volume.lookupFrom record.node rest = some (.ok reached) := by
  rw [lookupFrom] at found
  split at found
  · cases found
  rename_i named
  split at found
  · cases found
  rename_i short
  refine ⟨named, Nat.lt_of_not_le short, ?_⟩
  split at found
  · cases found
  · cases found
  · rename_i record entry
    split at found
    · cases found
    · rename_i passed
      refine ⟨record, entry, ?_, found⟩
      intro more
      by_contra file
      exact passed ⟨more, by simpa using file⟩

theorem lookupFrom_cons {record : DirectoryRecord} (named : component ≠ [])
    (short : component.length < longNameCapacity)
    (entry : volume.findDirectoryEntry node.identifier component = some (.ok record))
    (directory : record.node.isDirectory) :
    volume.lookupFrom node (component :: rest) = volume.lookupFrom record.node rest := by
  rw [lookupFrom, if_neg named, if_neg (Nat.not_le.mpr short), entry]
  simp [directory]

/-- A path goes on from the directory that its beginning leads to. -/
theorem lookupFrom_append (found : volume.lookupFrom node path = some (.ok reached))
    (directory : reached.isDirectory) :
    volume.lookupFrom node (path ++ rest) = volume.lookupFrom reached rest := by
  induction path generalizing node with
  | nil =>
    cases found
    rfl
  | cons component path ih =>
    obtain ⟨named, short, record, entry, passed, found⟩ := lookupFrom_cons_eq_ok found
    have entered : record.node.isDirectory := by
      cases path with
      | nil =>
        cases found
        exact directory
      | cons => exact passed (cons_ne_nil _ _)
    rw [cons_append, lookupFrom_cons named short entry entered]
    exact ih found

/-- A walk that goes on depends on the cluster it starts in. -/
theorem lookupFrom_congr (same : node.identifier = reached.identifier) (more : path ≠ []) :
    volume.lookupFrom node path = volume.lookupFrom reached path := by
  cases path with
  | nil => exact absurd rfl more
  | cons => rw [lookupFrom, lookupFrom, same]

/-- A path through a directory and back by `..` is the path from the parent, for every
continuation, exactly when the `..` entry of the directory does not store 0. -/
theorem lookup_dotDot_iff {parent : List Name} {name : Name} {child : Node}
    (above : volume.DirectoryAt parent node) (below : volume.DirectoryAt (parent ++ [name]) child)
    (standard : volume.StandardDots node child) :
    (∀ path ≠ [], volume.lookup (parent ++ [name] ++ dotDot :: path) =
      volume.lookup (parent ++ path)) ↔
    ∀ record, volume.findDirectoryEntry child.identifier dotDot = some (.ok record) →
      record.cluster ≠ 0 := by
  obtain ⟨record, entry, directory, cluster⟩ := standard
  have back (path : List Name) : volume.lookup (parent ++ [name] ++ dotDot :: path) =
      volume.lookupFrom record.node path := by
    rw [lookup, lookupFrom_append below.1 below.2]
    exact lookupFrom_cons (by decide) (by decide) entry directory
  constructor
  · intro resolves _ again zero
    cases entry.symm.trans again
    -- The directory itself lies in the parent, while the scan of cluster 0 finds nothing.
    have same := resolves [name] (cons_ne_nil _ _)
    rw [back, below.1] at same
    obtain ⟨_, _, _, missing, _⟩ := lookupFrom_cons_eq_ok same
    rw [findDirectoryEntry, DirectoryRecord.node, zero] at missing
    split at missing <;> cases missing
  · intro nonzero path more
    rw [back, lookup, lookupFrom_append above.1 above.2]
    refine lookupFrom_congr ?_ more
    rcases cluster with parentCluster | ⟨_, zero⟩
    · exact parentCluster
    · exact absurd zero (nonzero record entry)

/-- A volume with one directory `A` in its root, whose `..` entry stores some cluster. -/
def sample (parentCluster : ℕ) : Volume where
  rootCluster := 2
  clusterCount := 2
  fatEntry _ := clusterEnd
  slots cluster :=
    if cluster = 2 then [.entry ⟨['A'], none, attributeDirectory, 3, 0, 0, 0⟩]
    else [.entry ⟨dotDot, none, attributeDirectory, parentCluster, 0, 0, 0⟩]

/-- `A` as `fat32_create` makes it. -/
theorem lookup_dotDot_iff_created :
    (sample 2).lookup [['A'], dotDot, ['A']] = (sample 2).lookup [['A']] := by
  have below : (sample 2).DirectoryAt [['A']] ⟨3, 0, attributeDirectory, true, 0, 0⟩ := ⟨rfl, rfl⟩
  refine (@lookup_dotDot_iff _ _ [] _ _ ⟨rfl, rfl⟩ below ⟨⟨dotDot, none, _, 2, 0, 0, 0⟩, rfl, rfl,
    .inl rfl⟩).mpr ?_ [['A']] (cons_ne_nil _ _)
  rintro _ ⟨⟩
  decide

/-- With the standard cluster 0, `A` is not found from `A/..`. -/
theorem lookup_dotDot_fails :
    (sample 0).DirectoryAt [['A']] ⟨3, 0, attributeDirectory, true, 0, 0⟩ ∧
    (sample 0).StandardDots ⟨2, 0, attributeDirectory, true, 0, 0⟩
      ⟨3, 0, attributeDirectory, true, 0, 0⟩ ∧
    (sample 0).lookup [['A'], dotDot, ['A']] ≠ (sample 0).lookup [['A']] :=
  ⟨⟨rfl, rfl⟩, ⟨⟨dotDot, none, _, 0, 0, 0, 0⟩, rfl, rfl, .inr ⟨rfl, rfl⟩⟩, nofun⟩

end Volume

end RosKernel.Fat32
