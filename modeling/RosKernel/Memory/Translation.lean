import RosKernel.Memory.RecordPool

/-!
# Address translation inside one 2 MiB range

What a user access reaches, and what `MemoryManager::map` and `unmap` do to a
level-2 entry when they are called page by page inside its 2 MiB range. The
services that place views at fixed 2 MiB slots only ever use them that way.
-/

namespace RosKernel.Memory

/-- The physical address a user access reaches. -/
def AddressSpace.translate (space : AddressSpace) (address : ℕ) : Option ℕ :=
  match resolveLevel2Entry space address with
  | none => none
  | some index =>
    match space.levelTwo index with
    | .invalid => none
    | .block phys _ => some (phys + address % l2BlockSize)
    | .table entries =>
      (entries (levelIndex address 12)).map fun entry => entry.1 + address % pageSize

/-- Rewrite one level-2 descriptor of one process. -/
def withDescriptor (spaces : ℕ → AddressSpace) (process index : ℕ) (descriptor : Descriptor) :
    ℕ → AddressSpace :=
  Function.update spaces process
    { spaces process with
      levelTwo := Function.update (spaces process).levelTwo index descriptor }

section

variable {spaces : ℕ → AddressSpace} {process other index otherIndex : ℕ}
variable {descriptor : Descriptor}

@[simp] theorem spaces_setDescriptor (machine : Machine) (process index : ℕ)
    (descriptor : Descriptor) :
    (machine.setDescriptor process index descriptor).spaces =
      withDescriptor machine.spaces process index descriptor :=
  rfl

@[simp] theorem hasRoot_withDescriptor :
    (withDescriptor spaces process index descriptor other).hasRoot = (spaces other).hasRoot := by
  unfold withDescriptor
  by_cases same : other = process
  · subst same
    simp
  · simp [same]

@[simp] theorem levelTwo_withDescriptor_self :
    (withDescriptor spaces process index descriptor process).levelTwo index = descriptor := by
  simp [withDescriptor]

theorem levelTwo_withDescriptor_of_ne (ne : ¬(other = process ∧ otherIndex = index)) :
    (withDescriptor spaces process index descriptor other).levelTwo otherIndex =
      (spaces other).levelTwo otherIndex := by
  unfold withDescriptor
  by_cases same : other = process
  · subst same
    have elsewhere : otherIndex ≠ index := fun equal => ne ⟨rfl, equal⟩
    simp [elsewhere]
  · simp [same]

@[simp] theorem withDescriptor_withDescriptor {first : Descriptor} :
    withDescriptor (withDescriptor spaces process index first) process index descriptor =
      withDescriptor spaces process index descriptor := by
  simp [withDescriptor]

theorem withDescriptor_eq_self (present : (spaces process).levelTwo index = descriptor) :
    withDescriptor spaces process index descriptor = spaces := by
  subst present
  simp [withDescriptor]

end

/-! ## Addresses of a 2 MiB range -/

variable {entries : ℕ → Option (ℕ × MapFlags)}

section

variable {space : AddressSpace} {index offset : ℕ}

theorem resolveLevel2Entry_range (root : space.hasRoot = true) (bound : index < tableEntries)
    (inside : offset < l2BlockSize) :
    resolveLevel2Entry space (index * l2BlockSize + offset) = some index := by
  unfold tableEntries at bound
  unfold l2BlockSize at inside ⊢
  have top : levelIndex (index * 0x200000 + offset) 39 = 0 := by
    unfold levelIndex tableEntries
    omega
  have middle : levelIndex (index * 0x200000 + offset) 30 = 0 := by
    unfold levelIndex tableEntries
    omega
  have low : levelIndex (index * 0x200000 + offset) 21 = index := by
    unfold levelIndex tableEntries
    omega
  simp [resolveLevel2Entry, root, top, middle, low]

theorem levelIndex_range (bound : offset < tableEntries) :
    levelIndex (index * l2BlockSize + offset * pageSize) 12 = offset := by
  unfold tableEntries at bound
  unfold levelIndex tableEntries l2BlockSize pageSize
  omega

theorem pageOffset_lt_l2BlockSize (bound : offset < tableEntries) :
    offset * pageSize < l2BlockSize := by
  unfold tableEntries at bound
  unfold pageSize l2BlockSize
  omega

/-- A page of a range with a level-3 table goes where its entry says. -/
theorem translate_table (root : space.hasRoot = true) (bound : index < tableEntries)
    (table : space.levelTwo index = .table entries) (inside : offset < tableEntries) :
    space.translate (index * l2BlockSize + offset * pageSize) = (entries offset).map Prod.fst := by
  have aligned : (index * l2BlockSize + offset * pageSize) % pageSize = 0 := by
    unfold l2BlockSize pageSize
    omega
  rw [AddressSpace.translate,
    resolveLevel2Entry_range root bound (pageOffset_lt_l2BlockSize inside)]
  simp only [table, levelIndex_range inside, aligned, Nat.add_zero]

/-- No address of a range without a descriptor is reachable. -/
theorem translate_invalid (root : space.hasRoot = true) (bound : index < tableEntries)
    (invalid : space.levelTwo index = .invalid) (inside : offset < l2BlockSize) :
    space.translate (index * l2BlockSize + offset) = none := by
  rw [AddressSpace.translate, resolveLevel2Entry_range root bound inside]
  simp only [invalid]

end

/-! ## Steps that leave the page tables alone -/

@[simp] theorem spaces_allocPage (machine : Machine) :
    machine.allocPage.2.spaces = machine.spaces :=
  rfl

@[simp] theorem spaces_heapAppendGrowth (machine : Machine) (pageCount : ℕ) (appended : Bool) :
    (machine.heapAppendGrowth pageCount appended).spaces = machine.spaces := by
  unfold Machine.heapAppendGrowth
  dsimp only
  split
  · rfl
  split <;> rfl

@[simp] theorem spaces_heapAlloc (machine : Machine) :
    machine.heapAlloc.2.spaces = machine.spaces := by
  unfold Machine.heapAlloc
  split
  · rfl
  · exact spaces_heapAppendGrowth machine _ _

namespace RecordPool

theorem pageInvariant_spaces (spaces : ℕ → AddressSpace) :
    Machine.PageInvariant fun machine => machine.spaces = spaces :=
  ⟨fun _ same => same, fun _ _ same => same⟩

@[simp] theorem spaces_allocate (pool : RecordPool) (machine : Machine) :
    (pool.allocate machine).2.2.spaces = machine.spaces :=
  kept_allocate (pageInvariant_spaces _) rfl pool

@[simp] theorem spaces_free (pool : RecordPool) (machine : Machine) (slot : Slot) :
    (pool.free machine slot).2.spaces = machine.spaces :=
  kept_free (pageInvariant_spaces _) rfl pool slot

end RecordPool

/-! ## Finding the level-3 table -/

section

variable {machine : Machine} {process index offset : ℕ}

theorem resolveLevel3Entry_table
    (root : (machine.spaces process).hasRoot = true) (bound : index < tableEntries)
    (table : (machine.spaces process).levelTwo index = .table entries)
    (inside : offset < l2BlockSize) (createMissing : Bool) :
    resolveLevel3Entry machine process (index * l2BlockSize + offset) createMissing =
      (.ok index, machine) := by
  simp only [resolveLevel3Entry, resolveLevel2Entry_range root bound inside, table]

theorem resolveLevel3Entry_create
    (root : (machine.spaces process).hasRoot = true) (bound : index < tableEntries)
    (noTable : ∀ entries, (machine.spaces process).levelTwo index ≠ .table entries)
    (inside : offset < l2BlockSize) :
    resolveLevel3Entry machine process (index * l2BlockSize + offset) true =
      match machine.heapAlloc with
      | (true, served) => (.ok index, served.setDescriptor process index (.table fun _ => none))
      | (false, refused) => (.error .noMemory, refused) := by
  simp only [resolveLevel3Entry, resolveLevel2Entry_range root bound inside]
  cases descriptor : (machine.spaces process).levelTwo index with
  | table entries => exact absurd descriptor (noTable entries)
  | invalid | block => rfl

theorem resolveLevel3Entry_noRoot (rootless : (machine.spaces process).hasRoot = false)
    (address : ℕ) (createMissing : Bool) :
    resolveLevel3Entry machine process address createMissing = (.error .notSupported, machine) := by
  simp [resolveLevel3Entry, resolveLevel2Entry, rootless]

end

/-! ## Mapping one page -/

section

variable {machine : Machine} {process index offset phys : ℕ} {flags : MapFlags}

/-- `MemoryManager::map` of one page takes the page path. -/
theorem map_onePage (aligned : phys % pageSize = 0) (offset : ℕ) :
    map machine process ⟨index * l2BlockSize + offset * pageSize, phys, pageSize, flags⟩ =
      mapPages machine process ⟨index * l2BlockSize + offset * pageSize, phys, pageSize, flags⟩
        0 1 := by
  have virtualAligned : (index * l2BlockSize + offset * pageSize) % pageSize = 0 := by
    unfold l2BlockSize pageSize
    omega
  have notBlock : ¬pageSize % l2BlockSize = 0 := by decide
  have nonzero : ¬pageSize = 0 := by decide
  have one : pageSize / pageSize = 1 := by decide
  simp [map, aligned, virtualAligned, notBlock, nonzero, one]

/-- Mapping a page into a range that has its table writes one entry. -/
theorem map_onePage_table
    (root : (machine.spaces process).hasRoot = true) (bound : index < tableEntries)
    (table : (machine.spaces process).levelTwo index = .table entries)
    (inside : offset < tableEntries) (aligned : phys % pageSize = 0) :
    ∃ mapped, map machine process ⟨index * l2BlockSize + offset * pageSize, phys, pageSize, flags⟩ =
        (.ok, mapped) ∧
      mapped.spaces = withDescriptor machine.spaces process index
        (.table (Function.update entries offset (some (phys, flags)))) := by
  have resolved := resolveLevel3Entry_table root bound table (pageOffset_lt_l2BlockSize inside) true
  rw [map_onePage aligned]
  simp only [mapPages, Nat.add_zero, resolved, table, writeLevel3Entry, levelIndex_range inside]
  exact ⟨_, rfl, rfl⟩

/-- Mapping a page into a range without a table creates the table, or changes no
page table when the heap has no memory for it. -/
theorem map_onePage_noTable
    (root : (machine.spaces process).hasRoot = true) (bound : index < tableEntries)
    (noTable : ∀ entries, (machine.spaces process).levelTwo index ≠ .table entries)
    (inside : offset < tableEntries) (aligned : phys % pageSize = 0) :
    (∃ mapped,
      map machine process ⟨index * l2BlockSize + offset * pageSize, phys, pageSize, flags⟩ =
        (.ok, mapped) ∧
      mapped.spaces = withDescriptor machine.spaces process index
        (.table (Function.update (fun _ => none) offset (some (phys, flags))))) ∨
    ∃ failed, map machine process ⟨index * l2BlockSize + offset * pageSize, phys, pageSize, flags⟩ =
        (.noMemory, failed) ∧
      failed.spaces = machine.spaces := by
  have created := resolveLevel3Entry_create root bound noTable (pageOffset_lt_l2BlockSize inside)
  have unchanged := spaces_heapAlloc machine
  rw [map_onePage aligned]
  rcases call : machine.heapAlloc with ⟨served, _⟩
  rw [call] at created unchanged
  cases served with
  | true =>
    left
    simp only [mapPages, Nat.add_zero, created, writeLevel3Entry, spaces_setDescriptor,
      levelTwo_withDescriptor_self, levelIndex_range inside]
    refine ⟨_, rfl, ?_⟩
    rw [spaces_setDescriptor, spaces_setDescriptor, withDescriptor_withDescriptor]
    exact congrArg (withDescriptor · process index _) unchanged
  | false =>
    right
    simp only [mapPages, Nat.add_zero, created]
    exact ⟨_, rfl, unchanged⟩

/-- Mapping a page into a process without an address space changes nothing. -/
theorem map_onePage_noRoot (rootless : (machine.spaces process).hasRoot = false)
    (aligned : phys % pageSize = 0) :
    map machine process ⟨index * l2BlockSize + offset * pageSize, phys, pageSize, flags⟩ =
      (.notSupported, machine) := by
  rw [map_onePage aligned]
  simp only [mapPages, resolveLevel3Entry_noRoot rootless]

end

/-! ## Mapping a run of pages inside one range -/

section

variable {process index : ℕ} {mapping : VmMapping} {entries : ℕ → Option (ℕ × MapFlags)}
    (machine : Machine) (bound : index < tableEntries)
    (base : mapping.virtualBase = index * l2BlockSize)
include bound base

/-- With the table of the range in place the page loop of `map` writes its entries and
cannot fail. -/
theorem mapPages_table (first count : ℕ) (root : (machine.spaces process).hasRoot = true)
    (table : (machine.spaces process).levelTwo index = .table entries)
    (inside : first + count ≤ tableEntries) :
    ∃ mapped, mapPages machine process mapping (first * pageSize) count = (.ok, mapped) ∧
      mapped.spaces = withDescriptor machine.spaces process index
        (.table fun entry => if first ≤ entry ∧ entry < first + count then
          some (mapping.physicalBase + entry * pageSize, mapping.flags) else entries entry) := by
  induction count generalizing machine entries first with
  | zero =>
    refine ⟨machine, rfl, ?_⟩
    rw [withDescriptor_eq_self]
    rw [table]
    congr 1
    funext entry
    rw [if_neg (by omega)]
  | succ _ ih =>
    have here : first < tableEntries := by omega
    have resolved := resolveLevel3Entry_table root bound table (pageOffset_lt_l2BlockSize here) true
    have next : first * pageSize + pageSize = (first + 1) * pageSize := by
      rw [Nat.add_mul, Nat.one_mul]
    simp only [mapPages, base, resolved, table, writeLevel3Entry, levelIndex_range here, next]
    obtain ⟨mapped, run, spaces⟩ := ih
      (machine.setDescriptor process index (.table (Function.update entries first
        (some (mapping.physicalBase + first * pageSize, mapping.flags)))))
      (first + 1) (by simpa using root) levelTwo_withDescriptor_self (by omega)
    refine ⟨mapped, run, ?_⟩
    rw [spaces, spaces_setDescriptor, withDescriptor_withDescriptor]
    congr 2
    funext entry
    by_cases same : entry = first
    · subst same
      simp
    · rw [Function.update_of_ne same]
      refine if_congr ?_ rfl rfl
      omega

/-- A page loop inside one range that fails stopped before its first page. -/
theorem mapPages_range_failed (count : ℕ) (inside : count + 1 ≤ tableEntries)
    (failed : (mapPages machine process mapping 0 (count + 1)).1 ≠ .ok) :
    (mapPages machine process mapping 0 (count + 1)).2 = machine ∨ machine.heapAlloc.1 = false ∧
        (mapPages machine process mapping 0 (count + 1)).2 = machine.heapAlloc.2 := by
  have start : 0 < l2BlockSize := by decide
  have never : ∀ (other : Machine) (entries : ℕ → Option (ℕ × MapFlags)),
      (other.spaces process).hasRoot = true →
      (other.spaces process).levelTwo index = .table entries →
      (mapPages other process mapping 0 (count + 1)).1 = .ok := by
    intro other entries root table
    obtain ⟨_, run, _⟩ := mapPages_table other bound base 0 (count + 1) root table (by omega)
    rw [Nat.zero_mul] at run
    rw [run]
  cases root : (machine.spaces process).hasRoot with
  | false => exact .inl (by simp only [mapPages, resolveLevel3Entry_noRoot root])
  | true =>
    by_cases table : ∃ entries, (machine.spaces process).levelTwo index = .table entries
    · obtain ⟨entries, table⟩ := table
      exact absurd (never machine entries root table) failed
    · have created := resolveLevel3Entry_create root bound (not_exists.mp table) start
      rw [← base] at created
      have unchanged := spaces_heapAlloc machine
      rcases call : machine.heapAlloc with ⟨served, after⟩
      rw [call] at created unchanged
      cases served with
      | false =>
        right
        rw [mapPages, created]
        exact ⟨rfl, rfl⟩
      | true =>
        -- With the new table in place the loop cannot stop.
        have rooted : ((after.setDescriptor process index
            (.table fun _ => none)).spaces process).hasRoot = true := by
          rw [spaces_setDescriptor, hasRoot_withDescriptor, unchanged]
          exact root
        have again := resolveLevel3Entry_table rooted bound levelTwo_withDescriptor_self start true
        rw [← base] at again
        have loop : mapPages machine process mapping 0 (count + 1) =
            mapPages (after.setDescriptor process index (.table fun _ => none)) process mapping
              0 (count + 1) := by
          rw [mapPages, created, mapPages, again]
        rw [loop] at failed
        exact absurd (never _ _ rooted levelTwo_withDescriptor_self) failed

/-- A `map` inside one range that fails has written no descriptor: it stopped before
the first page, at most after the heap refused the page table. -/
theorem map_range_failed (positive : 0 < mapping.length)
    (whole : mapping.length % pageSize = 0) (inside : mapping.length ≤ l2BlockSize)
    (failed : (map machine process mapping).1 ≠ .ok) :
    (map machine process mapping).2 = machine ∨
      machine.heapAlloc.1 = false ∧ (map machine process mapping).2 = machine.heapAlloc.2 := by
  obtain ⟨count, pages⟩ : ∃ count, mapping.length / pageSize = count + 1 := by
    refine ⟨mapping.length / pageSize - 1, ?_⟩
    unfold pageSize at *
    omega
  have few : count + 1 ≤ tableEntries := by
    rw [← pages]
    unfold pageSize tableEntries
    unfold l2BlockSize at inside
    omega
  unfold map at failed ⊢
  split
  · exact .inl rfl
  split
  · exact .inl rfl
  rename_i nonempty aligned
  rw [if_neg nonempty, if_neg aligned] at failed
  split
  · rename_i block
    have single : mapping.length / l2BlockSize = 1 := by
      unfold l2BlockSize at *
      omega
    rw [if_pos block, single] at failed
    rw [single]
    unfold mapBlocks at failed ⊢
    split
    · exact .inl rfl
    · rename_i found
      rw [found] at failed
      exact absurd rfl failed
  · rename_i paged
    rw [if_neg paged, pages] at failed
    rw [pages]
    exact mapPages_range_failed machine bound base count few failed

end

/-! ## Unmapping pages of one range -/

variable {machine : Machine} {process index : ℕ} {entries : ℕ → Option (ℕ × MapFlags)}

/-- The page loop of `unmap` inside one range clears the entries it visits. -/
theorem unmapPages_table (machine : Machine) (first count : ℕ)
    (root : (machine.spaces process).hasRoot = true) (bound : index < tableEntries)
    (table : (machine.spaces process).levelTwo index = .table entries)
    (inside : first + count ≤ tableEntries) :
    ∃ cleared,
      unmapPages machine process (index * l2BlockSize + first * pageSize) count = (.ok, cleared) ∧
      cleared.spaces = withDescriptor machine.spaces process index
        (.table fun entry => if first ≤ entry ∧ entry < first + count then none
          else entries entry) := by
  induction count generalizing machine entries first with
  | zero =>
    refine ⟨machine, rfl, ?_⟩
    rw [withDescriptor_eq_self]
    rw [table]
    congr 1
    funext entry
    rw [if_neg (by omega)]
  | succ _ ih =>
    have here : first < tableEntries := by omega
    have resolved := resolveLevel3Entry_table root bound table (pageOffset_lt_l2BlockSize here)
      false
    have next : index * l2BlockSize + first * pageSize + pageSize =
        index * l2BlockSize + (first + 1) * pageSize := by
      rw [Nat.add_mul, Nat.one_mul, Nat.add_assoc]
    simp only [unmapPages, resolved, table, writeLevel3Entry, levelIndex_range here, next]
    obtain ⟨cleared, run, spaces⟩ := ih
      (machine.setDescriptor process index (.table (Function.update entries first none)))
      (first + 1) (by simpa using root) levelTwo_withDescriptor_self (by omega)
    refine ⟨cleared, run, ?_⟩
    rw [spaces, spaces_setDescriptor, withDescriptor_withDescriptor]
    congr 2
    funext entry
    by_cases same : entry = first
    · subst same
      simp
    · rw [Function.update_of_ne same]
      refine if_congr ?_ rfl rfl
      omega

/-- Unmapping the pages at the start of a range that hold all its entries leaves
the range without a descriptor. -/
theorem unmap_wholeTable (root : (machine.spaces process).hasRoot = true)
    (bound : index < tableEntries)
    (table : (machine.spaces process).levelTwo index = .table entries)
    {count : ℕ} (positive : 0 < count) (inside : count ≤ tableEntries)
    (empty : ∀ entry, count ≤ entry → entries entry = none) :
    (unmap machine process (index * l2BlockSize) (count * pageSize)).2.spaces =
      withDescriptor machine.spaces process index .invalid := by
  have nonzero : ¬count * pageSize = 0 := by
    unfold pageSize
    omega
  have aligned : ¬(index * l2BlockSize % pageSize ≠ 0 ∨ count * pageSize % pageSize ≠ 0) := by
    unfold l2BlockSize pageSize
    omega
  have blockAligned : index * l2BlockSize % l2BlockSize = 0 := Nat.mul_mod_left _ _
  have start : 0 < l2BlockSize := by decide
  have resolved := resolveLevel2Entry_range root bound start
  rw [Nat.add_zero] at resolved
  unfold unmap
  rw [if_neg nonzero, if_neg aligned]
  by_cases block : count * pageSize % l2BlockSize = 0
  · have single : count * pageSize / l2BlockSize = 1 := by
      unfold pageSize l2BlockSize at *
      unfold tableEntries at inside
      omega
    rw [if_pos ⟨blockAligned, block⟩, single]
    simp only [unmapBlocks, resolved]
    rfl
  · obtain ⟨cleared, run, spaces⟩ := unmapPages_table machine 0 count root bound table (by omega)
    rw [Nat.zero_mul, Nat.add_zero] at run
    have pages : count * pageSize / pageSize = count := Nat.mul_div_cancel _ (by decide)
    have base : index * l2BlockSize / l2BlockSize * l2BlockSize = index * l2BlockSize := by
      rw [Nat.mul_div_cancel _ start]
    have blocks : (index * l2BlockSize + count * pageSize - index * l2BlockSize + l2BlockSize - 1) /
        l2BlockSize = 1 := by
      unfold pageSize l2BlockSize at *
      unfold tableEntries at inside
      omega
    rw [if_neg (fun both => block both.2), pages, run]
    dsimp only
    rw [base, blocks]
    have clearedRoot : (cleared.spaces process).hasRoot = true := by
      rw [spaces, hasRoot_withDescriptor]
      exact root
    have clearedResolved := resolveLevel2Entry_range clearedRoot bound start
    rw [Nat.add_zero] at clearedResolved
    have clearedTable : (cleared.spaces process).levelTwo index = .table fun _ => none := by
      rw [spaces, levelTwo_withDescriptor_self]
      congr 1
      funext entry
      split
      · rfl
      · exact empty entry (by omega)
    simp only [releaseEmptyTables, releaseEmptyLevel3Table, clearedResolved, clearedTable,
      Option.isNone_none, List.all_eq_true, implies_true, if_true, spaces_setDescriptor]
    rw [spaces, withDescriptor_withDescriptor]

end RosKernel.Memory
