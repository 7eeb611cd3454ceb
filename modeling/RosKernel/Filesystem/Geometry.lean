import RosKernel.Filesystem.Volume
import Mathlib.Tactic.Common

/-!
# The geometry of a mounted volume

`fat32_mount` computes the geometry with 32-bit arithmetic from numbers it reads from disk.
The volume is described soundly exactly when these numbers fit together.
-/

namespace RosKernel.Fat32

/-- What the geometry of a mounted volume promises to every later access. -/
structure MountState.SoundGeometry (state : MountState) : Prop where
  afterFats : state.partitionLba + state.bootSector.reservedSectors +
    state.bootSector.fatCount * state.bootSector.fatSize32 ≤ state.dataLba
  beforeEnd : state.dataLba ≤ state.partitionLba + state.bootSector.totalSectors
  fatEntry : ∀ cluster, 2 ≤ cluster → cluster < state.clusterCount + 2 →
    cluster * 4 + 4 ≤ state.bootSector.fatSize32 * sectorSize
  clusterSectors : ∀ cluster, 2 ≤ cluster → cluster < state.clusterCount + 2 →
    state.dataLba + (cluster - 2) * state.bootSector.sectorsPerCluster +
      state.bootSector.sectorsPerCluster ≤ state.partitionLba + state.bootSector.totalSectors

/-- `fat32_cluster_to_lba`. -/
def clusterToLba (state : MountState) (cluster : ℕ) : ℕ :=
  u32 (state.dataLba + u32 (u32Sub cluster 2 * state.bootSector.sectorsPerCluster))

/-- The address of a cluster does not wrap in a sound volume that ends below 2 TiB. -/
theorem MountState.SoundGeometry.clusterToLba_eq {state : MountState} {cluster : ℕ}
    (sound : state.SoundGeometry) (word : cluster < 2 ^ 32) (above : 2 ≤ cluster)
    (below : cluster < state.clusterCount + 2) (some : state.bootSector.sectorsPerCluster ≠ 0)
    (ends : state.partitionLba + state.bootSector.totalSectors ≤ 2 ^ 32) :
    clusterToLba state cluster =
      state.dataLba + (cluster - 2) * state.bootSector.sectorsPerCluster := by
  have inside := sound.clusterSectors cluster above below
  have exact : u32Sub cluster 2 = cluster - 2 := by
    simp only [u32Sub, u32]
    omega
  rw [clusterToLba, exact, u32, u32, Nat.mod_eq_of_lt (by omega), Nat.mod_eq_of_lt (by omega)]

/-- The sectors before the data area. -/
def BootSectorInfo.metadataSectors (bootSector : BootSectorInfo) : ℕ :=
  bootSector.reservedSectors + bootSector.fatCount * bootSector.fatSize32

/-- The numbers of the boot sector fit together: the data area starts at a 32-bit sector
number inside the volume, and the table has an entry for each of its clusters. -/
def BootSectorInfo.FitsAt (bootSector : BootSectorInfo) (partitionLba : ℕ) : Prop :=
  partitionLba + bootSector.metadataSectors < 2 ^ 32 ∧
    bootSector.metadataSectors ≤ bootSector.totalSectors ∧
    (bootSector.totalSectors - bootSector.metadataSectors) / bootSector.sectorsPerCluster + 2 ≤
      bootSector.fatSize32 * 128

instance (bootSector : BootSectorInfo) (partitionLba : ℕ) :
    Decidable (bootSector.FitsAt partitionLba) :=
  inferInstanceAs (Decidable (_ ∧ _ ∧ _))

variable (bytes : Bytes)

theorem readLe16_eq : readLe16 bytes = (bytes 0).toNat + 2 ^ 8 * (bytes 1).toNat := by
  have low := (bytes 0).toNat_lt
  rw [readLe16, Nat.or_comm, ← Nat.shiftLeft_add_eq_or_of_lt low, Nat.shiftLeft_eq]
  omega

theorem readLe16_lt : readLe16 bytes < 2 ^ 16 := by
  have low := (bytes 0).toNat_lt
  have high := (bytes 1).toNat_lt
  rw [readLe16_eq]
  omega

theorem readLe32_eq :
    readLe32 bytes = (bytes 0).toNat + 2 ^ 8 * (bytes 1).toNat +
      2 ^ 16 * (bytes 2).toNat + 2 ^ 24 * (bytes 3).toNat := by
  have byte0 := (bytes 0).toNat_lt
  have byte1 := (bytes 1).toNat_lt
  have byte2 := (bytes 2).toNat_lt
  have low16 : (bytes 0).toNat ||| (bytes 1).toNat <<< 8 =
      (bytes 0).toNat + 2 ^ 8 * (bytes 1).toNat := readLe16_eq bytes
  have low24 : ((bytes 0).toNat + 2 ^ 8 * (bytes 1).toNat) ||| (bytes 2).toNat <<< 16 =
      (bytes 0).toNat + 2 ^ 8 * (bytes 1).toNat + 2 ^ 16 * (bytes 2).toNat := by
    rw [Nat.or_comm, ← Nat.shiftLeft_add_eq_or_of_lt (by omega), Nat.shiftLeft_eq]
    omega
  rw [readLe32, low16, low24, Nat.or_comm, ← Nat.shiftLeft_add_eq_or_of_lt (by omega),
    Nat.shiftLeft_eq]
  omega

theorem readLe32_lt : readLe32 bytes < 2 ^ 32 := by
  have byte0 := (bytes 0).toNat_lt
  have byte1 := (bytes 1).toNat_lt
  have byte2 := (bytes 2).toNat_lt
  have byte3 := (bytes 3).toNat_lt
  rw [readLe32_eq]
  omega

theorem parseBootSector_totalSectors_lt (sector : Bytes) :
    (parseBootSector sector).totalSectors < 2 ^ 32 := by
  simp only [parseBootSector]
  split
  · exact Nat.lt_trans (readLe16_lt _) (by decide)
  · exact readLe32_lt _

section

variable {device after : Device} {bytes : Bytes} {lba : ℕ}

theorem nextFault_sectors (call : nextFault device = some (.ok (), after)) :
    after.sectors = device.sectors := by
  unfold nextFault at call
  split at call <;> cases call <;> rfl

/-- A read that succeeds delivers the sector and leaves the contents alone. -/
theorem readSector_ok (call : readSector lba device = some (.ok bytes, after)) :
    bytes = device.sectors lba ∧ after.sectors = device.sectors := by
  obtain ⟨_, _, passed, call⟩ := Attempt.bind_eq_ok.mp call
  have same := nextFault_sectors passed
  cases call
  exact ⟨congrFun same lba, same⟩

theorem orIoError_ok {α : Type} {transfer : Io α} {value : α}
    (call : orIoError transfer device = some (.ok value, after)) :
    transfer device = some (.ok value, after) := by
  obtain ⟨result, _, passed, call⟩ := Attempt.bind_eq_ok.mp call
  obtain ⟨⟨_, _⟩, ran, same⟩ := Option.map_eq_some_iff.mp passed
  cases same
  cases result with
  | ok =>
    cases call
    exact ran
  | error => cases call

theorem findPartitionLba_ok (call : findPartitionLba device = some (.ok lba, after)) :
    partitionOf (device.sectors 0) = some lba ∧ after.sectors = device.sectors := by
  obtain ⟨_, _, passed, call⟩ := Attempt.bind_eq_ok.mp call
  obtain ⟨rfl, same⟩ := readSector_ok (orIoError_ok passed)
  cases announced : partitionOf (device.sectors 0) with
  | none =>
    rw [announced] at call
    cases call
  | some =>
    rw [announced] at call
    cases call
    exact ⟨rfl, same⟩

/-- What an accepted volume looked like, and the geometry it got. -/
theorem mount_ok {state mounted : MountState}
    (call : mount state device = some (.ok mounted, after)) :
    ∃ partitionLba, partitionOf (device.sectors 0) = some partitionLba ∧
      mounted = geometry partitionLba (parseBootSector (device.sectors partitionLba)) ∧
      mounted.bootSector.sectorsPerCluster ≠ 0 ∧ mounted.clusterCount ≠ 0 := by
  obtain ⟨-, call⟩ := Attempt.failIf_bind_eq_ok.mp call
  obtain ⟨_, reached, started, call⟩ := Attempt.bind_eq_ok.mp call
  cases started
  obtain ⟨-, call⟩ := Attempt.failIf_bind_eq_ok.mp call
  obtain ⟨partitionLba, _, found, call⟩ := Attempt.bind_eq_ok.mp call
  obtain ⟨announced, sameSectors⟩ := findPartitionLba_ok found
  obtain ⟨_, _, read, call⟩ := Attempt.bind_eq_ok.mp call
  obtain ⟨rfl, -⟩ := readSector_ok read
  obtain ⟨-, call⟩ := Attempt.failIf_bind_eq_ok.mp call
  obtain ⟨supported, call⟩ := Attempt.failIf_bind_eq_ok.mp call
  obtain ⟨nonempty, call⟩ := Attempt.failIf_bind_eq_ok.mp call
  cases call
  rw [sameSectors] at supported nonempty ⊢
  exact ⟨partitionLba, announced, rfl, fun none => supported (.inr (.inl none)), nonempty⟩

end

section

variable {bootSector : BootSectorInfo} {partitionLba : ℕ}

theorem geometry_dataLba :
    (geometry partitionLba bootSector).dataLba =
      (partitionLba + bootSector.metadataSectors) % 2 ^ 32 := by
  simp only [geometry, u32, BootSectorInfo.metadataSectors]
  omega

/-- A data area that starts inside a volume is divided into the clusters it has room for. -/
theorem geometry_clusterCount (small : bootSector.totalSectors < 2 ^ 32)
    (inside : bootSector.metadataSectors ≤ bootSector.totalSectors) :
    (geometry partitionLba bootSector).clusterCount =
      (bootSector.totalSectors - bootSector.metadataSectors) / bootSector.sectorsPerCluster := by
  have exact : u32Sub bootSector.totalSectors
      (bootSector.reservedSectors + u32 (bootSector.fatCount * bootSector.fatSize32)) =
      bootSector.totalSectors - bootSector.metadataSectors := by
    simp only [BootSectorInfo.metadataSectors] at inside ⊢
    simp only [u32Sub, u32]
    omega
  simp only [geometry, exact]

/-- The clusters of a data area lie in it. -/
theorem clusterSectors_le {sectors size cluster : ℕ} (above : 2 ≤ cluster)
    (below : cluster < sectors / size + 2) :
    (cluster - 2) * size + size ≤ sectors := by
  have room : sectors / size * size ≤ sectors := Nat.div_mul_le_self sectors size
  have fits : (cluster - 2 + 1) * size ≤ sectors / size * size :=
    Nat.mul_le_mul_right size (by omega)
  rw [Nat.add_mul, Nat.one_mul] at fits
  omega

/-- The computed geometry is sound exactly when the numbers of the boot sector fit. -/
theorem geometry_soundGeometry_iff (small : bootSector.totalSectors < 2 ^ 32)
    (counted : (geometry partitionLba bootSector).clusterCount ≠ 0) :
    (geometry partitionLba bootSector).SoundGeometry ↔ bootSector.FitsAt partitionLba := by
  have start : (geometry partitionLba bootSector).dataLba =
    (partitionLba + bootSector.metadataSectors) % 2 ^ 32 := geometry_dataLba
  constructor
  · intro sound
    have afterFats : partitionLba + bootSector.metadataSectors ≤
        (geometry partitionLba bootSector).dataLba := by
      have afterFats := sound.afterFats
      simp only [BootSectorInfo.metadataSectors]
      change partitionLba + bootSector.reservedSectors +
        bootSector.fatCount * bootSector.fatSize32 ≤ _ at afterFats
      omega
    have beforeEnd : (geometry partitionLba bootSector).dataLba ≤
      partitionLba + bootSector.totalSectors := sound.beforeEnd
    have inside : bootSector.metadataSectors ≤ bootSector.totalSectors := by omega
    have lastEntry := sound.fatEntry
      ((geometry partitionLba bootSector).clusterCount + 1) (by omega) (by omega)
    change _ ≤ bootSector.fatSize32 * 512 at lastEntry
    rw [geometry_clusterCount small inside] at lastEntry
    exact ⟨by omega, inside, by omega⟩
  · rintro ⟨_, inside, _⟩
    have startExact : (geometry partitionLba bootSector).dataLba =
        partitionLba + bootSector.metadataSectors := by omega
    have count : (geometry partitionLba bootSector).clusterCount =
      (bootSector.totalSectors - bootSector.metadataSectors) / bootSector.sectorsPerCluster :=
      geometry_clusterCount small inside
    refine ⟨?_, ?_, ?_, ?_⟩
    · rw [startExact]
      simp only [BootSectorInfo.metadataSectors, geometry]
      omega
    · rw [startExact]
      change _ ≤ partitionLba + bootSector.totalSectors
      omega
    · intro cluster _ below
      change _ ≤ bootSector.fatSize32 * 512
      omega
    · intro cluster above below
      rw [count] at below
      have fits := clusterSectors_le above below
      change _ + (cluster - 2) * bootSector.sectorsPerCluster + bootSector.sectorsPerCluster ≤
        partitionLba + bootSector.totalSectors
      omega

end

/-- An accepted volume is described soundly exactly when the numbers in its boot sector fit
together at the partition's position. -/
theorem mounted_soundGeometry_iff {state mounted : MountState} {device after : Device}
    (call : mount state device = some (.ok mounted, after)) :
    ∃ partitionLba, partitionOf (device.sectors 0) = some partitionLba ∧ (mounted.SoundGeometry ↔
        (parseBootSector (device.sectors partitionLba)).FitsAt partitionLba) := by
  obtain ⟨partitionLba, announced, rfl, -, counted⟩ := mount_ok call
  exact ⟨partitionLba, announced,
    geometry_soundGeometry_iff (parseBootSector_totalSectors_lt _) counted⟩

/-- A boot sector with the given cluster size, total sectors and table size; two reserved
sectors, one table, root directory in cluster 2. -/
def sampleBootSector (sectorsPerCluster totalSectors fatSize : UInt8) : Bytes
  | 12 | 14 => 2
  | 13 => sectorsPerCluster
  | 16 => 1
  | 19 => totalSectors
  | 36 => fatSize
  | 44 => 2
  | 82 => 0x46
  | 83 => 0x41
  | 84 => 0x54
  | 85 => 0x33
  | 86 => 0x32
  | 510 => 0x55
  | 511 => 0xAA
  | _ => 0

/-- A device whose first sector is a boot sector. -/
def sampleDevice (bootSector : Bytes) : Device :=
  { initStatus := .ok
    sectors := fun _ => bootSector
    faults := [] }

/-- A state that nothing is mounted on. -/
def unmounted : MountState :=
  { mounted := false
    partitionLba := 0
    fatLba := 0
    dataLba := 0
    clusterSize := 0
    clusterCount := 0
    bootSector := ⟨0, 0, 0, 0, 0, 0, 0⟩ }

/-- A table with 128 entries for a volume of 197 clusters, and a volume that ends before its
data area starts, are both accepted. -/
theorem mounted_unsoundGeometry :
    (∃ mounted after, mount unmounted (sampleDevice (sampleBootSector 1 200 1)) =
        some (.ok mounted, after) ∧ ¬ mounted.SoundGeometry) ∧
      ∃ mounted after, mount unmounted (sampleDevice (sampleBootSector 1 2 1)) =
        some (.ok mounted, after) ∧ ¬ mounted.SoundGeometry := by
  refine ⟨⟨_, _, rfl, fun sound => ?_⟩, _, _, rfl, fun sound => ?_⟩
  · exact absurd (sound.fatEntry 128 (by decide) (by decide +kernel)) (by decide +kernel)
  · exact absurd sound.beforeEnd (by decide +kernel)

/-- A volume of 100 sectors with one sector of table is described soundly. -/
theorem mounted_soundGeometry_hundredSectors :
    ∃ mounted after, mount unmounted (sampleDevice (sampleBootSector 1 100 1)) =
        some (.ok mounted, after) ∧ mounted.SoundGeometry := by
  obtain ⟨mounted, after, call⟩ : ∃ mounted after,
      mount unmounted (sampleDevice (sampleBootSector 1 100 1)) = some (.ok mounted, after) :=
    ⟨_, _, rfl⟩
  obtain ⟨partitionLba, announced, sound⟩ := mounted_soundGeometry_iff call
  obtain rfl : 0 = partitionLba := by
    have first : partitionOf ((sampleDevice (sampleBootSector 1 100 1)).sectors 0) = some 0 := by
      decide +kernel
    exact Option.some.inj (first.symm.trans announced)
  exact ⟨mounted, after, call, sound.mpr (by decide +kernel)⟩

end RosKernel.Fat32
