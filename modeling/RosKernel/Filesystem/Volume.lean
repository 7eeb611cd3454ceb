import RosKernel.Library.Attempt
import RosKernel.Status
import Mathlib.Algebra.Group.Nat.Defs
import Mathlib.Logic.Function.Basic

/-!
# FAT32 volumes

The block device under the file system, the boot sector and mounting (`fat32.cpp`). Names drop
`fat32_`.
-/

namespace RosKernel.Fat32

/-- The bytes behind a pointer. -/
abbrev Bytes := ℕ → UInt8

/-- The bytes behind a pointer that was advanced. -/
def Bytes.advance (bytes : Bytes) (offset : ℕ) : Bytes :=
  fun index => bytes (offset + index)

/-- The value of an unsigned 32-bit expression. -/
def u32 (value : ℕ) : ℕ :=
  value % 2 ^ 32

/-- Unsigned 32-bit subtraction. -/
def u32Sub (left right : ℕ) : ℕ :=
  u32 (left + (2 ^ 32 - u32 right))

def readLe16 (bytes : Bytes) : ℕ :=
  (bytes 0).toNat ||| (bytes 1).toNat <<< 8

def readLe32 (bytes : Bytes) : ℕ :=
  (bytes 0).toNat ||| (bytes 1).toNat <<< 8 ||| (bytes 2).toNat <<< 16 ||| (bytes 3).toNat <<< 24

def sectorSize : ℕ := 512

/-- A block device. Each transfer consumes the next entry of `faults`: the status it fails
with, or success; a device whose list is empty does not fail. -/
structure Device where
  /-- What `Device::init` answers. -/
  initStatus : Status
  sectors : ℕ → Bytes
  faults : List (Option { status : Status // status ≠ .ok })

/-- A call that reaches the device. -/
abbrev Io (α : Type) := Attempt Device Status α

/-- Take the next fault of the device. -/
def nextFault : Io Unit := fun device =>
  match device.faults with
  | some status :: rest => some (.error status.1, { device with faults := rest })
  | none :: rest => some (.ok (), { device with faults := rest })
  | [] => some (.ok (), device)

/-- `fat32_read_sector`: `fat32_read_exact` of one sector. -/
def readSector (lba : ℕ) : Io Bytes := do
  nextFault
  fun device => some (.ok (device.sectors lba), device)

/-- A transfer whose failures are all reported as `StatusIoError`. -/
def orIoError {α : Type} (transfer : Io α) : Io α := do
  match ← transfer.outcome with
  | .ok value => pure value
  | .error _ => Attempt.fail .ioError

structure BootSectorInfo where
  bytesPerSector : ℕ
  sectorsPerCluster : ℕ
  reservedSectors : ℕ
  fatCount : ℕ
  totalSectors : ℕ
  fatSize32 : ℕ
  rootCluster : ℕ

structure MountState where
  mounted : Bool
  partitionLba : ℕ
  fatLba : ℕ
  dataLba : ℕ
  clusterSize : ℕ
  clusterCount : ℕ
  bootSector : BootSectorInfo

def bootBytesPerSectorOffset : ℕ := 11
def bootSectorsPerClusterOffset : ℕ := 13
def bootReservedSectorsOffset : ℕ := 14
def bootFatCountOffset : ℕ := 16
def bootTotalSectors16Offset : ℕ := 19
def bootTotalSectors32Offset : ℕ := 32
def bootFatSize32Offset : ℕ := 36
def bootRootClusterOffset : ℕ := 44
def bootFsTypeOffset : ℕ := 82

def parseBootSector (sector : Bytes) : BootSectorInfo :=
  let totalSectors16 := readLe16 (sector.advance bootTotalSectors16Offset)
  let totalSectors32 := readLe32 (sector.advance bootTotalSectors32Offset)
  { bytesPerSector := readLe16 (sector.advance bootBytesPerSectorOffset)
    sectorsPerCluster := (sector bootSectorsPerClusterOffset).toNat
    reservedSectors := readLe16 (sector.advance bootReservedSectorsOffset)
    fatCount := (sector bootFatCountOffset).toNat
    totalSectors := if totalSectors16 ≠ 0 then totalSectors16 else totalSectors32
    fatSize32 := readLe32 (sector.advance bootFatSize32Offset)
    rootCluster := readLe32 (sector.advance bootRootClusterOffset) }

def isBootSector (sector : Bytes) : Bool :=
  sector 510 = 0x55 && sector 511 = 0xAA &&
    readLe16 (sector.advance bootBytesPerSectorOffset) = sectorSize &&
    sector bootSectorsPerClusterOffset ≠ 0 &&
    sector bootFatCountOffset ≠ 0 &&
    readLe32 (sector.advance bootFatSize32Offset) ≠ 0 &&
    2 ≤ readLe32 (sector.advance bootRootClusterOffset) &&
    sector (bootFsTypeOffset + 0) = 0x46 && sector (bootFsTypeOffset + 1) = 0x41 &&
    sector (bootFsTypeOffset + 2) = 0x54 && sector (bootFsTypeOffset + 3) = 0x33 &&
    sector (bootFsTypeOffset + 4) = 0x32

def partitionFat32Chs : UInt8 := 0x0B
def partitionFat32Lba : UInt8 := 0x0C
def mbrEntrySize : ℕ := 16
def mbrEntryTypeOffset : ℕ := 4
def mbrEntryLbaOffset : ℕ := 8

/-- The scan of the four partition entries in `fat32_find_partition_lba`. -/
def scanPartitionEntries (sector : Bytes) : List ℕ → Option ℕ
  | [] => none
  | index :: rest =>
    let entry := sector.advance (0x1BE + index * mbrEntrySize)
    let type := entry mbrEntryTypeOffset
    if type = partitionFat32Chs ∨ type = partitionFat32Lba then
      some (readLe32 (entry.advance mbrEntryLbaOffset))
    else scanPartitionEntries sector rest

/-- The partition that the first sector of the device announces. -/
def partitionOf (sector : Bytes) : Option ℕ :=
  if isBootSector sector then some 0 else scanPartitionEntries sector [0, 1, 2, 3]

def findPartitionLba : Io ℕ := do
  let sector ← orIoError (readSector 0)
  match partitionOf sector with
  | some lba => pure lba
  | none => Attempt.fail .notFound

/-- The geometry that `fat32_mount` derives from an accepted boot sector. -/
def geometry (partitionLba : ℕ) (bootSector : BootSectorInfo) : MountState :=
  let fatSectors := u32 (bootSector.fatCount * bootSector.fatSize32)
  let fatLba := u32 (partitionLba + bootSector.reservedSectors)
  let dataSectors := u32Sub bootSector.totalSectors (bootSector.reservedSectors + fatSectors)
  { mounted := true
    partitionLba
    fatLba
    dataLba := u32 (fatLba + fatSectors)
    clusterSize := u32 (bootSector.sectorsPerCluster * sectorSize)
    clusterCount := dataSectors / bootSector.sectorsPerCluster
    bootSector }

/-- `fat32_mount`; a volume that is not mounted keeps no geometry. -/
def mount (state : MountState) : Io MountState := do
  Attempt.failIf state.mounted .alreadyExists
  let initStatus ← fun device => some (.ok device.initStatus, device)
  Attempt.failIf (initStatus ≠ .ok ∧ initStatus ≠ .alreadyExists) initStatus
  let partitionLba ← findPartitionLba
  let sector ← readSector partitionLba
  Attempt.failIf (¬ isBootSector sector) .notSupported
  let bootSector := parseBootSector sector
  Attempt.failIf (bootSector.bytesPerSector ≠ sectorSize ∨ bootSector.sectorsPerCluster = 0 ∨
    bootSector.totalSectors = 0 ∨ bootSector.fatSize32 = 0 ∨ bootSector.rootCluster < 2)
    .notSupported
  let mounted := geometry partitionLba bootSector
  Attempt.failIf (mounted.clusterCount = 0) .notSupported
  pure mounted

end RosKernel.Fat32
