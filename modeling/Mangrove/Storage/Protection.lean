import Mangrove.Block.Cache
import Mangrove.Gpt.Table

/-! The calls that rewrite a block device below the file systems, and what they keep off: they
write on the device they were given only. -/

namespace Mangrove.Storage

open Block (Devices DeviceRef Sector descriptor place)

inductive Status where
  | ok
  | invalidParam
  | notFound
  | unsupported
  | deviceGone
  | accessDenied
  | busy
  | badFormat
  | noSpace
  | io
deriving DecidableEq

inductive Filesystem where
  | fat32
  | mgfs
  | exfat
deriving DecidableEq

/-- A `gpt_partition_info_t` beside the range that the block layer keeps. -/
structure PartitionInfo where
  number : Nat
  uniqueGuid : List UInt8

/-- The registered devices. `block_register` numbers a descriptor and copies it, so the
driver's copy of a disk and the registry's have one id. -/
structure Registry where
  devices : Devices
  id : DeviceRef → Nat
  info : Nat → PartitionInfo
  registered : List DeviceRef
  id_disk : ∀ a b, (devices.disk a).medium = (devices.disk b).medium → id (.disk a) = id (.disk b)
  blockCount_le : ∀ a, (devices.disk a).blockCount ≤ u64Max
  lastLba_lt : ∀ a, (devices.partition a).lastLba < u64Max

/-- An entry of the mount table: whether it is in use, and for which device. -/
structure Mount where
  active : Bool
  devId : Nat

namespace Registry

variable (r : Registry)

def sectorCount : DeviceRef → Nat
  | .disk a => (r.devices.disk a).blockCount
  | .partition a => (r.devices.partition a).lastLba - (r.devices.partition a).firstLba + 1

lemma sectorCount_le (d : DeviceRef) : r.sectorCount d ≤ u64Max := by
  cases d with
  | disk a => exact r.blockCount_le a
  | partition a =>
    have := r.lastLba_lt a
    simp only [sectorCount]
    omega

def type : DeviceRef → Gpt.DeviceType
  | .disk _ => .disk
  | .partition _ => .partition

def target (d : DeviceRef) : Gpt.Device where
  type := type d
  sectorSize := (descriptor r.devices d).sectorSize
  sectorCount := r.sectorCount d
  sectorCount_le := r.sectorCount_le d

def parentMatches (d : DeviceRef) : DeviceRef → Bool
  | .disk _ => false
  | .partition a => r.id (.disk (r.devices.partition a).parent) == r.id d

def mounted (mounts : List Mount) (d : DeviceRef) : Bool :=
  mounts.any fun mount => mount.active && mount.devId == r.id d

def formatPreflight (mounts : List Mount) (d : DeviceRef) : Status :=
  if !(descriptor r.devices d).live then .deviceGone
  else if r.mounted mounts d then .busy
  else .ok

def gptPreflightChildren (mounts : List Mount) (d : DeviceRef) : Bool :=
  r.formatPreflight mounts d = .ok &&
    r.registered.all fun child =>
      !r.parentMatches d child || r.formatPreflight mounts child = .ok

end Registry

/-- The requests to a device and the answers from elsewhere that the storage calls depend on. -/
inductive Op where
  | read (lba sectorCount : Nat)
  | write (lba sectorCount : Nat) (buffer : Nat → Sector)
  | flush
  | isLive
  | probe
  | label
  | table
  | guid
  | begin
  | register

abbrev Ans : Op → Type
  | .read _ _ => Option (List Sector)
  | .write _ _ _ => Bool
  | .flush => Bool
  | .isLive => Bool
  | .probe => Option Filesystem
  | .label => Option (List UInt8)
  | .table => Option (Nat → Buf)
  | .guid => Option (List UInt8)
  | .begin => Bool
  | .register => Bool

abbrev Run := Script Op Ans

def ask (op : Op) : Run (Ans op) := .call op .done

/-- How one request ends. -/
structure Fault where
  works : Bool
  transferred : Nat
  filesystem : Option Filesystem
  label : List UInt8
  guid : List UInt8

/-- The block layer, and the physical sectors written so far. -/
structure State where
  block : Block.State
  written : List (Nat × Nat)

def placesOf (devices : Devices) (d : DeviceRef) (lba sectorCount : Nat) : List (Nat × Nat) :=
  (List.range sectorCount).map fun k => place devices d (lba + k)

def write (devices : Devices) (d : DeviceRef) (s : State) (lba sectorCount : Nat)
    (buffer : Nat → Sector) (fault : Fault) : State × Bool :=
  if (Block.writeOn devices d lba sectorCount buffer s.block).1 then
    let reached := if fault.works then sectorCount else min fault.transferred sectorCount
    (⟨(Block.writeOn devices d lba reached buffer s.block).2,
      s.written ++ placesOf devices d lba reached⟩, fault.works)
  else (s, false)

def act (devices : Devices) (d : DeviceRef) (s : State) : (op : Op) → Fault → State × Ans op
  | .read lba sectorCount, fault =>
    if fault.works then
      ({ s with block := (Block.readOn devices d lba sectorCount s.block).2 },
        (Block.readOn devices d lba sectorCount s.block).1)
    else (s, none)
  | .write lba sectorCount buffer, fault => write devices d s lba sectorCount buffer fault
  | .flush, fault => (s, fault.works)
  | .isLive, fault => (s, (descriptor devices d).live && fault.works)
  | .probe, fault => (s, fault.filesystem)
  | .label, fault => (s, if fault.works then some fault.label else none)
  | .table, fault =>
    (s, if fault.works then
        some fun lba =>
          Buf.ofList (s.block.media (place devices d lba).1 (place devices d lba).2)
      else none)
  | .guid, fault => (s, if fault.works then some fault.guid else none)
  | .begin, fault => (s, fault.works)
  | .register, fault => (s, fault.works)

def sectorsOf (buffer : Buf) (k : Nat) : Sector := (Gpt.sectorOf buffer k).bytes Gpt.sectorBytes

def checkedWrite (device : Gpt.Device) (lba sectorCount : Nat) (buffer : Buf) : Run Bool := do
  if sectorCount = 0 then return false
  if !(← ask .isLive) then return false
  if lba > device.sectorCount ∨ sectorCount > device.sectorCount - lba then return false
  ask (.write lba sectorCount (sectorsOf buffer))

def formatWrite (device : Gpt.Device) (lba sectorCount : Nat) (buffer : Buf) : Run Bool :=
  checkedWrite device lba sectorCount buffer

def gptWrite (device : Gpt.Device) (lba sectorCount : Nat) (buffer : Buf) : Run Bool :=
  checkedWrite device lba sectorCount buffer

/-- Each round of `write_zero_sectors` writes a sector at least, so `count` rounds are
enough. -/
def writeZeroSectors (device : Gpt.Device) : Nat → Nat → Nat → Run Bool
  | 0, _, count => return count = 0
  | fuel + 1, lba, count => do
    if count = 0 then return true
    let batch := if count > 8 then 8 else count
    if !(← formatWrite device lba batch Buf.zero) then return false
    if lba > u64Max - batch then return false
    writeZeroSectors device fuel (lba + batch) (count - batch)

def reservedSectors : Nat := 32

def fatCount : Nat := 2

def minClusters : Nat := 65525

def maxClusters : Nat := 0x0ffffff5

/-- The rounds of `fat32_fat_size`: the FAT size and the clusters, if a size is found. -/
def fatSizeFrom (totalSectors sectorsPerCluster : Nat) : Nat → Nat → Option (Nat × Nat)
  | 0, _ => none
  | rounds + 1, fatSize =>
    let overhead := reservedSectors + fatCount * fatSize
    if overhead ≥ totalSectors then none
    else
      let clusters := (totalSectors - overhead) / sectorsPerCluster
      let nextSize := ((clusters + 2) * 4 + Gpt.sectorBytes - 1) / Gpt.sectorBytes
      if nextSize ≤ fatSize then
        if clusters = 0 ∨ clusters < minClusters ∨ clusters > maxClusters ∨
            fatSize > 0xffffffff then none
        else some (fatSize, clusters)
      else fatSizeFrom totalSectors sectorsPerCluster rounds nextSize

def fat32FatSize (totalSectors sectorsPerCluster : Nat) : Option (Nat × Nat) :=
  fatSizeFrom totalSectors sectorsPerCluster 64 1

def fatGeometry (totalSectors : Nat) : Option (Nat × Nat × Nat) :=
  [1, 2, 4, 8, 16, 32, 64].findSome? fun sectorsPerCluster =>
    (fat32FatSize totalSectors sectorsPerCluster).map fun found => (sectorsPerCluster, found)

def storeLe16 (data : Buf) (o value : Nat) : Buf :=
  data.copy o (Buf.ofList [UInt8.ofNat value, UInt8.ofNat (value / 256)]) 2

/-- `MANGROVE`, `NO NAME` and `FAT32` as the boot sector has them. -/
def oemName : List UInt8 := [0x4d, 0x41, 0x4e, 0x47, 0x52, 0x4f, 0x56, 0x45]

def noName : List UInt8 := [0x4e, 0x4f, 0x20, 0x4e, 0x41, 0x4d, 0x45, 0x20, 0x20, 0x20, 0x20]

def typeName : List UInt8 := [0x46, 0x41, 0x54, 0x33, 0x32, 0x20, 0x20, 0x20]

def bootSector (totalSectors sectorsPerCluster fatSize id : Nat) : Buf :=
  let sector := Buf.zero.copy 0 (Buf.ofList [0xeb, 0x58, 0x90]) 3
  let sector := sector.copy 3 (Buf.ofList oemName) 8
  let sector := storeLe16 sector 11 Gpt.sectorBytes
  let sector := sector.fill 13 1 (UInt8.ofNat sectorsPerCluster)
  let sector := storeLe16 sector 14 reservedSectors
  let sector := sector.fill 16 1 (UInt8.ofNat fatCount)
  let sector := sector.fill 21 1 0xf8
  let sector := storeLe16 sector 24 63
  let sector := storeLe16 sector 26 255
  let sector := Gpt.storeLe32 sector 32 totalSectors
  let sector := Gpt.storeLe32 sector 36 fatSize
  let sector := Gpt.storeLe32 sector 44 2
  let sector := storeLe16 sector 48 1
  let sector := storeLe16 sector 50 6
  let sector := sector.fill 64 1 0x80
  let sector := sector.fill 66 1 0x29
  let sector := Gpt.storeLe32 sector 67 (id % 2 ^ 32)
  let sector := sector.copy 71 (Buf.ofList noName) 11
  let sector := sector.copy 82 (Buf.ofList typeName) 8
  sector.copy 510 (Buf.ofList [0x55, 0xaa]) 2

def fsinfoSector (clusters : Nat) : Buf :=
  let fsinfo := Gpt.storeLe32 Buf.zero 0 0x41615252
  let fsinfo := Gpt.storeLe32 fsinfo 484 0x61417272
  let fsinfo := Gpt.storeLe32 fsinfo 488 (clusters - 1)
  let fsinfo := Gpt.storeLe32 fsinfo 492 3
  Gpt.storeLe32 fsinfo 508 0xaa550000

def firstFatSector : Buf :=
  let sector := Gpt.storeLe32 Buf.zero 0 0x0ffffff8
  let sector := Gpt.storeLe32 sector 4 0xffffffff
  Gpt.storeLe32 sector 8 0x0fffffff

/-- The writes of `format_fat32` once the geometry is known. -/
def writeFat32 (device : Gpt.Device) (id sectorsPerCluster fatSize clusters : Nat) : Run Bool := do
  let dataStart := reservedSectors + fatCount * fatSize
  let boot := bootSector device.sectorCount sectorsPerCluster fatSize id
  if !(← formatWrite device 0 1 boot) then return false
  if !(← formatWrite device 6 1 boot) then return false
  if !(← formatWrite device 1 1 (fsinfoSector clusters)) then return false
  if !(← formatWrite device 7 1 (fsinfoSector clusters)) then return false
  if !(← writeZeroSectors device (fatCount * fatSize) reservedSectors (fatCount * fatSize)) then
    return false
  if !(← formatWrite device reservedSectors 1 firstFatSector) then return false
  if !(← formatWrite device (reservedSectors + fatSize) 1 firstFatSector) then return false
  writeZeroSectors device sectorsPerCluster dataStart sectorsPerCluster

def formatFat32 (device : Gpt.Device) (id : Nat) : Run Bool :=
  if device.sectorSize ≠ Gpt.sectorBytes ∨ device.sectorCount > 0xffffffff ∨
      device.sectorCount < 2 then return false
  else
    match fatGeometry device.sectorCount with
    | none => return false
    | some (sectorsPerCluster, fatSize, clusters) =>
      let dataStart := reservedSectors + fatCount * fatSize
      if dataStart ≥ device.sectorCount ∨ clusters > 0xffffffff ∨
          dataStart + sectorsPerCluster ≥ device.sectorCount then return false
      else writeFat32 device id sectorsPerCluster fatSize clusters

/-- The formatters and label writers of the file systems, any programs over the device
they are given. -/
structure Drivers where
  formatMgfs : Gpt.Device → Run Bool
  exfatFormatDevice : Gpt.Device → Run Bool
  setLabel : Filesystem → Gpt.Device → List UInt8 → Run Bool
  labelValid : Filesystem → List UInt8 → Bool

def outcome (result : Bool) : Run Status := do
  if result then return .ok
  if ← ask .isLive then return .io
  return .deviceGone

def confirmFormat (filesystem : Filesystem) (result : Bool) : Run Bool := do
  if !result then return false
  if !(← ask .isLive) then return true
  if !(← ask .flush) then return false
  if !(← ask .isLive) then return true
  return (← ask .probe) = some filesystem

def formatOn (drivers : Drivers) (device : Gpt.Device) (id : Nat) (filesystem : Filesystem) :
    Run Status := do
  if !(← ask .begin) then return .busy
  let result ← match filesystem with
    | .fat32 => formatFat32 device id
    | .mgfs => drivers.formatMgfs device
    | .exfat => drivers.exfatFormatDevice device
  outcome (← confirmFormat filesystem result)

def fileSystemPreflight (r : Registry) (mounts : List Mount) (d : DeviceRef) : Status :=
  if !(descriptor r.devices d).live then .deviceGone
  else if (descriptor r.devices d).readOnly then .accessDenied
  else r.formatPreflight mounts d

/-- No file system is named by any other text than its own. -/
def storageFormatFilesystem (r : Registry) (mounts : List Mount) (drivers : Drivers)
    (d : DeviceRef) (filesystem : Option Filesystem) : Run Status :=
  match filesystem with
  | none => return .unsupported
  | some filesystem =>
    match fileSystemPreflight r mounts d with
    | .ok => formatOn drivers (r.target d) (r.id d) filesystem
    | error => return error

def confirmLabel (filesystem : Filesystem) (label : List UInt8) (result : Bool) : Run Bool := do
  if !result then return false
  if !(← ask .flush) then return false
  if !(← ask .isLive) then return true
  if (← ask .probe) ≠ some filesystem then return false
  if label = [] then return true
  return (← ask .label) = some label

def labelOn (drivers : Drivers) (device : Gpt.Device) (filesystem : Filesystem)
    (label : List UInt8) : Run Status := do
  if (← ask .probe) ≠ some filesystem then return .badFormat
  if filesystem ≠ .exfat ∧ drivers.labelValid filesystem label = false then
    return .invalidParam
  if !(← ask .begin) then return .busy
  outcome (← confirmLabel filesystem label (← drivers.setLabel filesystem device label))

def storageSetFilesystemLabel (r : Registry) (mounts : List Mount) (drivers : Drivers)
    (d : DeviceRef) (filesystem : Option Filesystem) (label : List UInt8) : Run Status :=
  match filesystem with
  | none => return .unsupported
  | some filesystem =>
    match fileSystemPreflight r mounts d with
    | .ok => labelOn drivers (r.target d) filesystem label
    | error => return error

def protectiveMbr (device : Gpt.Device) : Buf :=
  let count := if device.sectorCount - 1 > 0xffffffff then 0xffffffff else device.sectorCount - 1
  let mbr := Buf.zero.fill 450 1 0xee
  let mbr := mbr.fill 447 3 0xff
  let mbr := mbr.fill 451 3 0xff
  let mbr := Gpt.storeLe32 mbr 454 1
  let mbr := Gpt.storeLe32 mbr 458 count
  mbr.copy 510 (Buf.ofList [0x55, 0xaa]) 2

def gptWriteProtectiveMbr (device : Gpt.Device) : Run Bool :=
  gptWrite device 0 1 (protectiveMbr device)

def gptWriteUpdated (device : Gpt.Device) (table : Gpt.GptTable) (entries : Buf) : Run Bool := do
  if table.entryCount > Gpt.maxPartitionEntries ∨ table.entrySize ≠ Gpt.partitionEntryBytes ∨
      table.arraySectors = 0 ∨ table.arraySectors > Gpt.entryArraySectors then
    return false
  if !(← gptWrite device table.backupEntriesLba table.arraySectors entries) then return false
  if !(← gptWrite device (device.sectorCount - 1) 1 (Gpt.updatedHeader table true entries)) then
    return false
  if !(← ask .flush) then return false
  if !(← gptWrite device table.primaryEntriesLba table.arraySectors entries) then return false
  if !(← gptWrite device Gpt.primaryHeaderLba 1 (Gpt.updatedHeader table false entries)) then
    return false
  if !(← ask .flush) then return false
  ask .isLive

/-- `gpt_scan_device` reads the new table back and registers its partitions. -/
def rescan (device : Gpt.Device) : Run Status := do
  match ← ask .table with
  | none => return .io
  | some disk =>
    match Gpt.gptLoad device disk with
    | .error _ => return .io
    | .ok _ => if ← ask .register then return .ok else return .io

def publishTable (device : Gpt.Device) (table : Gpt.GptTable) (entries : Buf) : Run Status := do
  if !(← gptWriteUpdated device table entries) then outcome false
  else rescan device

def freshTable (device : Gpt.Device) (guid : List UInt8) : Gpt.GptTable where
  partitionCount := 0
  entryCount := Gpt.maxPartitionEntries
  entrySize := Gpt.partitionEntryBytes
  firstUsable := Gpt.primaryEntriesLba + Gpt.entryArraySectors
  lastUsable := device.sectorCount - 1 - Gpt.entryArraySectors - 1
  primaryEntriesLba := Gpt.primaryEntriesLba
  backupEntriesLba := device.sectorCount - 1 - Gpt.entryArraySectors
  arraySectors := Gpt.entryArraySectors
  diskGuid := guid

def initializeOn (device : Gpt.Device) : Run Status := do
  if !(← ask .begin) then return .busy
  if (freshTable device []).firstUsable > (freshTable device []).lastUsable then return .io
  match ← ask .guid with
  | none => return .io
  | some guid =>
    if !(← gptWriteProtectiveMbr device) then outcome false
    else publishTable device (freshTable device guid) Buf.zero

def gptInitializeDevice (r : Registry) (mounts : List Mount) (d : DeviceRef) : Run Status :=
  if Registry.type d = .partition then return .invalidParam
  else if !(descriptor r.devices d).live then return .deviceGone
  else if (descriptor r.devices d).readOnly then return .accessDenied
  else if (r.target d).sectorSize ≠ Gpt.sectorBytes ∨ (r.target d).sectorCount < Gpt.minSectors then
    return .unsupported
  else if !r.gptPreflightChildren mounts d then return .busy
  else initializeOn (r.target d)

def ofVfsError : VfsError → Status
  | .notFound => .notFound
  | .badFormat => .badFormat
  | .unsupported => .unsupported
  | .invalidParam => .invalidParam
  | .accessDenied => .accessDenied
  | _ => .io

def gptLoad (device : Gpt.Device) : Run (Except Status (Gpt.GptTable × Buf)) :=
  if device.type = .partition ∨ device.sectorSize ≠ Gpt.sectorBytes ∨
      device.sectorCount < Gpt.minSectors then return .error .unsupported
  else do
    match ← ask .table with
    | none => return .error .io
    | some disk =>
      match Gpt.gptLoad device disk with
      | .ok loaded => return .ok loaded
      | .error e => return .error (ofVfsError e)

def dataTypeGuid : List UInt8 :=
  [0x47, 0x4e, 0x41, 0x4d, 0x4f, 0x52, 0x45, 0x56, 0x44, 0x41, 0x54, 0x41, 0x00, 0x00, 0x00, 0x01]

def newEntry (entries : Buf) (number firstLba lastLba : Nat) (guid : List UInt8) : Buf :=
  let o := (number - 1) * Gpt.partitionEntryBytes
  let entries := entries.fill o Gpt.partitionEntryBytes 0
  let entries := entries.copy o (Buf.ofList dataTypeGuid) Gpt.guidBytes
  let entries := entries.copy (o + 16) (Buf.ofList guid) Gpt.guidBytes
  storeLe64 (storeLe64 entries (o + 32) firstLba) (o + 40) lastLba

/-- What `plan_from_entries` answers for the range requested. -/
def planFor (device : Gpt.Device) (table : Gpt.GptTable) (entries : Buf) (firstLba lastLba : Nat) :
    Option Gpt.Plan :=
  if h : table.firstUsable ≤ u64Max ∧ table.lastUsable ≤ u64Max then
    (Gpt.multiplyU64 (add64 (sub64 lastLba firstLba) 1) device.sectorSize).bind fun bytes =>
      (Gpt.planFromEntries ⟨table.entryCount, table.firstUsable, table.lastUsable, h.1, h.2⟩
        entries device.sectorSize (.bytes bytes)).join
  else none

def planRequest (device : Gpt.Device) (table : Gpt.GptTable) (entries : Buf) (request : Gpt.Request) :
    Option Gpt.Plan :=
  if h : table.firstUsable ≤ u64Max ∧ table.lastUsable ≤ u64Max then
    (Gpt.planFromEntries ⟨table.entryCount, table.firstUsable, table.lastUsable, h.1, h.2⟩
      entries device.sectorSize request).join
  else none

def createOn (device : Gpt.Device) (number firstLba lastLba : Nat) : Run Status := do
  if !(← ask .begin) then return .busy
  match ← gptLoad device with
  | .error e => return e
  | .ok (table, entries) =>
    match planFor device table entries firstLba lastLba with
    | none => return .busy
    | some plan =>
      if plan.partitionNumber ≠ number ∨ plan.firstLba ≠ firstLba ∨ plan.lastLba ≠ lastLba then
        return .busy
      match ← ask .guid with
      | none => return .io
      | some guid => publishTable device table (newEntry entries number firstLba lastLba guid)

def gptCreatePartition (r : Registry) (mounts : List Mount) (d : DeviceRef)
    (number firstLba lastLba : Nat) : Run Status :=
  if number = 0 ∨ number > Gpt.maxPartitionEntries ∨ firstLba > lastLba then
    return .invalidParam
  else if !(descriptor r.devices d).live then return .deviceGone
  else if (descriptor r.devices d).readOnly then return .accessDenied
  else if !r.gptPreflightChildren mounts d then return .busy
  else createOn (r.target d) number firstLba lastLba

def deleteOn (device : Gpt.Device) (old : Block.Partition) (info : PartitionInfo)
    (number : Nat) : Run Status := do
  if !(← ask .begin) then return .busy
  match ← gptLoad device with
  | .error e => return e
  | .ok (table, entries) =>
    let index := number - 1
    if Gpt.gptEntryUsed entries index = false ∨ Gpt.entryFirst entries index ≠ old.firstLba ∨
        Gpt.entryLast entries index ≠ old.lastLba ∨
        (entries.skip (index * Gpt.partitionEntryBytes + 16)).bytes Gpt.guidBytes ≠
          info.uniqueGuid then
      return .deviceGone
    publishTable device table
      (entries.fill (index * Gpt.partitionEntryBytes) Gpt.partitionEntryBytes 0)

def gptDeletePartition (r : Registry) (mounts : List Mount) (d partition : DeviceRef)
    (number : Nat) : Run Status :=
  match partition with
  | .disk _ => return .invalidParam
  | .partition a =>
    if number = 0 ∨ r.parentMatches d (.partition a) = false ∨ (r.info a).number ≠ number then
      return .invalidParam
    else if !(descriptor r.devices d).live || !(descriptor r.devices (.partition a)).live then
      return .deviceGone
    else if (descriptor r.devices d).readOnly then return .accessDenied
    else if !r.gptPreflightChildren mounts d then return .busy
    else deleteOn (r.target d) (r.devices.partition a) (r.info a) number

/-- The calls that rewrite a device. -/
inductive Call where
  | format (d : DeviceRef) (filesystem : Option Filesystem)
  | setLabel (d : DeviceRef) (filesystem : Option Filesystem) (label : List UInt8)
  | initializeDevice (d : DeviceRef)
  | create (d : DeviceRef) (number firstLba lastLba : Nat)
  | delete (d partition : DeviceRef) (number : Nat)

def Call.device : Call → DeviceRef
  | .format d _ => d
  | .setLabel d _ _ => d
  | .initializeDevice d => d
  | .create d _ _ _ => d
  | .delete d _ _ => d

def Call.program (r : Registry) (mounts : List Mount) (drivers : Drivers) : Call → Run Status
  | .format d filesystem => storageFormatFilesystem r mounts drivers d filesystem
  | .setLabel d filesystem label => storageSetFilesystemLabel r mounts drivers d filesystem label
  | .initializeDevice d => gptInitializeDevice r mounts d
  | .create d number firstLba lastLba => gptCreatePartition r mounts d number firstLba lastLba
  | .delete d partition number => gptDeletePartition r mounts d partition number

def Call.written (r : Registry) (mounts : List Mount) (drivers : Drivers) (call : Call)
    (faults : Nat → Fault) (block : Block.State) : List (Nat × Nat) :=
  ((call.program r mounts drivers).run (act r.devices call.device) faults 0 ⟨block, []⟩).1.written

def Registry.Owns (r : Registry) (d : DeviceRef) (x : Nat × Nat) : Prop :=
  ∃ k < r.sectorCount d, place r.devices d k = x

def Registry.Overlap (r : Registry) (d e : DeviceRef) : Prop :=
  ∃ x, r.Owns d x ∧ r.Owns e x

/-- No other device with an active mount has a sector in common with the target: neither a
partition of the target disk nor the disk that contains the target partition. -/
def Registry.Alone (r : Registry) (mounts : List Mount) (d : DeviceRef) : Prop :=
  ∀ e ∈ r.registered, r.mounted mounts e = true → e ≠ d → ¬ r.Overlap d e

/-- The target of a call on file systems is alone, if the call gets past the first checks. -/
def Call.Apart (r : Registry) (mounts : List Mount) : Call → Prop
  | .format d (some _) | .setLabel d (some _) _ =>
    fileSystemPreflight r mounts d = .ok → r.Alone mounts d
  | _ => True

/-- No sector is written that belongs to a device with an active mount. -/
def Untouched (r : Registry) (mounts : List Mount) (written : List (Nat × Nat)) : Prop :=
  ∀ x ∈ written, ∀ e ∈ r.registered, r.mounted mounts e = true → ¬ r.Owns e x

section

variable {r : Registry} {d : DeviceRef} {s : State} {α : Type} {lba n : Nat}

lemma placesOf_owned {x : Nat × Nat} (hn : n ≤ r.sectorCount d - lba)
    (hx : x ∈ placesOf r.devices d lba n) : r.Owns d x := by
  obtain ⟨k, hk, rfl⟩ := List.mem_map.mp hx
  have := List.mem_range.mp hk
  exact ⟨lba + k, by omega, rfl⟩

lemma writeOn_fits {buffer : Nat → Sector} {block : Block.State}
    (h : (Block.writeOn r.devices d lba n buffer block).1 = true) : n ≤ r.sectorCount d - lba := by
  unfold Block.writeOn Block.blockWrite at h
  split at h
  · cases h
  · cases d with
    | disk a =>
      simp only [Block.writeCallback, Block.diskWrite] at h
      split at h
      · next hm =>
        simp only [Block.onMedium, Bool.and_eq_true, decide_eq_true_eq] at hm
        exact hm.2
      · cases h
    | partition a =>
      simp only [Block.writeCallback, Block.partitionWrite] at h
      split at h
      · next hp =>
        simp only [Block.inPartition, Bool.and_eq_true, decide_eq_true_eq] at hp
        exact hp.2
      · cases h

lemma act_owned {op : Op} {fault : Fault} (h : ∀ x ∈ s.written, r.Owns d x) :
    ∀ x ∈ (act r.devices d s op fault).1.written, r.Owns d x := by
  cases op with
  | write lba n buffer =>
    show ∀ x ∈ (write r.devices d s lba n buffer fault).1.written, r.Owns d x
    unfold write
    split
    · next hw =>
      have hfits := writeOn_fits hw
      intro x hx
      rcases List.mem_append.mp hx with hx | hx
      · exact h x hx
      · refine placesOf_owned (le_trans ?_ hfits) hx
        split
        · exact le_rfl
        · exact min_le_right _ _
    · exact h
  | read lba n =>
    show ∀ x ∈ (if fault.works then _ else _ : State × _).1.written, r.Owns d x
    split
    · exact h
    · exact h
  | flush | isLive | probe | label | table | guid | begin | register => exact h

lemma run_owned (faults : Nat → Fault) (p : Run α) (k : Nat) (h : ∀ x ∈ s.written, r.Owns d x) :
    ∀ x ∈ (p.run (act r.devices d) faults k s).1.written, r.Owns d x := by
  induction p generalizing k s with
  | done a => exact h
  | call op next ih => exact ih _ _ (act_owned h)

end

section

variable {r : Registry} {mounts : List Mount} {d e : DeviceRef}

lemma formatPreflight_ok (h : r.formatPreflight mounts d = .ok) : r.mounted mounts d = false := by
  unfold Registry.formatPreflight at h
  split at h
  · cases h
  · split at h
    · cases h
    · next hm => exact Bool.eq_false_iff.mpr hm

lemma fileSystemPreflight_ok (h : fileSystemPreflight r mounts d = .ok) :
    r.mounted mounts d = false := by
  unfold fileSystemPreflight at h
  split at h
  · cases h
  · split at h
    · cases h
    · exact formatPreflight_ok h

lemma mounted_congr (h : r.id e = r.id d) : r.mounted mounts e = r.mounted mounts d := by
  unfold Registry.mounted
  rw [h]

lemma overlap_disk {a : Nat} (h : r.Overlap (.disk a) e) :
    r.id e = r.id (.disk a) ∨ r.parentMatches (.disk a) e = true := by
  obtain ⟨x, ⟨j, -, hj⟩, ⟨k, -, hk⟩⟩ := h
  have hx := hk.trans hj.symm
  have hmedium := congrArg Prod.fst hx
  cases e with
  | disk b => exact .inl (r.id_disk b a hmedium)
  | partition b =>
    refine .inr ?_
    have hid := r.id_disk _ a hmedium
    simp only [Registry.parentMatches, hid, beq_self_eq_true]

lemma gptPreflightChildren_disk {a : Nat}
    (h : r.gptPreflightChildren mounts (.disk a) = true) (he : e ∈ r.registered)
    (hover : r.Overlap (.disk a) e) : r.mounted mounts e = false := by
  simp only [Registry.gptPreflightChildren, Bool.and_eq_true, decide_eq_true_eq,
    List.all_eq_true, Bool.or_eq_true, Bool.not_eq_true'] at h
  rcases overlap_disk hover with hid | hchild
  · exact (mounted_congr hid).trans (formatPreflight_ok h.1)
  · rcases h.2 e he with hno | hok
    · rw [hno] at hchild
      cases hchild
    · exact formatPreflight_ok hok

end

section

variable {r : Registry} {mounts : List Mount} {drivers : Drivers} {d : DeviceRef}
  {faults : Nat → Fault} {block : Block.State} {α : Type}

lemma run_untouched (p : Run α)
    (h : ∀ e ∈ r.registered, r.Overlap d e → r.mounted mounts e = false) :
    Untouched r mounts (p.run (act r.devices d) faults 0 ⟨block, []⟩).1.written := by
  intro x hx e he hm howns
  have hd : r.Owns d x := run_owned faults p 0 (fun y hy => absurd hy List.not_mem_nil) x hx
  rw [h e he ⟨x, hd, howns⟩] at hm
  cases hm

lemma apart_free (hself : r.mounted mounts d = false)
    (h : ∀ e ∈ r.registered, r.mounted mounts e = true → e ≠ d → ¬ r.Overlap d e) :
    ∀ e ∈ r.registered, r.Overlap d e → r.mounted mounts e = false := by
  intro e he hover
  by_cases hed : e = d
  · rw [hed, hself]
  · refine Bool.eq_false_iff.mpr fun hm => ?_
    exact h e he hm hed hover

lemma nil_untouched : Untouched r mounts [] := by
  intro x hx
  cases hx

variable {f : Except Status (Gpt.GptTable × Buf) → Run Status} {a : Nat}

lemma gptLoad_partition :
    (gptLoad (r.target (.partition a)) >>= f) = f (.error .unsupported) := by
  unfold gptLoad
  rw [if_pos (.inl rfl)]
  rfl

lemma begin_partition (hf : f (.error .unsupported) = .done .unsupported) : ((do
      if !(← ask .begin) then return .busy
      gptLoad (r.target (.partition a)) >>= f : Run Status).run
        (act r.devices d) faults 0 ⟨block, []⟩).1.written = [] := by
  rw [gptLoad_partition, hf]
  show (Script.run (act r.devices d) faults 1 _ (if !(faults 0).works then _ else _)).1.written = []
  cases (faults 0).works with
  | false | true => rfl

lemma createOn_partition {a number firstLba lastLba : Nat} :
    ((createOn (r.target (.partition a)) number firstLba lastLba).run
      (act r.devices d) faults 0 ⟨block, []⟩).1.written = [] := by
  exact begin_partition rfl

lemma deleteOn_partition {a number : Nat} {old : Block.Partition} {info : PartitionInfo} :
    ((deleteOn (r.target (.partition a)) old info number).run
      (act r.devices d) faults 0 ⟨block, []⟩).1.written = [] := by
  exact begin_partition rfl

lemma gpt_untouched {p : Run Status} (h : r.gptPreflightChildren mounts d = true)
    (hpart : ∀ a, d = .partition a →
      (p.run (act r.devices d) faults 0 ⟨block, []⟩).1.written = []) :
    Untouched r mounts (p.run (act r.devices d) faults 0 ⟨block, []⟩).1.written := by
  cases d with
  | disk a => exact run_untouched p fun e he hover => gptPreflightChildren_disk h he hover
  | partition a =>
    rw [hpart a rfl]
    exact nil_untouched

lemma fileSystem_untouched {p : Run Status}
    (h : fileSystemPreflight r mounts d = .ok → r.Alone mounts d) :
    Untouched r mounts
      (((match fileSystemPreflight r mounts d with
        | .ok => p
        | error => return error : Run Status).run
          (act r.devices d) faults 0 ⟨block, []⟩).1.written) := by
  split
  · next hok => exact run_untouched p (apart_free (fileSystemPreflight_ok hok) (h hok))
  · exact nil_untouched

lemma gptInitializeDevice_untouched : Untouched r mounts
      ((gptInitializeDevice r mounts d).run (act r.devices d) faults 0 ⟨block, []⟩).1.written := by
  unfold gptInitializeDevice
  split
  · exact nil_untouched
  rename_i htype
  iterate 4
    split
    · exact nil_untouched
  rename_i hpre
  refine gpt_untouched (by simpa using hpre) fun a ha => ?_
  exact absurd (by rw [ha]; rfl) htype

lemma gptCreatePartition_untouched {number firstLba lastLba : Nat} : Untouched r mounts
      ((gptCreatePartition r mounts d number firstLba lastLba).run
        (act r.devices d) faults 0 ⟨block, []⟩).1.written := by
  unfold gptCreatePartition
  iterate 4
    split
    · exact nil_untouched
  rename_i hpre
  refine gpt_untouched (by simpa using hpre) fun a ha => ?_
  rw [ha]
  exact createOn_partition

lemma gptDeletePartition_untouched {partition : DeviceRef} {number : Nat} : Untouched r mounts
      ((gptDeletePartition r mounts d partition number).run
        (act r.devices d) faults 0 ⟨block, []⟩).1.written := by
  cases partition with
  | disk a => exact nil_untouched
  | partition b =>
    unfold gptDeletePartition
    simp only
    iterate 4
      split
      · exact nil_untouched
    rename_i hpre
    refine gpt_untouched (by simpa using hpre) fun a ha => ?_
    rw [ha]
    exact deleteOn_partition

end

/-- If no other mounted device has a sector in common with the target of a call on file
systems, no call writes a sector of a mounted device. The table calls need no such
condition. -/
theorem no_mounted_sector_written (r : Registry) (mounts : List Mount) (drivers : Drivers)
    (call : Call) (faults : Nat → Fault) (block : Block.State) (h : call.Apart r mounts) :
    Untouched r mounts (call.written r mounts drivers faults block) := by
  cases call with
  | format d filesystem | setLabel d filesystem =>
    cases filesystem with
    | none => exact nil_untouched
    | some filesystem => exact fileSystem_untouched h
  | initializeDevice d => exact gptInitializeDevice_untouched
  | create d number firstLba lastLba => exact gptCreatePartition_untouched
  | delete d partition number => exact gptDeletePartition_untouched

section

def twoDisks : Registry where
  devices :=
    { disk := fun a =>
        { sectorSize := 512
          readOnly := false
          live := true
          medium := a
          blockCount := 66600 }
      partition := fun a =>
        { sectorSize := 512
          readOnly := false
          live := true
          parent := a
          firstLba := 40
          lastLba := 66559
          first_le_last := by decide
          last_le := by decide } }
  id
    | .disk a => 2 * a
    | .partition a => 2 * a + 1
  info := fun _ => ⟨1, []⟩
  registered := [.disk 0, .partition 0, .disk 1, .partition 1]
  id_disk := fun _ _ h => congrArg (2 * ·) h
  blockCount_le := fun _ => show 66600 ≤ u64Max by decide
  lastLba_lt := fun _ => show 66559 < u64Max by decide

def allWork : Nat → Fault := fun _ => ⟨true, 0, some .fat32, [], []⟩

def noDrivers : Drivers where
  formatMgfs _ := return false
  exfatFormatDevice _ := return false
  setLabel _ _ _ := return false
  labelValid _ _ := false

def blankBlock : Block.State := Block.boot fun _ _ => []

/-- Formatting a disk beside a mounted one. -/
theorem other_disk_untouched : Call.Apart twoDisks [⟨true, 3⟩] (.format (.disk 0) (some .fat32)) ∧
      Untouched twoDisks [⟨true, 3⟩]
        (Call.written twoDisks [⟨true, 3⟩] noDrivers (.format (.disk 0) (some .fat32)) allWork
          blankBlock) := by
  have h : Call.Apart twoDisks [⟨true, 3⟩] (.format (.disk 0) (some .fat32)) := by
    rintro - e he hm - ⟨x, ⟨j, -, hj⟩, ⟨k, -, hk⟩⟩
    have hmedium := congrArg Prod.fst (hk.trans hj.symm)
    simp only [twoDisks, List.mem_cons, List.not_mem_nil, or_false] at he
    rcases he with rfl | rfl | rfl | rfl
    · cases hm
    · cases hm
    · cases hm
    · cases hmedium
  exact ⟨h, no_mounted_sector_written _ _ _ _ _ _ h⟩

/-- The whole disk is formatted while its partition is mounted: the call succeeds and has
overwritten the first sector of the partition. -/
theorem format_over_mounted_partition :
    ((Call.program twoDisks [⟨true, 1⟩] noDrivers (.format (.disk 0) (some .fat32))).run
        (act twoDisks.devices (.disk 0)) allWork 0 ⟨blankBlock, []⟩).2 = .ok ∧
      ¬ Untouched twoDisks [⟨true, 1⟩]
        (Call.written twoDisks [⟨true, 1⟩] noDrivers (.format (.disk 0) (some .fat32)) allWork
          blankBlock) := by
  refine ⟨by decide +kernel, fun h => ?_⟩
  have hwritten : (0, 40) ∈ Call.written twoDisks [⟨true, 1⟩] noDrivers
      (.format (.disk 0) (some .fat32)) allWork blankBlock := by decide +kernel
  exact h (0, 40) hwritten (.partition 0) (by decide) rfl ⟨0, by decide, rfl⟩

end

end Mangrove.Storage
