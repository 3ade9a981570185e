import Mangrove.Bytes

/-! The regions of an MGFS volume, which four programs compute with their own arithmetic; the
driver's mounted state, and the two kinds of routine it is written in: checks that only read, and
programs that also write. -/

namespace Mangrove.Mgfs

/-- Where the regions of a volume begin, in blocks, and how long they are. -/
structure Layout where
  allocationBitmapStart : Nat
  allocationBitmapBlocks : Nat
  recordBitmapStart : Nat
  recordBitmapBlocks : Nat
  recordTableStart : Nat
  recordTableBlocks : Nat
  recordCount : Nat
  dataStart : Nat
  dataBlocks : Nat
deriving DecidableEq

def bitmapBitsPerBlock : Nat := 32576

def recordsPerTableBlock : Nat := 21

def minTotalBlocks : Nat := 64

def tableBlocksDivisor : Nat := 320

def ceilDiv (value divisor : Nat) : Nat :=
  value / divisor + if value % divisor ≠ 0 then 1 else 0

def atLeastOne (n : Nat) : Nat := if n = 0 then 1 else n

def calculateLayout (totalBlocks : Nat) : Option Layout := do
  guard (minTotalBlocks ≤ totalBlocks)
  let tableBlocks := atLeastOne (totalBlocks / tableBlocksDivisor)
  guard (tableBlocks ≤ u64Max / recordsPerTableBlock)
  let recordCount := tableBlocks * recordsPerTableBlock
  let recordBitmapBlocks := ceilDiv recordCount bitmapBitsPerBlock
  let allocationBitmapBlocks := ceilDiv totalBlocks bitmapBitsPerBlock
  guard (allocationBitmapBlocks ≤ u64Max - 1 ∧
    recordBitmapBlocks ≤ u64Max - 1 - allocationBitmapBlocks ∧
    tableBlocks ≤ u64Max - 1 - allocationBitmapBlocks - recordBitmapBlocks)
  let dataStart := 1 + allocationBitmapBlocks + recordBitmapBlocks + tableBlocks
  guard (dataStart < totalBlocks)
  return {
    allocationBitmapStart := 1
    allocationBitmapBlocks
    recordBitmapStart := 1 + allocationBitmapBlocks
    recordBitmapBlocks
    recordTableStart := 1 + allocationBitmapBlocks + recordBitmapBlocks
    recordTableBlocks := tableBlocks
    recordCount
    dataStart
    dataBlocks := totalBlocks - dataStart }

/-- `calculate_mgfs_layout` of the runtime formatter rounds up by adding
`32575` first, so it also refuses sizes for which that sum would wrap. -/
def calculateMgfsLayout (totalBlocks : Nat) : Option Layout := do
  guard (minTotalBlocks ≤ totalBlocks)
  let tableBlocks := atLeastOne (totalBlocks / tableBlocksDivisor)
  guard (tableBlocks ≤ u64Max / recordsPerTableBlock)
  let recordCount := tableBlocks * recordsPerTableBlock
  guard (recordCount ≤ u64Max - (bitmapBitsPerBlock - 1) ∧
    totalBlocks ≤ u64Max - (bitmapBitsPerBlock - 1))
  let recordBitmapBlocks := (recordCount + bitmapBitsPerBlock - 1) / bitmapBitsPerBlock
  let allocationBitmapBlocks := (totalBlocks + bitmapBitsPerBlock - 1) / bitmapBitsPerBlock
  guard (allocationBitmapBlocks ≤ u64Max - 1 ∧
    recordBitmapBlocks ≤ u64Max - 1 - allocationBitmapBlocks ∧
    tableBlocks ≤ u64Max - 1 - allocationBitmapBlocks - recordBitmapBlocks)
  let dataStart := 1 + allocationBitmapBlocks + recordBitmapBlocks + tableBlocks
  guard (dataStart < totalBlocks)
  return {
    allocationBitmapStart := 1
    allocationBitmapBlocks
    recordBitmapStart := 1 + allocationBitmapBlocks
    recordBitmapBlocks
    recordTableStart := 1 + allocationBitmapBlocks + recordBitmapBlocks
    recordTableBlocks := tableBlocks
    recordCount
    dataStart
    dataBlocks := totalBlocks - dataStart }

def mkmgfsCalculateLayout (totalBlocks : Nat) : Option Layout := do
  guard (minTotalBlocks ≤ totalBlocks)
  let tableBlocks := atLeastOne (totalBlocks / tableBlocksDivisor)
  guard (tableBlocks ≤ u64Max / recordsPerTableBlock)
  let recordCount := tableBlocks * recordsPerTableBlock
  let recordBitmapBlocks := ceilDiv recordCount bitmapBitsPerBlock
  let allocationBitmapBlocks := ceilDiv totalBlocks bitmapBitsPerBlock
  guard (allocationBitmapBlocks ≤ u64Max - 1 ∧
    recordBitmapBlocks ≤ u64Max - 1 - allocationBitmapBlocks ∧
    tableBlocks ≤ u64Max - 1 - allocationBitmapBlocks - recordBitmapBlocks)
  let metadataBlocks := 1 + allocationBitmapBlocks + recordBitmapBlocks + tableBlocks
  guard (metadataBlocks < totalBlocks)
  let recordBitmapStart := 1 + allocationBitmapBlocks
  let recordTableStart := recordBitmapStart + recordBitmapBlocks
  let dataStart := recordTableStart + tableBlocks
  return {
    allocationBitmapStart := 1
    allocationBitmapBlocks
    recordBitmapStart
    recordBitmapBlocks
    recordTableStart
    recordTableBlocks := tableBlocks
    recordCount
    dataStart
    dataBlocks := totalBlocks - dataStart }

def bootAdd (left right : Nat) : Option Nat :=
  if left > u64Max - right then none else some (left + right)

def superblockLayout (block : Buf) : Layout where
  allocationBitmapStart := getLe64 block 104
  allocationBitmapBlocks := getLe64 block 112
  recordBitmapStart := getLe64 block 120
  recordBitmapBlocks := getLe64 block 128
  recordTableStart := getLe64 block 136
  recordTableBlocks := getLe64 block 144
  recordCount := getLe64 block 152
  dataStart := getLe64 block 160
  dataBlocks := getLe64 block 168

/-- `mgfs_boot_validate_layout`: the regions the boot loader goes on with, if
the superblock describes them. -/
def bootValidateLayout (totalBlocks : Nat) (superblock : Buf) : Option Layout := do
  let tableBlocks := atLeastOne (totalBlocks / 320)
  guard (tableBlocks ≤ u64Max / 21)
  let recordCount := tableBlocks * 21
  let recordBitmapBlocks := ceilDiv recordCount bitmapBitsPerBlock
  let allocationBitmapBlocks := ceilDiv totalBlocks bitmapBitsPerBlock
  let dataStart ← bootAdd 1 allocationBitmapBlocks
  let dataStart ← bootAdd dataStart recordBitmapBlocks
  let dataStart ← bootAdd dataStart tableBlocks
  guard (dataStart < totalBlocks)
  let expected : Layout := {
    allocationBitmapStart := 1
    allocationBitmapBlocks
    recordBitmapStart := 1 + allocationBitmapBlocks
    recordBitmapBlocks
    recordTableStart := 1 + allocationBitmapBlocks + recordBitmapBlocks
    recordTableBlocks := tableBlocks
    recordCount
    dataStart
    dataBlocks := totalBlocks - dataStart }
  guard (superblockLayout superblock = expected)
  return expected

def extentDirectoryMetadata : Nat := 0x2

def extentListMagic : Nat := 0x315458455346474D

def extentsPerListBlock : Nat := 126

def inlineDataBytes : Nat := 56

end Mangrove.Mgfs

namespace Mangrove

inductive NodeType where
  | unknown
  | file
  | directory
deriving DecidableEq

inductive ChildMutationPolicy where
  | isOpen
  | ownerRestricted
deriving DecidableEq

/-- `vfs_node_t`, without the pointers that tie it to its superblock. -/
structure Node where
  inode : Nat
  type : NodeType
  size : Nat
  ownerUid : Nat
  permissions : Nat
  childMutationPolicy : ChildMutationPolicy

def permissionKnown : Nat := 0xF

def defaultSystemPermissions : Nat := 0x7

def defaultDirectoryPermissions : Nat := defaultSystemPermissions

namespace Mgfs

/-- A cell of the index from Record IDs to slots. -/
structure RecordRef where
  id : Nat
  slot : Nat

structure DentryCacheEntry where
  valid : Bool
  parentId : Nat
  targetId : Nat
  age : Nat
  name : List UInt8

/-- What the driver keeps in memory of a mounted volume. -/
structure Fs where
  formatMinor : Nat
  layout : Layout
  totalBlocks : Nat
  rootRecordId : Nat
  nextRecordId : Nat
  recordBitmap : Buf
  recordBitmapBytes : Nat
  recordIds : Nat → RecordRef
  recordIdCapacity : Nat
  allocatedRecordCount : Nat
  dentryCache : Nat → DentryCacheEntry
  dentryCacheAge : Nat

/-- The device, the driver, and what answers to both. -/
structure World where
  dev : Device
  env : Env
  writes : Nat
  fs : Fs

abbrev Res := Except (Option String)

abbrev Io := Prog World (Option String)

abbrev Vfs := Prog World VfsError

def formatMajor : Nat := 1
def formatMinorCurrent : Nat := 2
def formatMinorLegacy : Nat := 1
def headerBytes : Nat := 200
def blockBytes : Nat := 4096
def recordBytes : Nat := 192
def bitmapHeaderBytes : Nat := 24

def stateKnownMask : Nat := 0x3
def stateClean : Nat := 0x1
def stateNeedsFsck : Nat := 0x2

def metadataAllocationBitmap : Nat := 1
def metadataRecordBitmap : Nat := 2
def metadataRecordTable : Nat := 3

def recordFile : Nat := 1
def recordDirectory : Nat := 2

def direntInUse : Nat := 1
def direntTombstone : Nat := 2

def superChecksumOffset : Nat := 192
def metadataChecksumOffset : Nat := 16
def recordChecksumOffset : Nat := 184

def readBlock (w : World) (blockNumber : Nat) : Res Buf := do
  ensure (w.dev.sectorSize = 512) (some "MGFS requires 512-byte block-device sectors")
  ensure (blockNumber ≤ u64Max / 8) (some "MGFS block address overflows the sector address")
  let lba := blockNumber * 8
  ensure (lba ≤ w.dev.sectorCount ∧ 8 ≤ w.dev.sectorCount - lba)
    (some "MGFS block lies outside the block device")
  ensure (w.env.readable blockNumber) (some "MGFS block read failed")
  return w.dev.block blockNumber

/-- `block_write` of the block layer: one request to the device. -/
def blockWrite (lba count : Nat) (buffer : Buf) : Io Unit := do
  let w ← Prog.get
  Prog.modify fun w => { w with writes := w.writes + 1 }
  Prog.require (w.env.writeOk w.writes) (some "MGFS block write failed")
  Prog.modify fun w => { w with dev := w.dev.writeSectors lba count buffer }

def writeBlock (blockNumber : Nat) (buffer : Buf) : Io Unit := do
  let w ← Prog.get
  Prog.require (w.dev.sectorSize = 512 ∧ blockNumber ≤ u64Max / 8) (some "invalid MGFS block write")
  let lba := blockNumber * 8
  Prog.require (lba ≤ w.dev.sectorCount ∧ 8 ≤ w.dev.sectorCount - lba)
    (some "MGFS block write failed")
  blockWrite lba 8 buffer

def kmalloc (w : World) (bytes : Nat) (e : Option String) : Res Unit := ensure (w.env.heap bytes) e

end Mgfs

end Mangrove
