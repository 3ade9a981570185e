import Mangrove.Mgfs.File

/-! Directory streams and the names in them: lookup, creation, deletion, which leaves a
tombstone, and renaming. Mounting, and the runtime formatter of `storage/format.c`. -/

namespace Mangrove.Mgfs

/-- An entry of a directory stream, as the parser returns it. -/
structure DirectoryEntry where
  targetRecordId : Nat
  nameLength : Nat
  flags : Nat
  totalBytes : Nat
  name : List UInt8
deriving DecidableEq

def utf8ContinuationCount (first : UInt8) : Nat :=
  if 0xC2 ≤ first ∧ first ≤ 0xDF then 1
  else if 0xE0 ≤ first ∧ first ≤ 0xEF then 2
  else if 0xF0 ≤ first ∧ first ≤ 0xF4 then 3
  else 0

def utf8SecondRefused (first second : UInt8) : Bool :=
  (first == 0xE0 && second < 0xA0) || (first == 0xED && second > 0x9F) ||
    (first == 0xF0 && second < 0x90) || (first == 0xF4 && second > 0x8F)

def validUtf8From : Nat → List UInt8 → Bool
  | _, [] => true
  | 0, _ :: _ => false
  | fuel + 1, first :: rest =>
    if first = 0 ∨ first = 0x2F then false
    else if first < 0x80 then validUtf8From fuel rest
    else
      let count := utf8ContinuationCount first
      if count = 0 ∨ rest.length < count then false
      else if (rest.take count).any fun value => decide (value < 0x80 ∨ value > 0xBF) then false
      else if utf8SecondRefused first (rest.getD 0 0) then false
      else validUtf8From fuel (rest.drop count)

def validUtf8Name (name : List UInt8) : Bool :=
  if name.length = 0 ∨ name.length > 255 ∨ name = [0x2E] ∨ name = [0x2E, 0x2E] then false
  else validUtf8From name.length name

def readDirectoryChunks (w : World) (record : Buf) : Nat → Nat → Nat → Nat → Buf → Res Buf
  | 0, _, remaining, _, output => if remaining = 0 then .ok output else .error none
  | fuel + 1, offset, remaining, position, output =>
    if remaining = 0 then .ok output else do
      let logicalBlock := offset / blockBytes
      let withinBlock := offset % blockBytes
      let chunk := if blockBytes - withinBlock > remaining then remaining
        else blockBytes - withinBlock
      let block ← readDirectoryBlock w record logicalBlock
      readDirectoryChunks w record fuel (offset + chunk) (remaining - chunk) (position + chunk)
        (output.copy position (block.skip withinBlock) chunk)

def readDirectoryBytes (w : World) (record : Buf) (offset size : Nat) : Res Buf := do
  let logicalSize := getLe64 record 32
  ensure (offset ≤ logicalSize ∧ size ≤ logicalSize - offset)
    (some "MGFS directory read exceeds its logical size")
  readDirectoryChunks w record size offset size 0 Buf.zero

def alignedLength (nameLength : Nat) : Nat := (32 + nameLength + 7) / 8 * 8

def readDirectoryEntry (w : World) (record : Buf) (offset : Nat) : Res DirectoryEntry := do
  let size := getLe64 record 32
  let header ← orElse (some "truncated MGFS directory entry header") do
    ensure (offset ≤ size ∧ 32 ≤ size - offset) (none : Option String)
    readDirectoryBytes w record offset 32
  let nameLength := getLe64 header 8
  ensure (nameLength ≠ 0 ∧ nameLength ≤ 255) (some "invalid MGFS directory entry name length")
  let totalBytes := alignedLength nameLength
  let serialized ← orElse (some "truncated MGFS directory entry") do
    ensure (totalBytes ≤ 288 ∧ totalBytes ≤ size - offset) (none : Option String)
    readDirectoryBytes w record offset totalBytes
  ensure (checksumBlock serialized 24 totalBytes) (some "MGFS directory entry checksum mismatch")
  ensure (∀ i < totalBytes, 32 + nameLength ≤ i → serialized i = 0)
    (some "nonzero MGFS directory entry padding")
  let name := (serialized.skip 32).bytes nameLength
  ensure (getLe64 serialized 0 ≠ 0 ∧
      (getLe64 serialized 16 = direntInUse ∨ getLe64 serialized 16 = direntTombstone) ∧
      validUtf8Name name) (some "invalid MGFS directory entry fields or name")
  return {
    targetRecordId := getLe64 serialized 0
    nameLength
    flags := getLe64 serialized 16
    totalBytes
    name }

def nameHash (name : List UInt8) : UInt64 :=
  name.foldl (fun hash b => (hash ^^^ b.toUInt64) * 1099511628211) 1469598103934665603

def seenBucket (name : List UInt8) : Nat := (nameHash name).toNat % 64

abbrev SeenNames := Nat → List (List UInt8)

def seenNameContains (seen : SeenNames) (name : List UInt8) : Bool :=
  (seen (seenBucket name)).any fun other => other == name

def seenNameAdd (seen : SeenNames) (name : List UInt8) : SeenNames :=
  fun bucket => if bucket = seenBucket name then name :: seen bucket else seen bucket

/-- What a scan of a directory looks for. -/
inductive Wanted where
  | name (name : List UInt8)
  | index (index : Nat)

def Wanted.matches (wanted : Wanted) (entry : DirectoryEntry) (visibleIndex : Nat) : Bool :=
  match wanted with
  | .name wantedName => entry.name == wantedName
  | .index wantedIndex => visibleIndex == wantedIndex

/-- Where a scan is, and what it has met. -/
structure ScanState where
  seen : SeenNames
  visibleIndex : Nat
  found : Option (DirectoryEntry × Buf)

def scanEntry (w : World) (wanted : Wanted) (s : ScanState) (entry : DirectoryEntry) :
    Res ScanState :=
  if entry.flags = direntTombstone then .ok s else do
    ensure (¬ seenNameContains s.seen entry.name) (some "duplicate in-use MGFS directory name")
    kmalloc w 272 (some "unable to allocate MGFS directory name state")
    let seen := seenNameAdd s.seen entry.name
    let found ←
      if wanted.matches entry s.visibleIndex then do
        let childRecord ← readRecord w entry.targetRecordId
        pure (some (entry, childRecord))
      else pure s.found
    return { seen, visibleIndex := (s.visibleIndex + 1) % 2 ^ 32, found }

/-- The entry loop of `mgfs_scan_directory`; an entry has 40 bytes or more, so
the size of the stream bounds it. -/
def scanEntries (w : World) (record : Buf) (wanted : Wanted) : Nat → Nat → ScanState → Res ScanState
  | 0, offset, s =>
    if getLe64 record 32 ≤ offset then do
      ensure (offset = getLe64 record 32) (some "MGFS directory stream has trailing bytes")
      return s
    else .error none
  | fuel + 1, offset, s =>
    if getLe64 record 32 ≤ offset then do
      ensure (offset = getLe64 record 32) (some "MGFS directory stream has trailing bytes")
      return s
    else do
      let entry ← readDirectoryEntry w record offset
      let s' ← scanEntry w wanted s entry
      scanEntries w record wanted fuel (offset + entry.totalBytes) s'

def readDirectoryRecord (w : World) (recordId : Nat) (e : Option String) : Res Buf :=
  orElse e do
    let record ← readRecord w recordId
    ensure (getLe64 record 0 = recordDirectory) (none : Option String)
    return record

/-- `none` when the stream is sound and nothing in it matches. -/
def scanDirectory (w : World) (dirId : Nat) (wanted : Wanted) :
    Res (Option (DirectoryEntry × Buf)) := do
  let record ← readDirectoryRecord w dirId (some "MGFS directory Record is invalid")
  let s ← scanEntries w record wanted (getLe64 record 32) 0 ⟨fun _ => [], 0, none⟩
  return s.found

/-- The bytes of a new in-use entry, and what `mgfs_rename_entry` and
`mgfs_create_node` pass on as its length. -/
def newEntry (targetRecordId : Nat) (name : List UInt8) : Buf :=
  let entry := storeLe64 Buf.zero 0 targetRecordId
  let entry := storeLe64 entry 8 name.length
  let entry := storeLe64 entry 16 direntInUse
  let entry := entry.copy 32 (Buf.ofList name) name.length
  recomputeChecksum entry 24 (alignedLength name.length)

def adjacentDirectoryBlock (extents : List Extent) (physicalBlock : Nat) : Bool :=
  match extents.getLast? with
  | some last => decide (last.physicalStart ≤ u64Max - last.blockCount ∧
      last.physicalStart + last.blockCount = physicalBlock)
  | none => false

/-- Add the block just allocated to a directory's extents. The caller's array has room for
`record_count` of them, which is not checked here: where the source stores the new extent behind
the end of the array, the model takes it as stored, and nothing else as changed. -/
def growDirectory (extents : List Extent) (oldBlockCount physicalBlock : Nat) : Io (List Extent) :=
  if adjacentDirectoryBlock extents physicalBlock then
    pure (extents.dropLast ++
      (extents.getLast?.map fun last => { last with blockCount := last.blockCount + 1 }).toList)
  else if extents.length ≥ 2 + extentsPerListBlock then do
    Prog.attempt (freeDataBlock physicalBlock)
    Prog.fail (some "MGFS directory extent capacity exceeded")
  else pure (extents ++ [⟨oldBlockCount, physicalBlock, 1, extentDirectoryMetadata⟩])

def directoryRecord (parent : Buf) (newSize : Nat) (extents : List Extent) (listHead : Nat) : Buf :=
  let parent := storeLe64 parent 32 newSize
  let parent := storeLe64 parent 24 (add64 (getLe64 parent 24) 1)
  let parent := storeLe64 parent 40 extents.length
  let parent := storeLe64 parent 48 (if extents.length < 2 then extents.length else 2)
  let parent := parent.fill 64 64 0
  let parent := storeExtents extentDirectoryMetadata parent 64 (extents.take 2)
  let parent := storeLe64 parent 56 (if extents.length > 2 then listHead else 0)
  recomputeChecksum parent recordChecksumOffset recordBytes

def writeEntryBytes (parent : Buf) (entry : Buf) (entryBytes : Nat) (newBlock : Option Nat) :
    Io Unit := do
  let logicalSize := getLe64 parent 32
  let within := logicalSize % blockBytes
  match newBlock with
  | some physicalBlock => do
    if within ≠ 0 then do
      let firstBytes := blockBytes - within
      let previous ← Prog.look fun w => findDirectoryBlock w parent (logicalSize / blockBytes)
      let block ← Prog.look fun w => readBlock w previous
      writeBlock previous (block.copy within entry firstBytes)
      writeBlock physicalBlock
        (Buf.zero.copy 0 (entry.skip firstBytes) (entryBytes - firstBytes))
    else writeBlock physicalBlock (Buf.zero.copy 0 entry entryBytes)
  | none => do
    let physicalBlock ← Prog.look fun w => findDirectoryBlock w parent (logicalSize / blockBytes)
    let block ← Prog.look fun w => readBlock w physicalBlock
    writeBlock physicalBlock (block.copy within entry entryBytes)

def dentryCacheInvalidateParent (fs : Fs) (parentId : Nat) : Fs :=
  { fs with dentryCache := fun i =>
      if (fs.dentryCache i).valid ∧ (fs.dentryCache i).parentId = parentId then
        { fs.dentryCache i with valid := false }
      else fs.dentryCache i }

def appendDirectoryEntry (parentId : Nat) (entry : Buf) (entryBytes : Nat) : Io Buf := do
  let parent ← Prog.look fun w => orElse (some "MGFS parent is not a directory") do
    ensure (entryBytes ≠ 0 ∧ entryBytes ≤ blockBytes) (none : Option String)
    readDirectoryRecord w parentId none
  let logicalSize := getLe64 parent 32
  Prog.require (logicalSize ≤ u64Max - entryBytes) (some "MGFS directory size overflow")
  let newSize := logicalSize + entryBytes
  let oldBlockCount := ceilDiv logicalSize blockBytes
  let requiredBlockCount := ceilDiv newSize blockBytes
  let capacity := (← Prog.get).fs.layout.recordCount
  Prog.require (capacity ≤ u64Max / 32) (some "MGFS directory extent allocation overflow")
  Prog.look fun w => kmalloc w (capacity * 32) none
  let extents ← Prog.look fun w => collectFileExtents w parent capacity extentDirectoryMetadata
  let extents ←
    if requiredBlockCount > oldBlockCount then do
      let physicalBlock ← allocateDataBlock
      let extents ← growDirectory extents oldBlockCount physicalBlock
      writeEntryBytes parent entry entryBytes (some physicalBlock)
      pure extents
    else do
      writeEntryBytes parent entry entryBytes none
      pure extents
  let listHead ← placeExtentList parentId (getLe64 parent 56) extents extentDirectoryMetadata
  let newParent := directoryRecord parent newSize extents listHead
  let slot ← Prog.look fun w => findSlot w parentId none
  writeRecordSlot slot newParent
  Prog.modify fun w => { w with fs := dentryCacheInvalidateParent w.fs parentId }
  return newParent

def behindBuffer (env : Env) (physical : Nat) : Buf :=
  match env.spill with
  | none => env.stack
  | some place => storeLe64 env.stack place physical

def keptNumber (env : Env) (physical : Nat) (buffer : Buf) : Nat :=
  match env.spill with
  | none => physical
  | some place => getLe64 buffer (blockBytes + place)

/-- `mgfs_publish_tombstone` works in a buffer of one block, so for an entry that
crosses the block's end it reads and writes what lies behind the buffer on the
stack. The number of the block to write may be among it. -/
def publishTombstone (record : Buf) (offset entryBytes : Nat) : Io Unit := do
  let physical ← Prog.look fun w => findDirectoryBlock w record (offset / blockBytes)
  let block ← Prog.look fun w => readBlock w physical
  let env := (← Prog.get).env
  let buffer : Buf := fun i =>
    if i < blockBytes then block i else behindBuffer env physical (i - blockBytes)
  let within := offset % blockBytes
  let entry := recomputeChecksum (storeLe64 (buffer.skip within) 16 direntTombstone) 24 entryBytes
  let stored : Buf := fun i => if i < within then buffer i else entry (i - within)
  writeBlock (keptNumber env physical stored) stored

def nodeBytes : Nat := 72

/-- `MGFSv1` followed by two NUL bytes. -/
def superMagic : List UInt8 := [0x4D, 0x47, 0x46, 0x53, 0x76, 0x31, 0, 0]

/-- The fields of a superblock that mounting checks. -/
structure Superblock where
  formatMinor : Nat
  totalBlocks : Nat
  layout : Layout
  rootRecordId : Nat
  nextRecordId : Nat

def validateSuperblock (dev : Device) (block : Buf) : Res Superblock := do
  ensure (block.bytes 8 = superMagic) (some "MGFS magic mismatch")
  ensure (getLe64 block 8 = formatMajor ∧
      (getLe64 block 16 = formatMinorCurrent ∨ getLe64 block 16 = formatMinorLegacy))
    (some "unsupported MGFS version")
  ensure (getLe64 block 24 = headerBytes ∧ getLe64 block 32 = blockBytes)
    (some "invalid MGFS header or block size")
  ensure (∀ i < blockBytes, 288 ≤ i → block i = 0) (some "nonzero MGFS superblock reserved bytes")
  ensure (checksumBlock block superChecksumOffset headerBytes)
    (some "MGFS superblock checksum mismatch")
  let totalBlocks := getLe64 block 40
  ensure (minTotalBlocks ≤ totalBlocks ∧ totalBlocks = dev.sectorCount / 8)
    (some "MGFS total block count does not match the device")
  ensure (getLe64 block 48 = 0 ∧ getLe64 block 56 = 0) (some "unsupported MGFS feature flags")
  let stateFlags := getLe64 block 64
  ensure (stateFlags &&& (u64Max ^^^ stateKnownMask) = 0 ∧ stateFlags ≠ 0)
    (some "invalid MGFS state flags")
  match calculateLayout totalBlocks with
  | none => .error (some "invalid MGFS region layout")
  | some expected => do
    ensure (superblockLayout block = expected) (some "invalid MGFS region layout")
    ensure (getLe64 block 88 = 1 ∧ 2 ≤ getLe64 block 96)
      (some "invalid MGFS root or next Record ID")
    return {
      formatMinor := getLe64 block 16
      totalBlocks
      layout := expected
      rootRecordId := getLe64 block 88
      nextRecordId := getLe64 block 96 }

def blockValidBits (validBits index : Nat) : Nat :=
  let firstBit := index * bitmapBitsPerBlock
  if firstBit < validBits then
    if validBits - firstBit < bitmapBitsPerBlock then validBits - firstBit else bitmapBitsPerBlock
  else 0

/-- `copy` gathers the blocks read, as the driver keeps the record bitmap. -/
def validateBitmapRegion (w : World) (start expectedKind validBits : Nat) :
    Nat → Nat → Buf → Res Buf
  | _, 0, copy => .ok copy
  | index, n + 1, copy => do
    let block ← readBlock w (start + index)
    validateMetadataHeader block expectedKind index
    ensure (∀ bit < bitmapBitsPerBlock, blockValidBits validBits index ≤ bit →
        bitSet (block (bitmapHeaderBytes + bit / 8)) (bit % 8) = true)
      (some "MGFS bitmap has a free out-of-range bit")
    validateBitmapRegion w start expectedKind validBits (index + 1) n
      (copy.copy (index * blockBytes) block blockBytes)

def growCapacity : Nat → Nat → Nat → Option Nat
  | 0, _, _ => none
  | fuel + 1, wanted, capacity =>
    if capacity < wanted then
      if capacity > u64Max / 2 then none else growCapacity fuel wanted (capacity * 2)
    else some capacity

def allocatedCount (fs : Fs) : Nat :=
  (List.range fs.layout.recordCount).countP (recordSlotAllocated fs)

def scanSlot (fs : Fs) (block : Buf) (tableIndex slotInBlock : Nat) (rootSlot : Option Nat) :
    Res (Fs × Option Nat) := do
  let slot := tableIndex * recordsPerTableBlock + slotInBlock
  if ¬ (slot < fs.layout.recordCount ∧ recordSlotAllocated fs slot) then return (fs, rootSlot)
  else do
    let record := block.skip (bitmapHeaderBytes + slotInBlock * recordBytes)
    validateRecord (some fs.formatMinor) record
    let fs ← insertRecordId fs (getLe64 record 16) slot
    if getLe64 record 16 = fs.rootRecordId then do
      ensure (rootSlot = none ∧ getLe64 record 0 = recordDirectory)
        (some "invalid MGFS root Record")
      return (fs, some slot)
    else return (fs, rootSlot)

def scanSlots (block : Buf) (tableIndex : Nat) : Nat → Nat → Fs → Option Nat → Res (Fs × Option Nat)
  | _, 0, fs, rootSlot => .ok (fs, rootSlot)
  | slotInBlock, n + 1, fs, rootSlot => do
    let (fs, rootSlot) ← scanSlot fs block tableIndex slotInBlock rootSlot
    scanSlots block tableIndex (slotInBlock + 1) n fs rootSlot

def scanTable (w : World) : Nat → Nat → Fs → Option Nat → Res (Fs × Option Nat)
  | _, 0, fs, rootSlot => .ok (fs, rootSlot)
  | tableIndex, n + 1, fs, rootSlot => do
    let block ← readBlock w (fs.layout.recordTableStart + tableIndex)
    validateMetadataHeader block metadataRecordTable tableIndex
    let (fs, rootSlot) ← scanSlots block tableIndex 0 recordsPerTableBlock fs rootSlot
    scanTable w (tableIndex + 1) n fs rootSlot

def scanRecords (w : World) (fs : Fs) : Res Fs := do
  let allocated := allocatedCount fs
  let wanted := if allocated > u64Max / 2 then u64Max else allocated * 2
  match growCapacity 64 wanted 16 with
  | none => .error (some "MGFS Record ID index size overflow")
  | some capacity => do
    ensure (capacity ≤ u64Max / 16) (some "MGFS Record ID index allocation overflow")
    kmalloc w (capacity * 16) (some "unable to allocate MGFS Record ID index")
    let fs := { fs with
      recordIds := fun _ => ⟨0, 0⟩
      recordIdCapacity := capacity
      allocatedRecordCount := allocated }
    let (fs, rootSlot) ← scanTable w 0 fs.layout.recordTableBlocks fs none
    ensure (rootSlot ≠ none) (some "MGFS root Record was not found")
    ensure (rootSlot = some 0) (some "MGFS root Record is not in table slot zero")
    return fs

def emptyFs : Fs where
  formatMinor := 0
  layout := ⟨0, 0, 0, 0, 0, 0, 0, 0, 0⟩
  totalBlocks := 0
  rootRecordId := 0
  nextRecordId := 0
  recordBitmap := Buf.zero
  recordBitmapBytes := 0
  recordIds := fun _ => ⟨0, 0⟩
  recordIdCapacity := 0
  allocatedRecordCount := 0
  dentryCache := fun _ => ⟨false, 0, 0, 0, []⟩
  dentryCacheAge := 0

def fsBytes : Nat := 38048

def superBytes : Nat := 104

def mountFs (w : World) : Except VfsError (Fs × Buf) := do
  ensure (w.dev.sectorSize = 512) VfsError.invalidParam
  orElse VfsError.noMem (kmalloc w fsBytes none)
  let super ← orElse VfsError.badFormat do
    let block ← readBlock w 0
    validateSuperblock w.dev block
  let l := super.layout
  ensure (l.recordBitmapBlocks ≤ u64Max / blockBytes) VfsError.badFormat
  orElse VfsError.noMem (kmalloc w (l.recordBitmapBlocks * blockBytes) none)
  let fs ← orElse VfsError.badFormat do
    let _ ← validateBitmapRegion w l.allocationBitmapStart metadataAllocationBitmap l.dataBlocks
      0 l.allocationBitmapBlocks Buf.zero
    let recordBitmap ← validateBitmapRegion w l.recordBitmapStart metadataRecordBitmap
      l.recordCount 0 l.recordBitmapBlocks Buf.zero
    scanRecords w { emptyFs with
      formatMinor := super.formatMinor
      layout := l
      totalBlocks := super.totalBlocks
      rootRecordId := super.rootRecordId
      nextRecordId := super.nextRecordId
      recordBitmap
      recordBitmapBytes := l.recordBitmapBlocks * blockBytes }
  orElse VfsError.noMem (do kmalloc w superBytes none; kmalloc w nodeBytes none)
  let rootRecord ← orElse VfsError.badFormat (readRecord { w with fs } fs.rootRecordId)
  return (fs, rootRecord)

def rootNode (fs : Fs) (rootRecord : Buf) : Node where
  inode := fs.rootRecordId
  type := .directory
  size := getLe64 rootRecord 32
  ownerUid := recordOwner rootRecord
  permissions := recordPermissions rootRecord
  childMutationPolicy :=
    if getLe64 rootRecord 0 = recordDirectory then recordChildMutationPolicy rootRecord
    else .isOpen

def mount : Vfs Node := do
  let (fs, rootRecord) ← Prog.look mountFs
  Prog.modify fun w => { w with fs }
  return rootNode fs rootRecord

def formatCrc64 (data : Buf) (length zeroOffset : Nat) : UInt64 :=
  (List.range length).foldl (fun crc i =>
    crcByte crc (if zeroOffset ≤ i ∧ i - zeroOffset < 8 then 0 else data i)) 0

def storeFormatCrc (block : Buf) (offset length : Nat) : Buf :=
  storeLe64 block offset (formatCrc64 block length offset).toNat

def formatWrite (lba sectorCount : Nat) (buffer : Buf) : Io Unit := do
  let w ← Prog.get
  Prog.require (sectorCount ≠ 0 ∧ lba ≤ w.dev.sectorCount ∧ sectorCount ≤ w.dev.sectorCount - lba)
    none
  blockWrite lba sectorCount buffer

def formatBlockWrite (blockNumber : Nat) (buffer : Buf) : Io Unit := do
  Prog.require (blockNumber ≤ u64Max / 8) none
  formatWrite (blockNumber * 8) 8 buffer

def writeZeroSectors : Nat → Nat → Nat → Io Unit
  | _, _, 0 => pure ()
  | 0, _, _ + 1 => Prog.fail none
  | fuel + 1, lba, count + 1 => do
    let batch := if count + 1 > 8 then 8 else count + 1
    formatWrite lba batch Buf.zero
    Prog.require (lba ≤ u64Max - batch) none
    writeZeroSectors fuel (lba + batch) (count + 1 - batch)

/-- Clear the first `validBits` bits of a bitmap block. -/
def clearBits (block : Buf) (validBits : Nat) : Buf :=
  (List.range validBits).foldl (fun b bit => setBitmapByte b bit false) block

def formatValidBits (total index : Nat) : Nat :=
  let firstBit := index * bitmapBitsPerBlock
  let validBits := if firstBit < total then total - firstBit else 0
  if validBits > bitmapBitsPerBlock then bitmapBitsPerBlock else validBits

def formatBitmapBlock (kind total : Nat) (reserveFirst : Bool) (index : Nat) : Buf :=
  let block := storeLe64 Buf.zero 0 kind
  let block := storeLe64 block 8 index
  let block := block.fill bitmapHeaderBytes (blockBytes - bitmapHeaderBytes) 0xFF
  let block := clearBits block (formatValidBits total index)
  let block := if reserveFirst ∧ index = 0 then setBitmapByte block 0 true else block
  storeFormatCrc block metadataChecksumOffset blockBytes

def formatRootRecord (rootFlags : Nat) : Buf :=
  let root := storeLe64 Buf.zero 0 recordDirectory
  let root := storeLe64 root 8 rootFlags
  let root := storeLe64 root 16 1
  let root := storeLe64 root 24 1
  storeFormatCrc root recordChecksumOffset recordBytes

def formatTableBlock (rootFlags index : Nat) : Buf :=
  let block := storeLe64 Buf.zero 0 metadataRecordTable
  let block := storeLe64 block 8 index
  let block := if index = 0 then
    block.copy bitmapHeaderBytes (formatRootRecord rootFlags) recordBytes else block
  storeFormatCrc block metadataChecksumOffset blockBytes

def formatSuperblock (totalBlocks : Nat) (l : Layout) : Buf :=
  let block := Buf.zero.copy 0 (Buf.ofList superMagic) 8
  let block := storeLe64 block 8 formatMajor
  let block := storeLe64 block 16 formatMinorCurrent
  let block := storeLe64 block 24 headerBytes
  let block := storeLe64 block 32 blockBytes
  let block := storeLe64 block 40 totalBlocks
  let block := storeLe64 block 64 stateClean
  let block := storeLe64 block 88 1
  let block := storeLe64 block 96 2
  let block := storeLe64 block 104 l.allocationBitmapStart
  let block := storeLe64 block 112 l.allocationBitmapBlocks
  let block := storeLe64 block 120 l.recordBitmapStart
  let block := storeLe64 block 128 l.recordBitmapBlocks
  let block := storeLe64 block 136 l.recordTableStart
  let block := storeLe64 block 144 l.recordTableBlocks
  let block := storeLe64 block 152 l.recordCount
  let block := storeLe64 block 160 l.dataStart
  let block := storeLe64 block 168 l.dataBlocks
  storeFormatCrc block superChecksumOffset headerBytes

def rootOwnerFlags (owner : UInt32) : Nat :=
  let permissions := if owner = 0 then defaultSystemPermissions else defaultDirectoryPermissions
  (owner.toNat <<< 1) ||| (permissions <<< 33)

def formatRegion (start : Nat) (block : Nat → Buf) (n : Nat) : Io Unit :=
  Prog.upFrom (fun index _ => do
    Prog.require (start ≤ u64Max - index) none
    formatBlockWrite (start + index) (block index)) 0 n ()

def formatMgfs : Io Unit := do
  let w ← Prog.get
  Prog.require (w.dev.sectorSize = 512) none
  let owner ← Prog.look fun w => match w.env.currentUid with
    | some uid => .ok uid
    | none => .error none
  let totalBlocks := w.dev.sectorCount / 8
  let l ← Prog.look fun _ => match calculateMgfsLayout totalBlocks with
    | some l => .ok l
    | none => .error none
  formatRegion l.allocationBitmapStart
    (formatBitmapBlock metadataAllocationBitmap l.dataBlocks false) l.allocationBitmapBlocks
  formatRegion l.recordBitmapStart
    (formatBitmapBlock metadataRecordBitmap l.recordCount true) l.recordBitmapBlocks
  formatRegion l.recordTableStart (formatTableBlock (rootOwnerFlags owner)) l.recordTableBlocks
  formatBlockWrite 0 (formatSuperblock totalBlocks l)
  Prog.require (l.dataStart ≤ u64Max / 8) none
  writeZeroSectors 8 (l.dataStart * 8) 8

end Mangrove.Mgfs
