import Mangrove.Mgfs.State

/-! Superblock, bitmaps, File Records and their index; the extents of a record, where each
walker makes checks of its own; and reading, writing and truncating files. -/

namespace Mangrove.Mgfs

def validateMetadataHeader (block : Buf) (expectedKind expectedIndex : Nat) : Res Unit := do
  ensure (getLe64 block 0 = expectedKind ∧ getLe64 block 8 = expectedIndex)
    (some "invalid MGFS metadata block header")
  ensure (checksumBlock block metadataChecksumOffset blockBytes)
    (some "MGFS metadata block checksum mismatch")

def recordSlotAllocated (fs : Fs) (slot : Nat) : Bool :=
  let bitmapBlock := slot / bitmapBitsPerBlock
  let bit := slot % bitmapBitsPerBlock
  bitSet (fs.recordBitmap (bitmapBlock * blockBytes + bitmapHeaderBytes + bit / 8)) (bit % 8)

def setBitmapByte (block : Buf) (bitInBlock : Nat) (value : Bool) : Buf :=
  let byteOffset := bitmapHeaderBytes + bitInBlock / 8
  fun i =>
    if i = byteOffset then
      if value then block i ||| bitMask (bitInBlock % 8)
      else block i &&& ~~~ bitMask (bitInBlock % 8)
    else block i

def setCachedByte (fs : Fs) (offset : Nat) (value : UInt8) : Fs :=
  { fs with recordBitmap := fun i => if i = offset then value else fs.recordBitmap i }

def updateBitmapBit (regionStart regionBlocks validBits bit : Nat) (value recordBitmap : Bool) :
    Io Unit := do
  let blockIndex := bit / bitmapBitsPerBlock
  let bitInBlock := bit % bitmapBitsPerBlock
  let kind := if recordBitmap then metadataRecordBitmap else metadataAllocationBitmap
  let block ← Prog.look fun w => orElse (some "invalid MGFS bitmap allocation request") do
    ensure (bit < validBits ∧ blockIndex < regionBlocks) (none : Option String)
    let block ← readBlock w (regionStart + blockIndex)
    validateMetadataHeader block kind blockIndex
    return block
  let byteOffset := bitmapHeaderBytes + bitInBlock / 8
  let block := setBitmapByte block bitInBlock value
  let block := recomputeChecksum block metadataChecksumOffset blockBytes
  writeBlock (regionStart + blockIndex) block
  if recordBitmap then
    Prog.modify fun w => { w with
      fs := setCachedByte w.fs (blockIndex * blockBytes + byteOffset) (block byteOffset) }

def findFreeDataBlock (w : World) : Nat → Nat → Res Nat
  | _, 0 => .error (some "MGFS data area is full")
  | index, n + 1 => do
    let bitmapBlock := index / bitmapBitsPerBlock
    let bit := index % bitmapBitsPerBlock
    let block ← readBlock w (w.fs.layout.allocationBitmapStart + bitmapBlock)
    validateMetadataHeader block metadataAllocationBitmap bitmapBlock
    if bitSet (block (bitmapHeaderBytes + bit / 8)) (bit % 8) then
      findFreeDataBlock w (index + 1) n
    else return index

def allocateDataBlock : Io Nat := do
  let index ← Prog.look fun w => findFreeDataBlock w 0 w.fs.layout.dataBlocks
  let l := (← Prog.get).fs.layout
  updateBitmapBit l.allocationBitmapStart l.allocationBitmapBlocks l.dataBlocks index true false
  return l.dataStart + index

def freeDataBlock (blockNumber : Nat) : Io Unit := do
  let l := (← Prog.get).fs.layout
  Prog.require (l.dataStart ≤ blockNumber ∧ blockNumber - l.dataStart < l.dataBlocks)
    (some "invalid MGFS data block release")
  updateBitmapBit l.allocationBitmapStart l.allocationBitmapBlocks l.dataBlocks
    (blockNumber - l.dataStart) false false

def writeRecordSlot (slot : Nat) (record : Buf) : Io Unit := do
  let l := (← Prog.get).fs.layout
  let tableIndex := slot / recordsPerTableBlock
  let slotInBlock := slot % recordsPerTableBlock
  Prog.require (tableIndex < l.recordTableBlocks) none
  let block ← Prog.look fun w => do
    let block ← readBlock w (l.recordTableStart + tableIndex)
    validateMetadataHeader block metadataRecordTable tableIndex
    return block
  let block := block.copy (bitmapHeaderBytes + slotInBlock * recordBytes) record recordBytes
  let block := recomputeChecksum block metadataChecksumOffset blockBytes
  writeBlock (l.recordTableStart + tableIndex) block

def recordInlineData : Nat := 0x1
def recordOwnerMask : Nat := 0xFFFFFFFF <<< 1
def recordPermissionsMask : Nat := 0xF <<< 33
def recordChildMutationOwnerRestricted : Nat := 1 <<< 41
def recordFlagsKnown : Nat :=
  recordInlineData ||| recordOwnerMask ||| recordPermissionsMask |||
    recordChildMutationOwnerRestricted

def securityFlags (ownerUid permissions : Nat) (inlineData : Bool)
    (childMutationPolicy : ChildMutationPolicy) : Nat :=
  (if inlineData then recordInlineData else 0) ||| (ownerUid <<< 1) |||
    ((permissions &&& permissionKnown) <<< 33) |||
    (if childMutationPolicy = .ownerRestricted then recordChildMutationOwnerRestricted else 0)

def recordOwner (record : Buf) : Nat := (getLe64 record 8 &&& recordOwnerMask) >>> 1

def recordPermissions (record : Buf) : Nat := (getLe64 record 8 &&& recordPermissionsMask) >>> 33

def recordChildMutationPolicy (record : Buf) : ChildMutationPolicy :=
  if getLe64 record 8 &&& recordChildMutationOwnerRestricted ≠ 0 then .ownerRestricted else .isOpen

/-- `mgfs_validate_record`, with the mounted format's minor version where the
caller has a mounted file system. -/
def validateRecord (formatMinor : Option Nat) (record : Buf) : Res Unit := do
  let type := getLe64 record 0
  let flags := getLe64 record 8
  let id := getLe64 record 16
  let generation := getLe64 record 24
  let size := getLe64 record 32
  let extentCount := getLe64 record 40
  let inlineExtentCount := getLe64 record 48
  let extentListHead := getLe64 record 56
  ensure (checksumBlock record recordChecksumOffset recordBytes)
    (some "MGFS File Record checksum mismatch")
  ensure (¬ (id = 0 ∨ generation = 0 ∨
      (type ≠ recordFile ∧ type ≠ recordDirectory) ∨
      flags &&& (u64Max ^^^ recordFlagsKnown) ≠ 0 ∨
      recordPermissions record &&& (0xFFFFFFFF ^^^ permissionKnown) ≠ 0 ∨
      recordPermissions record = 0 ∨
      (type = recordFile ∧ flags &&& recordChildMutationOwnerRestricted ≠ 0) ∨
      (formatMinor = some formatMinorLegacy ∧ flags &&& recordChildMutationOwnerRestricted ≠ 0) ∨
      inlineExtentCount > 2 ∨ inlineExtentCount > extentCount ∨
      (extentCount = 0 ∧ extentListHead ≠ 0) ∨
      (extentCount ≤ 2 ∧ extentListHead ≠ 0))) (some "invalid MGFS File Record fields")
  ensure (¬ (flags &&& recordInlineData ≠ 0 ∧
      (type ≠ recordFile ∨ extentCount ≠ 0 ∨ inlineExtentCount ≠ 0 ∨ extentListHead ≠ 0 ∨
        size > inlineDataBytes))) (some "invalid MGFS inline-data File Record")

def hashId (id : Nat) : UInt64 :=
  let id := UInt64.ofNat id
  let id := id ^^^ (id >>> 30)
  let id := id * 0xbf58476d1ce4e5b9
  let id := id ^^^ (id >>> 27)
  let id := id * 0x94d049bb133111eb
  id ^^^ (id >>> 31)

def firstProbe (fs : Fs) (id : Nat) : Nat := (hashId id).toNat &&& (fs.recordIdCapacity - 1)

def nextProbe (fs : Fs) (index : Nat) : Nat := add64 index 1 &&& (fs.recordIdCapacity - 1)

def insertProbe (fs : Fs) (id : Nat) : Nat → Nat → Res Nat
  | _, 0 => .error (some "MGFS Record ID index is full")
  | index, n + 1 =>
    if (fs.recordIds index).id = 0 then .ok index
    else if (fs.recordIds index).id = id then .error (some "duplicate MGFS Record ID")
    else insertProbe fs id (nextProbe fs index) n

def setRecordRef (fs : Fs) (index id slot : Nat) : Fs :=
  { fs with recordIds := fun i => if i = index then ⟨id, slot⟩ else fs.recordIds i }

def insertRecordId (fs : Fs) (id slot : Nat) : Res Fs := do
  let index ← insertProbe fs id (firstProbe fs id) fs.recordIdCapacity
  return setRecordRef fs index id slot

def findProbe (fs : Fs) (id : Nat) : Nat → Nat → Option Nat
  | _, 0 => none
  | index, n + 1 =>
    if (fs.recordIds index).id = 0 then none
    else if (fs.recordIds index).id = id then some (fs.recordIds index).slot
    else findProbe fs id (nextProbe fs index) n

def findRecordSlot (fs : Fs) (id : Nat) : Option Nat :=
  if id = 0 ∨ fs.recordIdCapacity = 0 then none
  else findProbe fs id (firstProbe fs id) fs.recordIdCapacity

def findSlot (w : World) (id : Nat) (e : Option String) : Res Nat :=
  match findRecordSlot w.fs id with
  | some slot => .ok slot
  | none => .error e

def readRecord (w : World) (recordId : Nat) : Res Buf := do
  let slot ← findSlot w recordId (some "MGFS directory entry references a missing Record ID")
  let tableIndex := slot / recordsPerTableBlock
  let slotInBlock := slot % recordsPerTableBlock
  ensure (tableIndex < w.fs.layout.recordTableBlocks) (none : Option String)
  let tableBlock ← readBlock w (w.fs.layout.recordTableStart + tableIndex)
  validateMetadataHeader tableBlock metadataRecordTable tableIndex
  let record := tableBlock.skip (bitmapHeaderBytes + slotInBlock * recordBytes)
  orElse (some "MGFS Record lookup validation failed") do
    validateRecord (some w.fs.formatMinor) record
    ensure (getLe64 record 16 = recordId) (none : Option String)
  return record.clip recordBytes

/-- A `mgfs_extent_desc_t`. -/
structure Extent where
  logicalStart : Nat
  physicalStart : Nat
  blockCount : Nat
  flags : Nat
deriving DecidableEq

def extentAt (b : Buf) (o : Nat) : Extent :=
  ⟨getLe64 b o, getLe64 b (o + 8), getLe64 b (o + 16), getLe64 b (o + 24)⟩

/-- Extents lie 32 bytes apart from offset 64 on, in a record as in a list block. -/
def walkExtents {σ : Type} (step : σ → Extent → Res σ) (b : Buf) : Nat → Nat → σ → Res σ
  | _, 0, s => .ok s
  | i, n + 1, s => do
    let s' ← step s (extentAt b (64 + i * 32))
    walkExtents step b (i + 1) n s'

/-- `enter` reads and checks the next list block and tells how many extents it
holds. Every block holds one at least, so `fuel` bounds the chain. -/
def walkLists {σ : Type} (enter : σ → Nat → Res (Buf × Nat)) (step : σ → Extent → Res σ) :
    Nat → Nat → σ → Res σ
  | 0, list, s => if list = 0 then .ok s else .error none
  | fuel + 1, list, s =>
    if list = 0 then .ok s else do
      let (block, entries) ← enter s list
      let s' ← walkExtents step block 0 entries s
      walkLists enter step fuel (getLe64 block 16) s'

/-- Where a walk over the extents is, and the block it has found. -/
structure WalkState where
  expectedLogicalBlock : Nat
  previousPhysicalEnd : Nat
  extentCount : Nat
  found : Option Buf

def inDataArea (l : Layout) (physicalStart blockCount : Nat) : Prop :=
  l.dataStart ≤ physicalStart ∧ physicalStart - l.dataStart < l.dataBlocks ∧
    blockCount ≤ l.dataBlocks - (physicalStart - l.dataStart)

instance (l : Layout) (p n : Nat) : Decidable (inDataArea l p n) :=
  inferInstanceAs (Decidable (_ ∧ _ ∧ _))

def readRequested (w : World) (e : Extent) (requested : Nat) (found : Option Buf) :
    Res (Option Buf) :=
  if e.logicalStart ≤ requested ∧ requested - e.logicalStart < e.blockCount then do
    let block ← readBlock w (e.physicalStart + (requested - e.logicalStart))
    return some block
  else return found

def validateExtent (w : World) (requested : Nat) (s : WalkState) (e : Extent) : Res WalkState := do
  ensure (¬ (e.blockCount = 0 ∨ e.flags ≠ extentDirectoryMetadata ∨
      e.logicalStart ≠ s.expectedLogicalBlock ∨ e.blockCount > u64Max - e.logicalStart ∨
      ¬ inDataArea w.fs.layout e.physicalStart e.blockCount)) (some "invalid MGFS directory extent")
  let found ← readRequested w e requested s.found
  ensure (s.extentCount + 1 ≤ w.fs.layout.recordCount)
    (some "MGFS directory extent count is unreasonable")
  return { s with
    expectedLogicalBlock := s.expectedLogicalBlock + e.blockCount
    extentCount := s.extentCount + 1
    found }

/-- The texts in which the walks over extent lists differ. -/
structure ListMessages where
  chain : String
  owner : String
  entryCount : String
  checksum : String
  address : String

/-- The checks both block readers make on an extent-list block. -/
def enterList (w : World) (record : Buf) (m : ListMessages) (s : WalkState) (list : Nat) :
    Res (Buf × Nat) := do
  let block : Buf ← orElse (some m.chain) do
    ensure (s.extentCount < getLe64 record 40) (none : Option String)
    readBlock w list
  ensure (getLe64 block 0 = extentListMagic ∧ getLe64 block 8 = getLe64 record 16) (some m.owner)
  let entryCount := getLe64 block 24
  ensure (entryCount ≠ 0 ∧ entryCount ≤ extentsPerListBlock) (some m.entryCount)
  ensure (∀ i < (24 : Nat), block (40 + i) = 0) (some "nonzero MGFS extent-list reserved bytes")
  ensure (checksumBlock block 32 blockBytes) (some m.checksum)
  ensure (getLe64 block 16 ≠ list ∧ inDataArea w.fs.layout list 0) (some m.address)
  return (block, entryCount)

def walkRecord (w : World) (record : Buf) (m : ListMessages)
    (step : WalkState → Extent → Res WalkState) : Res WalkState := do
  let s ← walkExtents step record 0 (getLe64 record 48) ⟨0, 0, 0, none⟩
  walkLists (enterList w record m) step (getLe64 record 40 + 1) (getLe64 record 56) s

def directoryMessages : ListMessages where
  chain := "invalid MGFS extent-list chain"
  owner := "invalid MGFS directory extent-list owner"
  entryCount := "invalid MGFS extent-list entry count"
  checksum := "MGFS extent-list checksum mismatch"
  address := "invalid MGFS extent-list block address"

def readDirectoryBlock (w : World) (record : Buf) (logicalBlock : Nat) : Res Buf := do
  let s ← walkRecord w record directoryMessages (validateExtent w logicalBlock)
  match s.found with
  | some block => do
    ensure (s.extentCount = getLe64 record 40)
      (some "MGFS directory extent coverage is incomplete")
    return block
  | none => .error (some "MGFS directory extent coverage is incomplete")

/-- The extents collected so far. -/
structure CollectState where
  expected : Nat
  extents : List Extent

def collectExtent (capacity expectedType : Nat) (s : CollectState) (e : Extent) :
    Res CollectState := do
  ensure (s.extents.length < capacity ∧ e.logicalStart = s.expected ∧ e.blockCount ≠ 0 ∧
      e.flags = expectedType) (some "invalid MGFS regular-file extents")
  return ⟨add64 s.expected e.blockCount, s.extents ++ [e]⟩

def collectEnter (w : World) (record : Buf) (s : CollectState) (list : Nat) : Res (Buf × Nat) := do
  let block : Buf ← orElse (some "invalid MGFS regular-file extent-list chain") do
    ensure (s.extents.length < getLe64 record 40) (none : Option String)
    let block ← readBlock w list
    ensure (getLe64 block 0 = extentListMagic ∧ getLe64 block 8 = getLe64 record 16)
      (none : Option String)
    return block
  let entries := getLe64 block 24
  ensure (entries ≠ 0 ∧ entries ≤ extentsPerListBlock)
    (some "invalid MGFS regular-file extent-list entry count")
  ensure (checksumBlock block 32 blockBytes)
    (some "MGFS regular-file extent-list checksum mismatch")
  return (block, entries)

/-- Unlike the block readers, this walk does not look at where an extent or a
list block lies. -/
def collectFileExtents (w : World) (record : Buf) (capacity expectedType : Nat) :
    Res (List Extent) := do
  let step := collectExtent capacity expectedType
  let s ← walkExtents step record 0 (getLe64 record 48) ⟨0, []⟩
  let s ← walkLists (collectEnter w record) step (getLe64 record 40 + 1) (getLe64 record 56) s
  ensure (s.extents.length = getLe64 record 40) (some "MGFS regular-file extent count mismatch")
  return s.extents

def extentContainsBlock (extents : List Extent) (physical : Nat) : Bool :=
  extents.any fun e => decide (e.physicalStart ≤ physical ∧ physical - e.physicalStart < e.blockCount)

def findInExtent (w : World) (checkFlags : Bool) (logicalBlock expected : Nat) (e : Extent) :
    Res (Nat ⊕ Nat) := do
  ensure (¬ (e.logicalStart ≠ expected ∨ e.blockCount = 0 ∨
      (checkFlags ∧ e.flags ≠ extentDirectoryMetadata) ∨
      ¬ inDataArea w.fs.layout e.physicalStart e.blockCount)) (some "invalid MGFS directory extent")
  if e.logicalStart ≤ logicalBlock ∧ logicalBlock - e.logicalStart < e.blockCount then
    return .inl (e.physicalStart + logicalBlock - e.logicalStart)
  else return .inr (add64 expected e.blockCount)

def findInExtents (w : World) (checkFlags : Bool) (logicalBlock : Nat) (b : Buf) :
    Nat → Nat → Nat → Res (Nat ⊕ Nat)
  | _, 0, expected => .ok (.inr expected)
  | i, n + 1, expected => do
    match ← findInExtent w checkFlags logicalBlock expected (extentAt b (64 + i * 32)) with
    | .inl physical => return .inl physical
    | .inr expected => findInExtents w checkFlags logicalBlock b (i + 1) n expected

def findInLists (w : World) (record : Buf) (logicalBlock : Nat) : Nat → Nat → Nat → Nat → Res Nat
  | 0, _, _, _ => .error (some "MGFS directory block is not mapped")
  | fuel + 1, list, count, expected =>
    if list = 0 then .error (some "MGFS directory block is not mapped") else do
      let block : Buf ← orElse (some "invalid MGFS directory extent-list chain") do
        ensure (count < getLe64 record 40) (none : Option String)
        let block ← readBlock w list
        ensure (getLe64 block 0 = extentListMagic ∧ getLe64 block 8 = getLe64 record 16)
          (none : Option String)
        return block
      let entries := getLe64 block 24
      ensure (entries ≠ 0 ∧ entries ≤ extentsPerListBlock)
        (some "invalid MGFS extent-list entry count")
      match ← findInExtents w true logicalBlock block 0 entries expected with
      | .inl physical => return physical
      | .inr expected =>
        findInLists w record logicalBlock fuel (getLe64 block 16) (count + entries) expected

def findDirectoryBlock (w : World) (record : Buf) (logicalBlock : Nat) : Res Nat := do
  let count := getLe64 record 48
  match ← findInExtents w false logicalBlock record 0 count 0 with
  | .inl physical => return physical
  | .inr expected =>
    findInLists w record logicalBlock (getLe64 record 40 + 1) (getLe64 record 56) count expected

def storeExtent (b : Buf) (offset : Nat) (logical physical blocks flags : Nat) : Buf :=
  storeLe64 (storeLe64 (storeLe64 (storeLe64 b offset logical) (offset + 8) physical)
    (offset + 16) blocks) (offset + 24) flags

def appendBlock (extents : List Extent) (logical physical flags : Nat) : List Extent :=
  match extents.getLast? with
  | some last =>
    if add64 last.physicalStart last.blockCount = physical then
      extents.dropLast ++ [{ last with blockCount := last.blockCount + 1 }]
    else extents ++ [⟨logical, physical, 1, flags⟩]
  | none => [⟨logical, physical, 1, flags⟩]

def storeExtents (flags : Nat) : Buf → Nat → List Extent → Buf
  | b, _, [] => b
  | b, offset, e :: rest =>
    storeExtents flags (storeExtent b offset e.logicalStart e.physicalStart e.blockCount flags)
      (offset + 32) rest

def extentListBlock (recordId : Nat) (extents : List Extent) (extentType : Nat) : Buf :=
  let block := storeLe64 Buf.zero 0 extentListMagic
  let block := storeLe64 block 8 recordId
  let block := storeLe64 block 24 (extents.length - 2)
  let block := storeExtents extentType block 64 (extents.drop 2)
  recomputeChecksum block 32 blockBytes

def writeExtentList (recordId listBlockNumber : Nat) (extents : List Extent) (extentType : Nat) :
    Io Unit := do
  if extents.length ≤ 2 then return ()
  else do
    Prog.require (extents.length - 2 ≤ extentsPerListBlock)
      (some "MGFS extent-list capacity exceeded")
    writeBlock listBlockNumber (extentListBlock recordId extents extentType)

def placeExtentList (recordId oldHead : Nat) (extents : List Extent) (extentType : Nat) : Io Nat :=
  if extents.length > 2 then do
    let listBlock ← if oldHead = 0 then allocateDataBlock else pure oldHead
    writeExtentList recordId listBlock extents extentType
    pure listBlock
  else pure 0

end Mangrove.Mgfs
