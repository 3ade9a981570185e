import Mangrove.Mgfs.FileUpdate

/-! What a mount that succeeds has checked and leaves in memory, and the volume the runtime
formatter leaves. -/

namespace Mangrove.Mgfs

/-- What mounting demands of a superblock. -/
structure SuperblockOk (dev : Device) (block : Buf) : Prop where
  magic : block.bytes 8 = superMagic
  version : getLe64 block 8 = formatMajor ∧
    (getLe64 block 16 = formatMinorCurrent ∨ getLe64 block 16 = formatMinorLegacy)
  sizes : getLe64 block 24 = headerBytes ∧ getLe64 block 32 = blockBytes
  reserved : ∀ i < blockBytes, 288 ≤ i → block i = 0
  checksum : checksumBlock block superChecksumOffset headerBytes = true
  total : minTotalBlocks ≤ getLe64 block 40 ∧ getLe64 block 40 = dev.sectorCount / 8
  features : getLe64 block 48 = 0 ∧ getLe64 block 56 = 0
  state : getLe64 block 64 &&& (u64Max ^^^ stateKnownMask) = 0 ∧ getLe64 block 64 ≠ 0
  layout : calculateLayout (getLe64 block 40) = some (superblockLayout block)
  root : getLe64 block 88 = 1 ∧ 2 ≤ getLe64 block 96

def superblockOf (block : Buf) : Superblock where
  formatMinor := getLe64 block 16
  totalBlocks := getLe64 block 40
  layout := superblockLayout block
  rootRecordId := getLe64 block 88
  nextRecordId := getLe64 block 96

lemma validateSuperblock_ok {dev : Device} {block : Buf} {sb : Superblock} :
    validateSuperblock dev block = .ok sb ↔ SuperblockOk dev block ∧ sb = superblockOf block := by
  simp only [validateSuperblock, ensure_bind_ok]
  constructor
  · rintro ⟨h1, h2, h3, h4, h5, h6, h7, h8, h⟩
    split at h
    · cases h
    · rename_i l hl
      simp only [ensure_bind_ok] at h
      obtain ⟨h9, h10, h⟩ := h
      refine ⟨⟨h1, h2, h3, h4, h5, h6, h7, h8, by rw [hl, h9], h10⟩, ?_⟩
      rw [← Except.ok.inj h, ← h9]
      rfl
  · rintro ⟨h, rfl⟩
    refine ⟨h.magic, h.version, h.sizes, h.reserved, h.checksum, h.total, h.features, h.state, ?_⟩
    rw [h.layout]
    simp only [ensure_bind_ok]
    exact ⟨trivial, h.root, rfl⟩

/-- What mounting demands of a block of a bitmap. -/
structure BitmapBlockOk (w : World) (start kind validBits i : Nat) : Prop where
  read : readBlock w (start + i) = .ok (w.dev.block (start + i))
  isSealed : Sealed (w.dev.block (start + i)) kind i
  tail : ∀ bit < bitmapBitsPerBlock, blockValidBits validBits i ≤ bit →
    bitAt (w.dev.block (start + i)) bit = true

/-- A bitmap in memory after `n` of its blocks were read. -/
def copiedRegion (w : World) (start index n : Nat) (copy : Buf) : Buf := fun o =>
  if index * blockBytes ≤ o ∧ o < (index + n) * blockBytes then
    w.dev.block (start + o / blockBytes) (o % blockBytes)
  else copy o

lemma copiedRegion_step (w : World) (start index n : Nat) (copy : Buf) :
    copiedRegion w start (index + 1) n
        (copy.copy (index * blockBytes) (w.dev.block (start + index)) blockBytes) =
      copiedRegion w start index (n + 1) copy := by
  funext o
  simp only [copiedRegion, Buf.copy]
  by_cases h1 : (index + 1) * blockBytes ≤ o ∧ o < (index + 1 + n) * blockBytes
  · have hin : index * blockBytes ≤ o ∧ o < (index + (n + 1)) * blockBytes := by
      simp only [Nat.add_mul, Nat.one_mul] at h1 ⊢
      omega
    rw [if_pos h1, if_pos hin]
  · by_cases h2 : index * blockBytes ≤ o ∧ o < index * blockBytes + blockBytes
    · have hin : index * blockBytes ≤ o ∧ o < (index + (n + 1)) * blockBytes := by
        simp only [blockBytes] at h2 ⊢
        omega
      have hdiv : o / blockBytes = index ∧ o - index * blockBytes = o % blockBytes := by
        simp only [blockBytes] at h2 ⊢
        omega
      rw [if_neg h1, if_pos h2, if_pos hin, hdiv.1, hdiv.2]
    · have hout : ¬ (index * blockBytes ≤ o ∧ o < (index + (n + 1)) * blockBytes) := by
        simp only [Nat.add_mul, Nat.one_mul] at h1 h2 ⊢
        omega
      rw [if_neg h1, if_neg h2, if_neg hout]

variable {w : World}

lemma validateBitmapRegion_ok {start kind validBits index n : Nat} {copy out : Buf} :
    validateBitmapRegion w start kind validBits index n copy = .ok out ↔
      (∀ i, index ≤ i → i < index + n → BitmapBlockOk w start kind validBits i) ∧
        out = copiedRegion w start index n copy := by
  induction n generalizing index copy with
  | zero =>
    have hnone : copiedRegion w start index 0 copy = copy := by
      funext o
      exact if_neg (by simp only [blockBytes]; omega)
    rw [hnone]
    constructor
    · intro h
      exact ⟨fun i hi hlt => by omega, (Except.ok.inj h).symm⟩
    · rintro ⟨-, rfl⟩
      rfl
  | succ n ih =>
    rw [validateBitmapRegion, except_bind_ok]
    constructor
    · rintro ⟨block, hread, h⟩
      obtain rfl := readBlock_eq hread
      rw [except_bind_ok] at h
      obtain ⟨_, hheader, h⟩ := h
      rw [ensure_bind_ok, ih, copiedRegion_step] at h
      obtain ⟨htail, hrest, rfl⟩ := h
      refine ⟨fun i hi hlt => ?_, rfl⟩
      rcases Nat.eq_or_lt_of_le hi with rfl | hi
      · exact ⟨hread, validateMetadataHeader_ok.mp hheader, htail⟩
      · exact hrest i hi (by omega)
    · rintro ⟨hall, rfl⟩
      have hfirst := hall index le_rfl (by omega)
      refine ⟨_, hfirst.read, ?_⟩
      rw [except_bind_ok]
      refine ⟨(), hfirst.isSealed.validate, ?_⟩
      rw [ensure_bind_ok, ih, copiedRegion_step]
      exact ⟨hfirst.tail, fun i hi hlt => hall i (by omega) (by omega), rfl⟩

section

variable {fs fs' : Fs} {table : Nat → Buf} {n : Nat} {root root' : Option Nat}

/-- The index of Record IDs after `n` slots of the table were read. -/
structure Scanned (fs fs' : Fs) (table : Nat → Buf) (n : Nat) (root : Option Nat) : Prop where
  same : { fs' with recordIds := fs.recordIds } = fs
  found : ∀ s < n, s < fs.layout.recordCount → recordSlotAllocated fs s = true →
    RecordOk (some fs.formatMinor) (table s) ∧
      findRecordSlot fs' (getLe64 (table s) 16) = some s
  cells : ∀ i, (fs'.recordIds i).id ≠ 0 → (fs'.recordIds i).slot < n ∧
    (fs'.recordIds i).slot < fs.layout.recordCount ∧
    recordSlotAllocated fs (fs'.recordIds i).slot = true ∧
    (fs'.recordIds i).id = getLe64 (table (fs'.recordIds i).slot) 16
  root : ∀ s, root = some s → s < fs.layout.recordCount ∧ recordSlotAllocated fs s = true ∧
    getLe64 (table s) 16 = fs.rootRecordId ∧ getLe64 (table s) 0 = recordDirectory

section

variable (h : Scanned fs fs' table n root)

include h

lemma Scanned.layout : fs'.layout = fs.layout := by
  have hfield := congrArg Fs.layout h.same
  exact hfield

lemma Scanned.formatMinor : fs'.formatMinor = fs.formatMinor := by
  have hfield := congrArg Fs.formatMinor h.same
  exact hfield

lemma Scanned.rootRecordId : fs'.rootRecordId = fs.rootRecordId := by
  have hfield := congrArg Fs.rootRecordId h.same
  exact hfield

lemma Scanned.slotAllocated (s : Nat) : recordSlotAllocated fs' s = recordSlotAllocated fs s := by
  have hfield := congrArg (recordSlotAllocated · s) h.same
  exact hfield

end

lemma Scanned.zero (hempty : ∀ i, (fs.recordIds i).id = 0) : Scanned fs fs table 0 none where
  same := rfl
  found s hs := absurd hs (Nat.not_lt_zero s)
  cells i hi := absurd (hempty i) hi
  root := nofun

lemma Scanned.skip (h : Scanned fs fs' table n root)
    (hn : ¬ (n < fs.layout.recordCount ∧ recordSlotAllocated fs n = true)) :
    Scanned fs fs' table (n + 1) root where
  same := h.same
  found s hs hlt hlive := by
    rcases Nat.lt_succ_iff_lt_or_eq.mp hs with hs | rfl
    · exact h.found s hs hlt hlive
    · exact absurd ⟨hlt, hlive⟩ hn
  cells i hi := by
    have hc := h.cells i hi
    exact ⟨by omega, hc.2⟩
  root := h.root

lemma Scanned.enter (h : Scanned fs fs' table n root) {j : Nat}
    (hlt : n < fs.layout.recordCount) (hlive : recordSlotAllocated fs n = true)
    (hok : RecordOk (some fs.formatMinor) (table n))
    (hj : insertProbe fs' (getLe64 (table n) 16) (firstProbe fs' (getLe64 (table n) 16))
      fs'.recordIdCapacity = .ok j) (hroot : ∀ s, root' = some s → root = some s ∨
      (s = n ∧ getLe64 (table n) 16 = fs.rootRecordId ∧ getLe64 (table n) 0 = recordDirectory)) :
    Scanned fs (setRecordRef fs' j (getLe64 (table n) 16) n) table (n + 1) root' where
  same := h.same
  found s hs hslt hslive := by
    rcases Nat.lt_succ_iff_lt_or_eq.mp hs with hs | rfl
    · obtain ⟨hsok, hfound⟩ := h.found s hs hslt hslive
      exact ⟨hsok, findRecordSlot_set_of_found hj hok.id hfound⟩
    · exact ⟨hok, findRecordSlot_set hj hok.id⟩
  cells i hi := by
    simp only [setRecordRef] at hi ⊢
    by_cases hij : i = j
    · simp only [if_pos hij]
      exact ⟨by omega, hlt, hlive, trivial⟩
    · simp only [if_neg hij] at hi ⊢
      have hc := h.cells i hi
      exact ⟨by omega, hc.2⟩
  root s hs := by
    rcases hroot s hs with hold | ⟨rfl, hid, htype⟩
    · exact h.root s hold
    · exact ⟨hlt, hlive, hid, htype⟩

variable {block : Buf} {tableIndex slotInBlock : Nat}

lemma scanSlot_skip
    (hn : ¬ (tableIndex * recordsPerTableBlock + slotInBlock < fs.layout.recordCount ∧
      recordSlotAllocated fs (tableIndex * recordsPerTableBlock + slotInBlock) = true)) :
    scanSlot fs block tableIndex slotInBlock root = .ok (fs, root) :=
  if_pos hn

variable {out : Fs × Option Nat}

lemma scanSlot_enter
    (hn : tableIndex * recordsPerTableBlock + slotInBlock < fs.layout.recordCount ∧
      recordSlotAllocated fs (tableIndex * recordsPerTableBlock + slotInBlock) = true) :
    scanSlot fs block tableIndex slotInBlock root = .ok out ↔
      RecordOk (some fs.formatMinor) (block.skip (bitmapHeaderBytes + slotInBlock * recordBytes)) ∧
      ∃ j, insertProbe fs (getLe64 (block.skip (bitmapHeaderBytes + slotInBlock * recordBytes)) 16)
          (firstProbe fs (getLe64 (block.skip (bitmapHeaderBytes + slotInBlock * recordBytes)) 16))
          fs.recordIdCapacity = .ok j ∧
        out.1 = setRecordRef fs j
          (getLe64 (block.skip (bitmapHeaderBytes + slotInBlock * recordBytes)) 16)
          (tableIndex * recordsPerTableBlock + slotInBlock) ∧
        if getLe64 (block.skip (bitmapHeaderBytes + slotInBlock * recordBytes)) 16 =
            fs.rootRecordId then
          (root = none ∧ getLe64 (block.skip (bitmapHeaderBytes + slotInBlock * recordBytes)) 0 =
            recordDirectory) ∧
          out.2 = some (tableIndex * recordsPerTableBlock + slotInBlock)
        else out.2 = root := by
  generalize hrec : block.skip (bitmapHeaderBytes + slotInBlock * recordBytes) = record
  rw [scanSlot, if_neg (not_not.mpr hn), hrec]
  simp only [except_bind_ok, validateRecord_ok, insertRecordId]
  constructor
  · rintro ⟨_, hok, fs1, ⟨j, hj, hfs⟩, h⟩
    obtain rfl := Except.ok.inj hfs
    refine ⟨hok, j, hj, ?_⟩
    split at h
    · rename_i hroot
      rw [ensure_bind_ok] at h
      obtain ⟨hcheck, h⟩ := h
      obtain rfl := Except.ok.inj h
      refine ⟨rfl, ?_⟩
      rw [if_pos (show getLe64 record 16 = fs.rootRecordId from hroot)]
      exact ⟨hcheck, rfl⟩
    · rename_i hroot
      obtain rfl := Except.ok.inj h
      refine ⟨rfl, ?_⟩
      rw [if_neg (show ¬ getLe64 record 16 = fs.rootRecordId from hroot)]
  · rintro ⟨hok, j, hj, hfs, hout⟩
    refine ⟨(), hok, _, ⟨j, hj, rfl⟩, ?_⟩
    by_cases hroot : getLe64 record 16 = fs.rootRecordId
    · rw [if_pos hroot] at hout
      rw [if_pos (show getLe64 record 16 = (setRecordRef fs j _ _).rootRecordId from hroot),
        ensure_bind_ok]
      exact ⟨hout.1, congrArg Except.ok (Prod.ext hfs.symm hout.2.symm)⟩
    · rw [if_neg hroot] at hout
      rw [if_neg (show ¬ getLe64 record 16 = (setRecordRef fs j _ _).rootRecordId from hroot)]
      exact congrArg Except.ok (Prod.ext hfs.symm hout.symm)

lemma scanSlot_scanned
    (h : Scanned fs fs' table (tableIndex * recordsPerTableBlock + slotInBlock) root)
    (ht : block.skip (bitmapHeaderBytes + slotInBlock * recordBytes) =
      table (tableIndex * recordsPerTableBlock + slotInBlock))
    (hs : scanSlot fs' block tableIndex slotInBlock root = .ok out) :
    Scanned fs out.1 table (tableIndex * recordsPerTableBlock + slotInBlock + 1) out.2 := by
  by_cases hn : tableIndex * recordsPerTableBlock + slotInBlock < fs'.layout.recordCount ∧
      recordSlotAllocated fs' (tableIndex * recordsPerTableBlock + slotInBlock) = true
  · rw [scanSlot_enter hn, ht, h.formatMinor, h.rootRecordId] at hs
    rw [h.layout, h.slotAllocated] at hn
    obtain ⟨hok, j, hj, hfs, hroot⟩ := hs
    rw [hfs]
    refine h.enter hn.1 hn.2 hok hj fun s hsome => ?_
    split at hroot
    · rename_i hid
      obtain ⟨⟨-, htype⟩, hout⟩ := hroot
      rw [hout] at hsome
      exact .inr ⟨(Option.some.inj hsome).symm, hid, htype⟩
    · rw [hroot] at hsome
      exact .inl hsome
  · rw [scanSlot_skip hn] at hs
    obtain rfl := Except.ok.inj hs
    rw [h.layout, h.slotAllocated] at hn
    exact h.skip hn

lemma scanSlots_scanned {i k : Nat}
    (h : Scanned fs fs' table (tableIndex * recordsPerTableBlock + i) root)
    (ht : ∀ j, i ≤ j → j < i + k → block.skip (bitmapHeaderBytes + j * recordBytes) =
      table (tableIndex * recordsPerTableBlock + j))
    (hs : scanSlots block tableIndex i k fs' root = .ok out) :
    Scanned fs out.1 table (tableIndex * recordsPerTableBlock + (i + k)) out.2 := by
  induction k generalizing i fs' root with
  | zero =>
    obtain rfl := Except.ok.inj hs
    exact h
  | succ k ih =>
    rw [scanSlots, except_bind_ok] at hs
    obtain ⟨mid, hslot, hs⟩ := hs
    have hmid := scanSlot_scanned h (ht i le_rfl (by omega)) hslot
    have hrest := ih hmid (fun j hj hlt => ht j (by omega) (by omega)) hs
    rwa [Nat.add_right_comm i 1 k] at hrest

end

def tableRecord (w : World) (start s : Nat) : Buf :=
  (w.dev.block (start + s / recordsPerTableBlock)).skip
    (bitmapHeaderBytes + s % recordsPerTableBlock * recordBytes)

lemma tableRecord_add (w : World) (start : Nat) {i j : Nat} (hj : j < recordsPerTableBlock) :
    (w.dev.block (start + i)).skip (bitmapHeaderBytes + j * recordBytes) =
      tableRecord w start (i * recordsPerTableBlock + j) := by
  have hdiv : (i * recordsPerTableBlock + j) / recordsPerTableBlock = i ∧
      (i * recordsPerTableBlock + j) % recordsPerTableBlock = j := by
    simp only [recordsPerTableBlock] at hj ⊢
    omega
  rw [tableRecord, hdiv.1, hdiv.2]

lemma scanTable_scanned {fs fs' : Fs} {i k : Nat} {root : Option Nat} {out : Fs × Option Nat}
    (h : Scanned fs fs' (tableRecord w fs.layout.recordTableStart) (i * recordsPerTableBlock) root)
    (hs : scanTable w i k fs' root = .ok out) :
    Scanned fs out.1 (tableRecord w fs.layout.recordTableStart) ((i + k) * recordsPerTableBlock)
        out.2 ∧
      ∀ j, i ≤ j → j < i + k →
        Sealed (w.dev.block (fs.layout.recordTableStart + j)) metadataRecordTable j := by
  induction k generalizing i fs' root with
  | zero =>
    obtain rfl := Except.ok.inj hs
    exact ⟨h, fun j hj hlt => by omega⟩
  | succ k ih =>
    rw [scanTable, except_bind_ok, h.layout] at hs
    obtain ⟨block, hread, hs⟩ := hs
    obtain rfl := readBlock_eq hread
    rw [except_bind_ok] at hs
    obtain ⟨_, hheader, hs⟩ := hs
    rw [except_bind_ok] at hs
    obtain ⟨mid, hslots, hs⟩ := hs
    have hfrom : Scanned fs fs' (tableRecord w fs.layout.recordTableStart)
        (i * recordsPerTableBlock + 0) root := h
    have hmid := scanSlots_scanned hfrom
      (fun j _ hj => tableRecord_add w _ (by simpa only [Nat.zero_add] using hj)) hslots
    have hnext : i * recordsPerTableBlock + (0 + recordsPerTableBlock) =
        (i + 1) * recordsPerTableBlock := by ring
    rw [hnext] at hmid
    obtain ⟨hout, hsealed⟩ := ih hmid hs
    rw [Nat.add_right_comm i 1 k] at hout
    refine ⟨hout, fun j hj hlt => ?_⟩
    rcases Nat.eq_or_lt_of_le hj with rfl | hj
    · exact validateMetadataHeader_ok.mp hheader
    · exact hsealed j hj (by omega)

lemma growCapacity_some {fuel wanted capacity c : Nat}
    (h : growCapacity fuel wanted capacity = some c) : ∃ k, c = capacity * 2 ^ k := by
  induction fuel generalizing capacity with
  | zero => cases h
  | succ fuel ih =>
    rw [growCapacity] at h
    split at h
    · split at h
      · cases h
      · obtain ⟨k, rfl⟩ := ih h
        exact ⟨k + 1, by ring⟩
    · exact ⟨0, by simpa using (Option.some.inj h).symm⟩

def bitmapFs (w : World) : Fs :=
  let super := superblockOf (w.dev.block 0)
  { emptyFs with
    formatMinor := super.formatMinor
    layout := super.layout
    totalBlocks := super.totalBlocks
    rootRecordId := super.rootRecordId
    nextRecordId := super.nextRecordId
    recordBitmap := copiedRegion w super.layout.recordBitmapStart 0 super.layout.recordBitmapBlocks
      Buf.zero
    recordBitmapBytes := super.layout.recordBitmapBlocks * blockBytes }

def indexFs (w : World) (capacity : Nat) : Fs :=
  { bitmapFs w with
    recordIds := fun _ => ⟨0, 0⟩
    recordIdCapacity := capacity
    allocatedRecordCount := allocatedCount (bitmapFs w) }

/-- The driver has mounted what is on the device. -/
structure MountedFrom (w : World) (fs : Fs) (capacity : Nat) : Prop where
  sectorSize : w.dev.sectorSize = 512
  super : SuperblockOk w.dev (w.dev.block 0)
  allocationBitmap : ∀ i < (bitmapFs w).layout.allocationBitmapBlocks,
    BitmapBlockOk w (bitmapFs w).layout.allocationBitmapStart metadataAllocationBitmap
      (bitmapFs w).layout.dataBlocks i
  recordBitmap : ∀ i < (bitmapFs w).layout.recordBitmapBlocks,
    BitmapBlockOk w (bitmapFs w).layout.recordBitmapStart metadataRecordBitmap
      (bitmapFs w).layout.recordCount i
  powerOfTwo : ∃ k, capacity = 16 * 2 ^ k
  scanned : Scanned (indexFs w capacity) fs
    (tableRecord w (bitmapFs w).layout.recordTableStart)
    ((bitmapFs w).layout.recordTableBlocks * recordsPerTableBlock) (some 0)
  table : ∀ i < (bitmapFs w).layout.recordTableBlocks,
    Sealed (w.dev.block ((bitmapFs w).layout.recordTableStart + i)) metadataRecordTable i

lemma scanRecords_ok {fs : Fs} (h : scanRecords w (bitmapFs w) = .ok fs) :
    ∃ capacity, (∃ k, capacity = 16 * 2 ^ k) ∧
      Scanned (indexFs w capacity) fs (tableRecord w (bitmapFs w).layout.recordTableStart)
        ((bitmapFs w).layout.recordTableBlocks * recordsPerTableBlock) (some 0) ∧
      ∀ i < (bitmapFs w).layout.recordTableBlocks,
        Sealed (w.dev.block ((bitmapFs w).layout.recordTableStart + i)) metadataRecordTable i := by
  rw [scanRecords] at h
  split at h
  · cases h
  · rename_i capacity hcap
    rw [ensure_bind_ok] at h
    obtain ⟨-, h⟩ := h
    rw [except_bind_ok] at h
    obtain ⟨_, -, h⟩ := h
    rw [except_bind_ok] at h
    obtain ⟨⟨fs1, root⟩, hscan, h⟩ := h
    rw [ensure_bind_ok, ensure_bind_ok] at h
    obtain ⟨-, hroot, h⟩ := h
    obtain rfl := Except.ok.inj h
    have hzero : Scanned (indexFs w capacity) (indexFs w capacity)
        (tableRecord w (bitmapFs w).layout.recordTableStart) (0 * recordsPerTableBlock) none := by
      rw [Nat.zero_mul]
      exact .zero fun _ => rfl
    obtain ⟨hscanned, htable⟩ := scanTable_scanned hzero hscan
    rw [Nat.zero_add, hroot] at hscanned
    exact ⟨capacity, growCapacity_some hcap, hscanned,
      fun i hi => htable i (Nat.zero_le i) (by rw [Nat.zero_add]; exact hi)⟩

section

variable {fs : Fs} {capacity : Nat} (h : MountedFrom w fs capacity)

include h

lemma MountedFrom.layout : fs.layout = superblockLayout (w.dev.block 0) := h.scanned.layout

lemma MountedFrom.covers : fs.layout.Covers (w.dev.sectorCount / 8) := by
  obtain ⟨htotal, hl⟩ := calculateLayout_some h.super.layout
  rw [h.layout, hl, ← h.super.total.2]
  exact regions_covers htotal

lemma MountedFrom.mounted : Mounted { w with fs } where
  sectorSize := h.sectorSize
  covers := h.covers
  allocationBitmap i hi := by
    rw [h.layout] at hi ⊢
    exact (h.allocationBitmap i hi).isSealed
  recordBitmap i hi := by
    rw [h.layout] at hi ⊢
    exact (h.recordBitmap i hi).isSealed
  recordTable i hi := by
    rw [h.layout] at hi ⊢
    exact h.table i hi
  bitmapCopy i hi o ho _ := by
    rw [h.layout] at hi ⊢
    have hcopy : fs.recordBitmap = (bitmapFs w).recordBitmap := by
      have hfield := congrArg Fs.recordBitmap h.scanned.same
      exact hfield
    have hin : 0 * blockBytes ≤ i * blockBytes + o ∧
        i * blockBytes + o < (0 + (superblockLayout (w.dev.block 0)).recordBitmapBlocks) *
          blockBytes := by
      simp only [blockBytes] at ho ⊢
      omega
    have hdiv : (i * blockBytes + o) / blockBytes = i ∧ (i * blockBytes + o) % blockBytes = o := by
      simp only [blockBytes] at ho ⊢
      omega
    rw [hcopy]
    refine (if_pos hin).trans ?_
    rw [hdiv.1, hdiv.2]
    rfl

variable {s : Nat}

lemma MountedFrom.live : (vol { w with fs }).live s = true ↔
    s < fs.layout.recordCount ∧ recordSlotAllocated (indexFs w capacity) s = true := by
  simp only [vol, Bool.and_eq_true, decide_eq_true_eq]
  rw [h.scanned.slotAllocated s]

lemma MountedFrom.record (hs : s < fs.layout.recordCount) : (vol { w with fs }).record s =
      (tableRecord w (bitmapFs w).layout.recordTableStart s).clip recordBytes := by
  rw [vol_record hs, slotRecord]
  rw [h.layout]
  rfl

lemma MountedFrom.tableBlocks :
    (bitmapFs w).layout.recordTableBlocks * recordsPerTableBlock = fs.layout.recordCount := by
  have hc := h.covers.recordCount
  rw [h.layout] at hc ⊢
  exact hc.symm

lemma MountedFrom.names (hs : (vol { w with fs }).live s = true) :
    Names { w with fs } (getLe64 ((vol { w with fs }).record s) 16) s
      ((vol { w with fs }).record s) := by
  obtain ⟨hlt, hlive⟩ := h.live.mp hs
  have hlt' : s < (indexFs w capacity).layout.recordCount := by
    rw [h.layout] at hlt
    exact hlt
  obtain ⟨hok, hfound⟩ := h.scanned.found s (by rw [h.tableBlocks]; exact hlt) hlt' hlive
  have hminor := h.scanned.formatMinor
  rw [h.record hlt, getLe64_clip (by decide)]
  refine ⟨hfound, hlt, h.record hlt, ?_, getLe64_clip (by decide)⟩
  rw [recordOk_clip, hminor]
  exact hok

lemma MountedFrom.root_live : (vol { w with fs }).live 0 = true := by
  obtain ⟨hlt, hlive, -⟩ := h.scanned.root 0 rfl
  refine h.live.mpr ⟨?_, hlive⟩
  rw [h.layout]
  exact hlt

lemma MountedFrom.root : Names { w with fs } 1 0 ((vol { w with fs }).record 0) ∧
    getLe64 ((vol { w with fs }).record 0) 0 = recordDirectory := by
  obtain ⟨hlt, -, hid, htype⟩ := h.scanned.root 0 rfl
  have hrec := h.record (live_lt h.root_live)
  have hnames := h.names h.root_live
  have hone : getLe64 ((vol { w with fs }).record 0) 16 = 1 := by
    rw [hrec, getLe64_clip (by decide), hid]
    exact h.super.root.1
  rw [hone] at hnames
  refine ⟨hnames, ?_⟩
  rw [hrec, getLe64_clip (by decide)]
  exact htype

end

open Prog (wp wp_bind wp_get wp_look wp_modify wp_require wp_upFrom)

lemma checksumBlock_storeFormatCrc {block : Buf} {o n : Nat} :
    checksumBlock (storeFormatCrc block o n) o n = true := by
  have hs : getLe64 (storeFormatCrc block o n) o = (formatCrc64 block n o).toNat :=
    getLe64_store (UInt64.toNat_lt _)
  have hc : (List.range n).foldl (fun crc i =>
      crcByte crc (if o ≤ i ∧ i < o + 8 then 0 else storeFormatCrc block o n i)) 0 =
      formatCrc64 block n o := by
    apply foldl_range_congr
    intro crc i _
    by_cases hi : o ≤ i ∧ i < o + 8
    · rw [if_pos hi, if_pos (by omega)]
    · have hi' : i < o ∨ o + 8 ≤ i := by omega
      rw [if_neg hi, if_neg (by omega)]
      rw [storeFormatCrc, storeLe64_of_not_mem hi']
  simp [checksumBlock, hs, hc]

lemma getLe64_storeFormatCrc {block : Buf} {o n p : Nat} (h : o + 8 ≤ p ∨ p + 8 ≤ o) :
    getLe64 (storeFormatCrc block o n) p = getLe64 block p :=
  getLe64_store_of_ne h

lemma clearBits_succ (block : Buf) (n : Nat) :
    clearBits block (n + 1) = setBitmapByte (clearBits block n) n false := by
  rw [clearBits, List.range_succ, List.foldl_append]
  rfl

lemma bitAt_clearBits (block : Buf) (n j : Nat) :
    bitAt (clearBits block n) j = if j < n then false else bitAt block j := by
  induction n with
  | zero => rfl
  | succ n ih =>
    rw [clearBits_succ, bitAt_setBitmapByte, ih]
    by_cases hj : n = j
    · rw [if_pos hj, if_pos (by omega)]
    · rw [if_neg hj]
      by_cases hlt : j < n
      · rw [if_pos hlt, if_pos (by omega)]
      · rw [if_neg hlt, if_neg (by omega)]

lemma clearBits_header {block : Buf} {n i : Nat} (hi : i < bitmapHeaderBytes) :
    clearBits block n i = block i := by
  induction n with
  | zero => rfl
  | succ n ih => rw [clearBits_succ, setBitmapByte_of_ne (by omega), ih]

/-- A block of a new bitmap, before its checksum. -/
def plainBitmapBlock (kind total : Nat) (reserveFirst : Bool) (index : Nat) : Buf :=
  let block := storeLe64 Buf.zero 0 kind
  let block := storeLe64 block 8 index
  let block := block.fill bitmapHeaderBytes (blockBytes - bitmapHeaderBytes) 0xFF
  let block := clearBits block (formatValidBits total index)
  if reserveFirst ∧ index = 0 then setBitmapByte block 0 true else block

section

variable {kind total index : Nat} {reserveFirst : Bool}

lemma formatBitmapBlock_eq : formatBitmapBlock kind total reserveFirst index =
    storeFormatCrc (plainBitmapBlock kind total reserveFirst index) metadataChecksumOffset
      blockBytes := rfl

lemma plainBitmapBlock_header {i : Nat} (hi : i < bitmapHeaderBytes) :
    plainBitmapBlock kind total reserveFirst index i =
      storeLe64 (storeLe64 Buf.zero 0 kind) 8 index i := by
  have hclear := @clearBits_header ((storeLe64 (storeLe64 Buf.zero 0 kind) 8 index).fill
    bitmapHeaderBytes (blockBytes - bitmapHeaderBytes) 0xFF) (formatValidBits total index) i hi
  rw [Buf.fill_of_not_mem (Or.inl hi)] at hclear
  simp only [plainBitmapBlock]
  split
  · rw [setBitmapByte_of_ne (by omega), hclear]
  · exact hclear

lemma bitAt_plainBitmapBlock {j : Nat} (hj : j < bitmapBitsPerBlock) :
    bitAt (plainBitmapBlock kind total reserveFirst index) j =
      if reserveFirst = true ∧ index = 0 ∧ j = 0 then true
      else decide (formatValidBits total index ≤ j) := by
  have hfill : bitAt ((storeLe64 (storeLe64 Buf.zero 0 kind) 8 index).fill
      bitmapHeaderBytes (blockBytes - bitmapHeaderBytes) 0xFF) j = true := by
    have hin : bitmapHeaderBytes + j / 8 < bitmapHeaderBytes + (blockBytes - bitmapHeaderBytes) := by
      simp only [bitmapHeaderBytes, blockBytes, bitmapBitsPerBlock] at hj ⊢
      omega
    have hall : ∀ k < 8, bitSet 0xFF k = true := by decide
    rw [bitAt, Buf.fill_of_mem (by omega) hin]
    exact hall _ (Nat.mod_lt _ (by omega))
  have hclear : bitAt (clearBits ((storeLe64 (storeLe64 Buf.zero 0 kind) 8 index).fill
      bitmapHeaderBytes (blockBytes - bitmapHeaderBytes) 0xFF) (formatValidBits total index)) j =
      decide (formatValidBits total index ≤ j) := by
    rw [bitAt_clearBits, hfill]
    by_cases hlt : j < formatValidBits total index
    · simp [hlt]
    · simp [hlt, Nat.le_of_not_lt hlt]
  simp only [plainBitmapBlock]
  by_cases hr : reserveFirst = true ∧ index = 0
  · rw [if_pos hr, bitAt_setBitmapByte, hclear]
    by_cases h0 : 0 = j
    · rw [if_pos h0, if_pos ⟨hr.1, hr.2, h0.symm⟩]
    · rw [if_neg h0, if_neg (fun h => h0 h.2.2.symm)]
  · rw [if_neg hr, hclear, if_neg (fun h => hr ⟨h.1, h.2.1⟩)]

lemma bitAt_formatBitmapBlock {j : Nat} (hj : j < bitmapBitsPerBlock) :
    bitAt ((formatBitmapBlock kind total reserveFirst index).clip blockBytes) j =
      if reserveFirst = true ∧ index = 0 ∧ j = 0 then true
      else decide (formatValidBits total index ≤ j) := by
  have ho : bitmapHeaderBytes + j / 8 < blockBytes := by
    simp only [bitmapHeaderBytes, blockBytes, bitmapBitsPerBlock] at hj ⊢
    omega
  have hc : metadataChecksumOffset + 8 ≤ bitmapHeaderBytes + j / 8 := by
    simp only [bitmapHeaderBytes, metadataChecksumOffset]
    omega
  rw [← bitAt_plainBitmapBlock hj, bitAt, bitAt, Buf.clip_of_lt ho, formatBitmapBlock_eq,
    storeFormatCrc, storeLe64_of_not_mem (.inr hc)]

lemma sealed_storeFormatCrc {plain : Buf} (hk : kind < 2 ^ 64) (hi : index < 2 ^ 64)
    (hplain : ∀ i < bitmapHeaderBytes,
      plain i = storeLe64 (storeLe64 Buf.zero 0 kind) 8 index i) :
    Sealed ((storeFormatCrc plain metadataChecksumOffset blockBytes).clip blockBytes) kind
      index := by
  have hheader (offset : Nat) (ho : offset + 8 ≤ bitmapHeaderBytes) :=
    @getLe64_congr offset offset plain _ fun i hi => hplain (offset + i) (by omega)
  refine Sealed.clip ⟨?_, ?_, checksumBlock_storeFormatCrc⟩
  · rw [getLe64_storeFormatCrc (by decide), hheader _ (by decide),
      getLe64_store_of_ne (by decide), getLe64_store hk]
  · rw [getLe64_storeFormatCrc (by decide), hheader _ (by decide), getLe64_store hi]

lemma formatBitmapBlock_sealed (hk : kind < 2 ^ 64) (hi : index < 2 ^ 64) :
    Sealed ((formatBitmapBlock kind total reserveFirst index).clip blockBytes) kind index := by
  rw [formatBitmapBlock_eq]
  exact sealed_storeFormatCrc hk hi fun _ => plainBitmapBlock_header

end

lemma formatValidBits_eq (total index : Nat) :
    formatValidBits total index = blockValidBits total index := by
  simp only [formatValidBits, blockValidBits]
  split_ifs <;> omega

lemma rootOwnerFlags_eq (owner : UInt32) : rootOwnerFlags owner =
      securityFlags owner.toNat defaultDirectoryPermissions false .isOpen := by
  have hp : (if owner = 0 then defaultSystemPermissions else defaultDirectoryPermissions) =
      defaultDirectoryPermissions &&& permissionKnown := by
    split <;> rfl
  simp only [rootOwnerFlags, securityFlags, hp]
  simp

section

variable (owner : UInt32)

lemma formatRootRecord_fields :
    getLe64 (formatRootRecord (rootOwnerFlags owner)) 0 = recordDirectory ∧
      getLe64 (formatRootRecord (rootOwnerFlags owner)) 8 = rootOwnerFlags owner ∧
      getLe64 (formatRootRecord (rootOwnerFlags owner)) 16 = 1 ∧
      getLe64 (formatRootRecord (rootOwnerFlags owner)) 24 = 1 ∧
      ∀ o, 32 ≤ o → o + 8 ≤ 184 → getLe64 (formatRootRecord (rootOwnerFlags owner)) o = 0 := by
  have hf : rootOwnerFlags owner < 2 ^ 64 := by
    rw [rootOwnerFlags_eq]
    have := securityFlags_lt owner.toNat_lt defaultDirectoryPermissions false .isOpen
    omega
  simp only [formatRootRecord, storeFormatCrc, recordChecksumOffset]
  refine ⟨?_, ?_, ?_, ?_, fun o ho hlt => ?_⟩
  · simp (disch := omega) only [getLe64_store_of_ne, getLe64_store (v := recordDirectory) (by decide)]
  · simp (disch := omega) only [getLe64_store_of_ne, getLe64_store hf]
  · simp (disch := omega) only [getLe64_store_of_ne, getLe64_store (v := 1) (by decide)]
  · simp (disch := omega) only [getLe64_store_of_ne, getLe64_store (v := 1) (by decide)]
  · simp (disch := omega) only [getLe64_store_of_ne, getLe64_zero]

lemma formatRootRecord_ok (formatMinor : Option Nat) :
    RecordOk formatMinor (formatRootRecord (rootOwnerFlags owner)) := by
  obtain ⟨htype, hflags, hid, hgen, hrest⟩ := formatRootRecord_fields owner
  have ho := owner.toNat_lt
  rw [rootOwnerFlags_eq] at hflags hid hgen htype hrest ⊢
  have hopen : ¬ getLe64 (formatRootRecord (securityFlags owner.toNat defaultDirectoryPermissions
      false .isOpen)) 8 &&& recordChildMutationOwnerRestricted ≠ 0 := by
    rw [restricted_of_flags ho hflags]
    decide
  have hinline : ¬ getLe64 (formatRootRecord (securityFlags owner.toNat defaultDirectoryPermissions
      false .isOpen)) 8 &&& recordInlineData ≠ 0 := by
    rw [inlineData_of_flags ho hflags]
    decide
  exact {
    checksum := checksumBlock_storeFormatCrc
    id := by rw [hid]; decide
    generation := by rw [hgen]; decide
    type := .inr htype
    flags := by rw [hflags]; exact securityFlags_known ho _ _ _
    permissions := by rw [recordPermissions_of_flags ho hflags]; decide
    filePolicy := fun _ => hopen
    legacyPolicy := fun _ => hopen
    inlineExtents := by rw [hrest 48 (by omega) (by omega)]; omega
    inlineExtents_le := by rw [hrest 48 (by omega) (by omega)]; omega
    listHead := fun _ => hrest 56 (by omega) (by omega)
    inlineData := fun h => absurd h hinline }

end

/-- A block of the new record table, before the checksum of the root record. -/
def plainTableBlock (rootFlags index : Nat) : Buf :=
  let block := storeLe64 Buf.zero 0 metadataRecordTable
  let block := storeLe64 block 8 index
  if index = 0 then block.copy bitmapHeaderBytes (formatRootRecord rootFlags) recordBytes else block

section

variable {rootFlags index : Nat}

lemma formatTableBlock_eq : formatTableBlock rootFlags index =
    storeFormatCrc (plainTableBlock rootFlags index) metadataChecksumOffset blockBytes := rfl

lemma plainTableBlock_header {i : Nat} (hi : i < bitmapHeaderBytes) :
    plainTableBlock rootFlags index i =
      storeLe64 (storeLe64 Buf.zero 0 metadataRecordTable) 8 index i := by
  simp only [plainTableBlock]
  split
  · rw [Buf.copy_of_not_mem (.inl hi)]
  · rfl

lemma formatTableBlock_sealed (hi : index < 2 ^ 64) :
    Sealed ((formatTableBlock rootFlags index).clip blockBytes) metadataRecordTable index := by
  rw [formatTableBlock_eq]
  exact sealed_storeFormatCrc (by decide) hi fun _ => plainTableBlock_header

lemma formatTableBlock_root {i : Nat} (hi : i < recordBytes) :
    (formatTableBlock rootFlags 0).clip blockBytes (bitmapHeaderBytes + i) =
      formatRootRecord rootFlags i := by
  have hlt : bitmapHeaderBytes + i < blockBytes := by
    simp only [recordBytes, bitmapHeaderBytes, blockBytes] at hi ⊢
    omega
  have hc : metadataChecksumOffset + 8 ≤ bitmapHeaderBytes + i := by
    simp only [bitmapHeaderBytes, metadataChecksumOffset]
    omega
  rw [Buf.clip_of_lt hlt, formatTableBlock_eq, storeFormatCrc, storeLe64_of_not_mem (.inr hc)]
  simp only [plainTableBlock, if_true]
  rw [Buf.copy_of_mem (by omega) (by omega), Nat.add_sub_cancel_left]

end

section

variable {total : Nat} {l : Layout}

/-- The new superblock, before its checksum. -/
def plainSuperblock (totalBlocks : Nat) (l : Layout) : Buf :=
  let block := Buf.zero.copy 0 (Buf.ofList superMagic) 8
  let block := storeLe64 block 8 formatMajor
  let block := storeLe64 block 16 formatMinorCurrent
  let block := storeLe64 block 24 headerBytes
  let block := storeLe64 block 32 blockBytes
  let block := storeLe64 block 40 totalBlocks
  let block := storeLe64 block 64 stateClean
  let block := storeLe64 block 88 1
  let block := storeLe64 block 96 2
  let block := storeLe64 block 104 l.allocationBitmapStart
  let block := storeLe64 block 112 l.allocationBitmapBlocks
  let block := storeLe64 block 120 l.recordBitmapStart
  let block := storeLe64 block 128 l.recordBitmapBlocks
  let block := storeLe64 block 136 l.recordTableStart
  let block := storeLe64 block 144 l.recordTableBlocks
  let block := storeLe64 block 152 l.recordCount
  let block := storeLe64 block 160 l.dataStart
  storeLe64 block 168 l.dataBlocks

lemma formatSuperblock_eq : formatSuperblock total l =
    storeFormatCrc (plainSuperblock total l) superChecksumOffset headerBytes := rfl

lemma Layout.Covers.lt (h : l.Covers total) (ht : total < 2 ^ 64) :
    l.allocationBitmapBlocks < 2 ^ 64 ∧ l.recordBitmapStart < 2 ^ 64 ∧
      l.recordBitmapBlocks < 2 ^ 64 ∧ l.recordTableStart < 2 ^ 64 ∧ l.recordTableBlocks < 2 ^ 64 ∧
      l.dataStart < 2 ^ 64 ∧ l.dataBlocks < 2 ^ 64 ∧ l.allocationBitmapStart < 2 ^ 64 := by
  have h2 := h.recordBitmapStart
  have h3 := h.recordTableStart
  have h4 := h.dataStart
  have h5 := h.dataEnd
  omega

lemma formatSuperblock_layout (h : l.Covers total) (ht : total < 2 ^ 64)
    (hr : l.recordCount < 2 ^ 64) : superblockLayout (formatSuperblock total l) = l := by
  obtain ⟨h1, h2, h3, h4, h5, h6, h7, h8⟩ := h.lt ht
  rw [formatSuperblock_eq]
  simp only [superblockLayout, superChecksumOffset]
  simp (disch := omega) only [getLe64_storeFormatCrc]
  simp only [plainSuperblock]
  simp (disch := omega) only [getLe64_store_of_ne, getLe64_store]

lemma plainSuperblock_fields (l : Layout) (ht : total < 2 ^ 64) :
    getLe64 (plainSuperblock total l) 8 = formatMajor ∧
    getLe64 (plainSuperblock total l) 16 = formatMinorCurrent ∧
    getLe64 (plainSuperblock total l) 24 = headerBytes ∧
    getLe64 (plainSuperblock total l) 32 = blockBytes ∧
    getLe64 (plainSuperblock total l) 40 = total ∧ getLe64 (plainSuperblock total l) 48 = 0 ∧
    getLe64 (plainSuperblock total l) 56 = 0 ∧ getLe64 (plainSuperblock total l) 64 = stateClean ∧
    getLe64 (plainSuperblock total l) 88 = 1 ∧ getLe64 (plainSuperblock total l) 96 = 2 := by
  simp only [plainSuperblock]
  refine ⟨?_, ?_, ?_, ?_, ?_, ?_, ?_, ?_, ?_, ?_⟩ <;>
    simp (disch := first | omega | decide) only [getLe64_store_of_ne, getLe64_store,
      getLe64_copy_of_ne, getLe64_zero]

lemma formatSuperblock_ok {dev : Device} (h : calculateLayout total = some l)
    (ht : total = dev.sectorCount / 8) :
    SuperblockOk dev ((formatSuperblock total l).clip blockBytes) := by
  obtain ⟨hge, rfl⟩ := calculateLayout_some h
  have hlt : total < 2 ^ 61 := by
    have := dev.sectorCount_le
    simp only [u64Max] at this
    omega
  have hcovers := regions_covers hge
  have hcount : (regions total).recordCount < 2 ^ 64 := by
    have hb := atLeastOne_bounds (total / 320)
    simp only [regions]
    omega
  have hget : ∀ o, o + 8 ≤ 192 →
      getLe64 ((formatSuperblock total (regions total)).clip blockBytes) o =
        getLe64 (plainSuperblock total (regions total)) o := by
    intro o ho
    rw [getLe64_clip (by simp only [blockBytes]; omega), formatSuperblock_eq,
      getLe64_storeFormatCrc (by simp only [superChecksumOffset]; omega)]
  have hlayout : superblockLayout ((formatSuperblock total (regions total)).clip blockBytes) =
      regions total := by
    refine Eq.trans ?_ (formatSuperblock_layout hcovers (by omega) hcount)
    simp only [superblockLayout]
    simp (disch := decide) only [getLe64_clip]
  have hfields : ∀ o v, (getLe64 (plainSuperblock total (regions total)) o = v) → o + 8 ≤ 192 →
      getLe64 ((formatSuperblock total (regions total)).clip blockBytes) o = v := by
    intro o v hv ho
    rw [hget o ho, hv]
  obtain ⟨h8, h16, h24, h32, h40, h48, h56, h64, h88, h96⟩ := plainSuperblock_fields (regions total)
    (show total < 2 ^ 64 by omega)
  have h40 := hfields 40 _ h40 (by omega)
  refine ⟨?_, ⟨?_, .inl ?_⟩, ⟨?_, ?_⟩, ?_, ?_, ?_, ⟨?_, ?_⟩, ?_, ?_, ⟨?_, ?_⟩⟩
  · have hbytes : ∀ i < 8, (formatSuperblock total (regions total)).clip blockBytes i =
        Buf.ofList superMagic i := by
      intro i hi
      rw [Buf.clip_of_lt (by simp only [blockBytes]; omega), formatSuperblock_eq, storeFormatCrc,
        storeLe64_of_not_mem (by simp only [superChecksumOffset]; omega)]
      simp only [plainSuperblock]
      simp (disch := omega) only [storeLe64_of_not_mem]
      rw [Buf.copy_of_mem (Nat.zero_le i) (by omega), Nat.sub_zero]
    rw [Buf.bytes_congr hbytes]
    rfl
  · exact hfields 8 _ h8 (by omega)
  · exact hfields 16 _ h16 (by omega)
  · exact hfields 24 _ h24 (by omega)
  · exact hfields 32 _ h32 (by omega)
  · intro i hi hge
    rw [Buf.clip_of_lt hi, formatSuperblock_eq, storeFormatCrc,
      storeLe64_of_not_mem (by simp only [superChecksumOffset]; omega)]
    simp only [plainSuperblock]
    simp (disch := omega) only [storeLe64_of_not_mem]
    rw [Buf.copy_of_not_mem (by omega)]
    rfl
  · rw [checksumBlock_congr (fun i hi => Buf.clip_of_lt
      (by simp only [headerBytes, blockBytes] at hi ⊢; omega)) (by decide)]
    exact checksumBlock_storeFormatCrc
  · rw [h40]
    exact ⟨hge, ht⟩
  · exact hfields _ _ h48 (by omega)
  · exact hfields _ _ h56 (by omega)
  · rw [hfields 64 _ h64 (by omega)]
    decide
  · rw [h40, hlayout, h]
  · exact hfields 88 _ h88 (by omega)
  · rw [hfields 96 _ h96 (by omega)]

end

/-- What the formatter leaves alone. -/
structure FormatFrame (w w' : World) : Prop where
  env : w'.env = w.env
  fs : w'.fs = w.fs
  sectorSize : w'.dev.sectorSize = w.dev.sectorSize
  sectorCount : w'.dev.sectorCount = w.dev.sectorCount
  tail : ∀ s, 8 * (w.dev.sectorCount / 8) ≤ s → w'.dev.media s = w.dev.media s

lemma FormatFrame.refl (w : World) : FormatFrame w w := ⟨rfl, rfl, rfl, rfl, fun _ _ => rfl⟩

lemma FormatFrame.trans {w w1 w2 : World} (h : FormatFrame w w1) (h' : FormatFrame w1 w2) :
    FormatFrame w w2 where
  env := h'.env.trans h.env
  fs := h'.fs.trans h.fs
  sectorSize := h'.sectorSize.trans h.sectorSize
  sectorCount := h'.sectorCount.trans h.sectorCount
  tail s hs := by rw [h'.tail s (by rw [h.sectorCount]; exact hs), h.tail s hs]

lemma formatWrite_spec {w : World} (b : Nat) (x : Buf) :
    wp (formatWrite (b * 8) 8 x) (fun _ w' => FormatFrame w w' ∧ w' = w.put b x)
      (fun _ _ => ¬ (b < w.dev.sectorCount / 8 ∧ w.env.Healthy)) w := by
  rw [formatWrite, wp_bind, wp_get, wp_bind, wp_require]
  refine ⟨fun hfit => ?_, fun hn h => hn ⟨by decide, by omega, by omega⟩⟩
  rw [blockWrite, wp_bind, wp_get, wp_bind, wp_modify, wp_bind,
    wp_require]
  refine ⟨fun _ => ?_, fun hn h => hn (h.2.2.1 _)⟩
  rw [wp_modify]
  refine ⟨⟨rfl, rfl, rfl, rfl, fun s hs => ?_⟩, rfl⟩
  exact if_neg (by omega)

lemma formatBlockWrite_spec {w : World} (b : Nat) (x : Buf) :
    wp (formatBlockWrite b x) (fun _ w' => FormatFrame w w' ∧ w' = w.put b x)
      (fun _ _ => ¬ (b < w.dev.sectorCount / 8 ∧ w.env.Healthy)) w := by
  have hu := w.dev.sectorCount_le
  rw [formatBlockWrite, wp_bind, wp_require]
  exact ⟨fun _ => formatWrite_spec b x, fun hn h => hn (by omega)⟩

lemma formatRegion_spec {w : World} (start : Nat) (block : Nat → Buf) (n : Nat) :
    wp (formatRegion start block n) (fun _ w' => FormatFrame w w' ∧ ∀ b, w'.dev.block b =
        if start ≤ b ∧ b < start + n then (block (b - start)).clip blockBytes else w.dev.block b)
      (fun _ _ => ¬ (start + n ≤ w.dev.sectorCount / 8 ∧ w.env.Healthy)) w := by
  have hu := w.dev.sectorCount_le
  have hloop := @wp_upFrom World (Option String) Unit (fun index _ => do
      Prog.require (start ≤ u64Max - index) none
      formatBlockWrite (start + index) (block index))
    (fun i _ w' => FormatFrame w w' ∧ ∀ b, w'.dev.block b =
      if start ≤ b ∧ b < start + i then (block (b - start)).clip blockBytes else w.dev.block b)
    (fun _ _ => ¬ (start + n ≤ w.dev.sectorCount / 8 ∧ w.env.Healthy)) 0 n () w
    ⟨.refl w, fun b => (if_neg (by omega)).symm⟩ fun j _ w1 _ hj h1 => ?_
  · rw [Nat.zero_add] at hloop
    exact hloop
  · rw [wp_bind, wp_require]
    refine ⟨fun _ => ?_, fun hn h => hn (by omega)⟩
    refine (formatBlockWrite_spec (start + j) (block j)).mono (fun _ w2 h2 => ?_) fun _ _ he h => he ?_
    · obtain ⟨hframe, rfl⟩ := h2
      refine ⟨h1.1.trans hframe, fun b => ?_⟩
      rw [block_put, h1.2 b]
      by_cases hb : b = start + j
      · subst hb
        rw [if_pos rfl, if_pos (by omega), Nat.add_sub_cancel_left]
      · rw [if_neg hb]
        by_cases hin : start ≤ b ∧ b < start + j
        · rw [if_pos hin, if_pos (by omega)]
        · rw [if_neg hin, if_neg (by omega)]
    · rw [h1.1.sectorCount, h1.1.env]
      exact ⟨by omega, h.2⟩

/-- All that a successful format leaves on the device. -/
structure Formatted (w w' : World) (owner : UInt32) : Prop where
  frame : FormatFrame w w'
  sectorSize : w.dev.sectorSize = 512
  total : 64 ≤ w.dev.sectorCount / 8
  super : w'.dev.block 0 =
    (formatSuperblock (w.dev.sectorCount / 8) (regions (w.dev.sectorCount / 8))).clip blockBytes
  allocationBitmap : ∀ i < (regions (w.dev.sectorCount / 8)).allocationBitmapBlocks,
    w'.dev.block ((regions (w.dev.sectorCount / 8)).allocationBitmapStart + i) =
      (formatBitmapBlock metadataAllocationBitmap (regions (w.dev.sectorCount / 8)).dataBlocks
        false i).clip blockBytes
  recordBitmap : ∀ i < (regions (w.dev.sectorCount / 8)).recordBitmapBlocks,
    w'.dev.block ((regions (w.dev.sectorCount / 8)).recordBitmapStart + i) =
      (formatBitmapBlock metadataRecordBitmap (regions (w.dev.sectorCount / 8)).recordCount
        true i).clip blockBytes
  recordTable : ∀ i < (regions (w.dev.sectorCount / 8)).recordTableBlocks,
    w'.dev.block ((regions (w.dev.sectorCount / 8)).recordTableStart + i) =
      (formatTableBlock (rootOwnerFlags owner) i).clip blockBytes

lemma sectorCount_div_le (dev : Device) : dev.sectorCount / 8 ≤ u64Max / 8 :=
  Nat.div_le_div_right dev.sectorCount_le

lemma calculateMgfsLayout_some {total : Nat} {l : Layout} (ht : total ≤ u64Max / 8)
    (h : calculateMgfsLayout total = some l) : 64 ≤ total ∧ l = regions total := by
  have hge : 64 ≤ total := by
    simp only [calculateMgfsLayout, guard_bind_some] at h
    exact h.1
  rw [calculateMgfsLayout_eq hge ht] at h
  exact ⟨hge, (Option.some.inj h).symm⟩

/-- What the formatter needs to succeed. -/
structure Formattable (w : World) : Prop where
  sectorSize : w.dev.sectorSize = 512
  total : 64 ≤ w.dev.sectorCount / 8
  healthy : w.env.Healthy
  owner : w.env.currentUid ≠ none

lemma formatMgfs_spec (w : World) : wp formatMgfs
      (fun _ w' => ∃ owner, w.env.currentUid = some owner ∧ Formatted w w' owner)
      (fun _ _ => ¬ Formattable w) w := by
  rw [formatMgfs, wp_bind, wp_get, wp_bind, wp_require]
  refine ⟨fun hsize => ?_, fun hn h => hn h.sectorSize⟩
  rw [wp_bind, wp_look]
  refine ⟨fun owner howner => ?_, fun e he h => ?_⟩
  swap
  · cases hu : w.env.currentUid with
    | none => exact h.owner hu
    | some uid => rw [hu] at he; cases he
  have howner : w.env.currentUid = some owner := by
    cases hu : w.env.currentUid with
    | none => rw [hu] at howner; cases howner
    | some uid => rw [hu] at howner; rw [Except.ok.inj howner]
  rw [wp_bind, wp_look]
  refine ⟨fun l hl => ?_, fun e he h => ?_⟩
  swap
  · rw [calculateMgfsLayout_eq h.total (sectorCount_div_le w.dev)] at he
    cases he
  have hl : calculateMgfsLayout (w.dev.sectorCount / 8) = some l := by
    cases hc : calculateMgfsLayout (w.dev.sectorCount / 8) with
    | none => rw [hc] at hl; cases hl
    | some l' => rw [hc] at hl; rw [Except.ok.inj hl]
  obtain ⟨hge, rfl⟩ := calculateMgfsLayout_some (sectorCount_div_le w.dev) hl
  have hcovers := regions_covers hge
  have o1 := hcovers.allocationBitmapStart
  have o2 := hcovers.recordBitmapStart
  have o3 := hcovers.recordTableStart
  have o4 := hcovers.dataStart
  have o5 := hcovers.dataEnd
  have o6 := hcovers.dataBlocks_pos
  have hu := w.dev.sectorCount_le
  refine ((formatRegion_spec _ _ _).mono (fun _ w1 h1 => h1) fun _ _ he h => he
    ⟨by omega, h.healthy⟩).bind fun _ w1 h1 => ?_
  refine ((formatRegion_spec _ _ _).mono (fun _ w2 h2 => h2) fun _ _ he h => he ?_).bind
    fun _ w2 h2 => ?_
  · rw [h1.1.sectorCount, h1.1.env]
    exact ⟨by omega, h.healthy⟩
  have f2 := h1.1.trans h2.1
  refine ((formatRegion_spec _ _ _).mono (fun _ w3 h3 => h3) fun _ _ he h => he ?_).bind
    fun _ w3 h3 => ?_
  · rw [f2.sectorCount, f2.env]
    exact ⟨by omega, h.healthy⟩
  have f3 := f2.trans h3.1
  refine ((formatBlockWrite_spec _ _).mono (fun _ w4 h4 => h4) fun _ _ he h => he ?_).bind
    fun _ w4 h4 => ?_
  · rw [f3.sectorCount, f3.env]
    exact ⟨by omega, h.healthy⟩
  obtain ⟨hf4, rfl⟩ := h4
  have f4 := f3.trans hf4
  rw [wp_bind, wp_require]
  refine ⟨fun _ => ?_, fun hn _ => hn (by omega)⟩
  rw [writeZeroSectors]
  refine ((formatWrite_spec _ _).mono (fun _ w5 h5 => h5) fun _ _ he h => he ?_).bind
    fun _ w5 h5 => ?_
  · rw [f4.sectorCount, f4.env]
    exact ⟨by omega, h.healthy⟩
  obtain ⟨hf5, rfl⟩ := h5
  rw [wp_bind, wp_require]
  refine ⟨fun _ => ?_, fun hn _ => hn ?_⟩
  swap
  · simp only [if_neg (by omega : ¬ 7 + 1 > 8)]
    omega
  refine ⟨owner, howner, f4.trans hf5, hsize, hge, ?_, ?_, ?_, ?_⟩
  · rw [block_put_other (by omega), block_put_same]
  · intro i hi
    rw [block_put_other (by omega), block_put_other (by omega), h3.2, if_neg (by omega), h2.2,
      if_neg (by omega), h1.2, if_pos (by omega), Nat.add_sub_cancel_left]
  · intro i hi
    rw [block_put_other (by omega), block_put_other (by omega), h3.2, if_neg (by omega), h2.2,
      if_pos (by omega), Nat.add_sub_cancel_left]
  · intro i hi
    rw [block_put_other (by omega), block_put_other (by omega), h3.2, if_pos (by omega),
      Nat.add_sub_cancel_left]

end Mangrove.Mgfs
