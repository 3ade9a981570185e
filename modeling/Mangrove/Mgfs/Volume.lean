import Mangrove.Mgfs.Directory

/-! What the blocks of a mounted volume stand for, and what each update function does to the
volume. One that fails leaves it as it was. -/

namespace Mangrove.Mgfs

/-- The regions lie end to end, from the superblock on, over all blocks of the device. -/
structure Layout.Covers (l : Layout) (total : Nat) : Prop where
  allocationBitmapStart : l.allocationBitmapStart = 1
  recordBitmapStart : l.recordBitmapStart = l.allocationBitmapStart + l.allocationBitmapBlocks
  recordTableStart : l.recordTableStart = l.recordBitmapStart + l.recordBitmapBlocks
  dataStart : l.dataStart = l.recordTableStart + l.recordTableBlocks
  dataEnd : l.dataStart + l.dataBlocks = total
  dataBlocks_pos : 0 < l.dataBlocks
  recordTableBlocks_pos : 0 < l.recordTableBlocks
  recordCount : l.recordCount = l.recordTableBlocks * recordsPerTableBlock
  recordBits : l.recordCount ≤ l.recordBitmapBlocks * bitmapBitsPerBlock
  dataBits : l.dataBlocks ≤ l.allocationBitmapBlocks * bitmapBitsPerBlock

/-- The regions of a volume of this many blocks. -/
def regions (total : Nat) : Layout :=
  let tableBlocks := atLeastOne (total / 320)
  let allocationBitmapBlocks := (total + 32575) / 32576
  let recordBitmapBlocks := (tableBlocks * 21 + 32575) / 32576
  { allocationBitmapStart := 1
    allocationBitmapBlocks
    recordBitmapStart := 1 + allocationBitmapBlocks
    recordBitmapBlocks
    recordTableStart := 1 + allocationBitmapBlocks + recordBitmapBlocks
    recordTableBlocks := tableBlocks
    recordCount := tableBlocks * 21
    dataStart := 1 + allocationBitmapBlocks + recordBitmapBlocks + tableBlocks
    dataBlocks := total - (1 + allocationBitmapBlocks + recordBitmapBlocks + tableBlocks) }

lemma ceilDiv_bitmapBits (v : Nat) : ceilDiv v bitmapBitsPerBlock = (v + 32575) / 32576 := by
  unfold ceilDiv bitmapBitsPerBlock
  split <;> omega

variable {α : Type} {c : Prop} {f : Unit → Option α}

lemma guard_bind_pos [Decidable c] (h : c) : (guard c >>= f) = f () := by
  simp [guard, h]

lemma guard_bind_neg [Decidable c] (h : ¬ c) : (guard c >>= f) = none := by
  simp [guard, h]

lemma guard_bind_some [Decidable c] {a : α} : (guard c >>= f) = some a ↔ c ∧ f () = some a := by
  by_cases h : c <;> simp [guard, h]

lemma atLeastOne_bounds (n : Nat) : 1 ≤ atLeastOne n ∧ n ≤ atLeastOne n ∧ atLeastOne n ≤ n + 1 := by
  unfold atLeastOne
  split <;> omega

variable {total : Nat}

lemma regions_dataStart_lt (h : 64 ≤ total) : (regions total).dataStart < total := by
  have ht := atLeastOne_bounds (total / 320)
  simp only [regions]
  omega

lemma regions_covers (h : 64 ≤ total) : (regions total).Covers total := by
  have hd := regions_dataStart_lt h
  have ht := atLeastOne_bounds (total / 320)
  constructor <;> simp only [regions, recordsPerTableBlock, bitmapBitsPerBlock] at hd ⊢
  all_goals omega

lemma calculateLayout_of_ge (h : 64 ≤ total) (hu : total ≤ u64Max / 8) :
    calculateLayout total = some (regions total) := by
  have hd := regions_dataStart_lt h
  have ht := atLeastOne_bounds (total / 320)
  simp only [regions, u64Max] at hd hu
  simp only [calculateLayout]
  rw [guard_bind_pos (show minTotalBlocks ≤ total from h), guard_bind_pos, guard_bind_pos, guard_bind_pos]
  all_goals simp only [ceilDiv_bitmapBits, recordsPerTableBlock, tableBlocksDivisor, u64Max]
  · rfl
  all_goals omega

lemma calculateLayout_some {l : Layout} (h : calculateLayout total = some l) :
    64 ≤ total ∧ l = regions total := by
  simp only [calculateLayout, guard_bind_some] at h
  obtain ⟨hm, -, -, -, hl⟩ := h
  refine ⟨hm, ?_⟩
  rw [← Option.some.inj hl]
  simp only [ceilDiv_bitmapBits]
  rfl

lemma calculateMgfsLayout_eq (h : 64 ≤ total) (hu : total ≤ u64Max / 8) :
    calculateMgfsLayout total = some (regions total) := by
  have hd := regions_dataStart_lt h
  have ht := atLeastOne_bounds (total / 320)
  simp only [regions, u64Max] at hd hu
  simp only [calculateMgfsLayout]
  rw [guard_bind_pos (show minTotalBlocks ≤ total from h), guard_bind_pos, guard_bind_pos, guard_bind_pos, guard_bind_pos]
  all_goals simp only [bitmapBitsPerBlock, recordsPerTableBlock, tableBlocksDivisor, u64Max]
  · rfl
  all_goals omega

lemma mkmgfsCalculateLayout_eq (h : 64 ≤ total) (hu : total ≤ u64Max / 8) :
    mkmgfsCalculateLayout total = some (regions total) :=
  calculateLayout_of_ge h hu

lemma bootAdd_bind_of_le {a b : Nat} {f : Nat → Option α} (h : a + b ≤ u64Max) :
    (bootAdd a b >>= f) = f (a + b) := by
  simp only [bootAdd]
  rw [if_neg (by omega)]
  rfl

lemma bootValidateLayout_eq (h : 64 ≤ total) (hu : total ≤ u64Max / 8) (superblock : Buf) :
    bootValidateLayout total superblock =
      if superblockLayout superblock = regions total then some (regions total) else none := by
  have hd := regions_dataStart_lt h
  have ht := atLeastOne_bounds (total / 320)
  simp only [bootValidateLayout, ceilDiv_bitmapBits]
  rw [guard_bind_pos, bootAdd_bind_of_le, bootAdd_bind_of_le, bootAdd_bind_of_le, guard_bind_pos]
  · by_cases hl : superblockLayout superblock = regions total
    · rw [if_pos hl]
      exact guard_bind_pos hl
    · rw [if_neg hl]
      exact guard_bind_neg hl
  all_goals omega

def InData (l : Layout) (b : Nat) : Prop := l.dataStart ≤ b ∧ b < l.dataStart + l.dataBlocks

instance (l : Layout) (b : Nat) : Decidable (InData l b) := inferInstanceAs (Decidable (_ ∧ _))

def bitAt (block : Buf) (i : Nat) : Bool := bitSet (block (bitmapHeaderBytes + i / 8)) (i % 8)

/-- The bit of a block in the allocation bitmap in memory. -/
def allocated (w : World) (b : Nat) : Bool :=
  let l := w.fs.layout
  bitAt (w.dev.block (l.allocationBitmapStart + (b - l.dataStart) / bitmapBitsPerBlock))
    ((b - l.dataStart) % bitmapBitsPerBlock)

def slotRecord (w : World) (s : Nat) : Buf :=
  ((w.dev.block (w.fs.layout.recordTableStart + s / recordsPerTableBlock)).skip
    (bitmapHeaderBytes + s % recordsPerTableBlock * recordBytes)).clip recordBytes

/-- The contents of a volume, apart from its superblock. -/
@[ext]
structure Vol where
  used : Nat → Bool
  live : Nat → Bool
  record : Nat → Buf
  block : Nat → Buf

/-- What the driver and the device together say of the volume. -/
def vol (w : World) : Vol where
  used b := decide (InData w.fs.layout b) && allocated w b
  live s := decide (s < w.fs.layout.recordCount) && recordSlotAllocated w.fs s
  record s := if s < w.fs.layout.recordCount then slotRecord w s else Buf.zero
  block b := if InData w.fs.layout b then w.dev.block b else Buf.zero

def stateFlags (w : World) : Nat := getLe64 (w.dev.block 0) 64

/-- A metadata block of this kind and index whose checksum is right. -/
def Sealed (block : Buf) (kind index : Nat) : Prop :=
  getLe64 block 0 = kind ∧ getLe64 block 8 = index ∧
    checksumBlock block metadataChecksumOffset blockBytes = true

/-- What a mount establishes and every operation keeps: the regions fill the
device, each metadata block is sealed, and the cached record bitmap agrees with
the one on the device. -/
structure Mounted (w : World) : Prop where
  sectorSize : w.dev.sectorSize = 512
  covers : w.fs.layout.Covers (w.dev.sectorCount / 8)
  allocationBitmap : ∀ i < w.fs.layout.allocationBitmapBlocks,
    Sealed (w.dev.block (w.fs.layout.allocationBitmapStart + i)) metadataAllocationBitmap i
  recordBitmap : ∀ i < w.fs.layout.recordBitmapBlocks,
    Sealed (w.dev.block (w.fs.layout.recordBitmapStart + i)) metadataRecordBitmap i
  recordTable : ∀ i < w.fs.layout.recordTableBlocks,
    Sealed (w.dev.block (w.fs.layout.recordTableStart + i)) metadataRecordTable i
  bitmapCopy : ∀ i < w.fs.layout.recordBitmapBlocks, ∀ o < blockBytes, bitmapHeaderBytes ≤ o →
    w.fs.recordBitmap (i * blockBytes + o) = w.dev.block (w.fs.layout.recordBitmapStart + i) o

variable {block : Buf} {kind index : Nat}

lemma validateMetadataHeader_ok {u : Unit} :
    validateMetadataHeader block kind index = .ok u ↔ Sealed block kind index := by
  simp only [validateMetadataHeader, ensure_bind_ok, ensure_ok, Sealed, and_assoc]

section

variable (h : Sealed block kind index)

include h

lemma Sealed.validate :
    validateMetadataHeader block kind index = .ok () :=
  validateMetadataHeader_ok.mpr h

lemma Sealed.clip : Sealed (block.clip blockBytes) kind index := by
  obtain ⟨hk, hi, hc⟩ := h
  refine ⟨?_, ?_, ?_⟩
  · rw [getLe64_clip (by decide), hk]
  · rw [getLe64_clip (by decide), hi]
  · rw [checksumBlock_congr (fun i hi => Buf.clip_of_lt hi) (by decide), hc]

lemma Sealed.rewrite {payload : Buf} (hp : ∀ i < bitmapHeaderBytes, payload i = block i) :
    Sealed (recomputeChecksum payload metadataChecksumOffset blockBytes) kind index := by
  obtain ⟨hk, hi, -⟩ := h
  refine ⟨?_, ?_, checksumBlock_recompute _ _ _⟩
  · rw [getLe64_recomputeChecksum (by decide), ← hk]
    exact getLe64_congr fun i hi => hp _ (by simp only [bitmapHeaderBytes]; omega)
  · rw [getLe64_recomputeChecksum (by decide), ← hi]
    exact getLe64_congr fun i hi => hp _ (by simp only [bitmapHeaderBytes]; omega)

end

variable {w : World} {b : Nat} {x : Buf}

lemma readBlock_ok : readBlock w b = .ok x ↔ w.dev.sectorSize = 512 ∧ b ≤ u64Max / 8 ∧
      (b * 8 ≤ w.dev.sectorCount ∧ 8 ≤ w.dev.sectorCount - b * 8) ∧
      w.env.readable b = true ∧ x = w.dev.block b := by
  simp only [readBlock, ensure_bind_ok]
  refine and_congr_right fun _ => and_congr_right fun _ => and_congr_right fun _ =>
    and_congr_right fun _ => ?_
  exact ⟨fun h => (Except.ok.inj h).symm, fun h => by rw [h]; rfl⟩

lemma readBlock_eq (h : readBlock w b = .ok x) : x = w.dev.block b :=
  (readBlock_ok.mp h).2.2.2.2

section

variable (hm : Mounted w)

include hm

lemma Mounted.readBlock (hb : b < w.dev.sectorCount / 8)
    (hr : w.env.readable b = true) : readBlock w b = .ok (w.dev.block b) := by
  have hu := w.dev.sectorCount_le
  exact readBlock_ok.mpr ⟨hm.sectorSize, by omega, by omega, hr, rfl⟩

lemma Mounted.inData_lt (hb : InData w.fs.layout b) : b < w.dev.sectorCount / 8 := by
  have h1 := hm.covers.dataEnd
  have h2 := hb.2
  omega

lemma Mounted.allocationBlock (hb : InData w.fs.layout b) :
    (b - w.fs.layout.dataStart) / bitmapBitsPerBlock < w.fs.layout.allocationBitmapBlocks := by
  have h := hm.covers.dataBits
  obtain ⟨h1, h2⟩ := hb
  exact Nat.div_lt_of_lt_mul (by rw [Nat.mul_comm]; omega)

variable {s : Nat}

section

variable (hs : s < w.fs.layout.recordCount)

include hs

lemma Mounted.tableBlock : s / recordsPerTableBlock < w.fs.layout.recordTableBlocks := by
  have h := hm.covers.recordCount
  exact Nat.div_lt_of_lt_mul (by rw [Nat.mul_comm]; omega)

end

end

section

variable {w' : World} (hm : Mounted w) (hl : w'.fs.layout = w.fs.layout)

include hm hl

lemma Mounted.used_congr (h : ∀ i < w.fs.layout.allocationBitmapBlocks,
    w'.dev.block (w.fs.layout.allocationBitmapStart + i) =
      w.dev.block (w.fs.layout.allocationBitmapStart + i)) : (vol w').used = (vol w).used := by
  funext b
  simp only [vol, allocated, hl]
  by_cases hb : InData w.fs.layout b
  · rw [h _ (hm.allocationBlock hb)]
  · simp only [hb, decide_false, Bool.false_and]

lemma Mounted.record_congr (h : ∀ i < w.fs.layout.recordTableBlocks,
    w'.dev.block (w.fs.layout.recordTableStart + i) =
      w.dev.block (w.fs.layout.recordTableStart + i)) : (vol w').record = (vol w).record := by
  funext s
  simp only [vol, slotRecord, hl]
  by_cases hs : s < w.fs.layout.recordCount
  · rw [h _ (hm.tableBlock hs)]
  · rw [if_neg hs, if_neg hs]

omit hm in
lemma live_congr (h : w'.fs.recordBitmap = w.fs.recordBitmap) : (vol w').live = (vol w).live := by
  funext s
  simp only [vol, recordSlotAllocated, hl, h]

omit hm in
lemma data_congr (h : ∀ b, InData w.fs.layout b → w'.dev.block b = w.dev.block b) :
    (vol w').block = (vol w).block := by
  funext b
  simp only [vol, hl]
  by_cases hb : InData w.fs.layout b
  · rw [h b hb]
  · rw [if_neg hb, if_neg hb]

end

/-- The block written as the driver writes it. -/
def World.put (w : World) (b : Nat) (x : Buf) : World :=
  { w with dev := w.dev.writeSectors (b * 8) 8 x, writes := w.writes + 1 }

lemma block_put (w : World) (b c : Nat) (x : Buf) :
    (w.put b x).dev.block c = if c = b then x.clip blockBytes else w.dev.block c := by
  by_cases h : c = b
  · subst c
    rw [if_pos rfl]
    exact Device.block_write_same _ _ _
  · rw [if_neg h]
    exact Device.block_write_other h

lemma block_put_same (w : World) (b : Nat) (x : Buf) :
    (w.put b x).dev.block b = x.clip blockBytes := by
  rw [block_put, if_pos rfl]

lemma block_put_other {c : Nat} (h : c ≠ b) : (w.put b x).dev.block c = w.dev.block c := by
  rw [block_put, if_neg h]

def World.OnDevice (w : World) (b : Nat) : Prop :=
  w.dev.sectorSize = 512 ∧ b < w.dev.sectorCount / 8

lemma Mounted.onDevice (hm : Mounted w) (hb : b < w.dev.sectorCount / 8) : w.OnDevice b :=
  ⟨hm.sectorSize, hb⟩

variable {E : Option String → World → Prop} {Q : Unit → World → Prop}

lemma wp_writeBlock
    (hq : Q () (w.put b x))
    (he : ∀ e n, ¬ (w.OnDevice b ∧ w.env.Healthy) → E e { w with writes := n }) :
    Prog.wp (writeBlock b x) Q E w := by
  have hu := w.dev.sectorCount_le
  rw [writeBlock, Prog.wp_bind, Prog.wp_get, Prog.wp_bind, Prog.wp_require]
  refine ⟨fun _ => ?_, fun hn => he _ w.writes fun h => hn ⟨h.1.1, by have := h.1.2; omega⟩⟩
  rw [Prog.wp_bind, Prog.wp_require]
  refine ⟨fun _ => ?_, fun hn => he _ w.writes fun h => hn (by have := h.1.2; omega)⟩
  rw [blockWrite, Prog.wp_bind, Prog.wp_get, Prog.wp_bind, Prog.wp_modify, Prog.wp_bind,
    Prog.wp_require]
  refine ⟨fun hok => ?_, fun hn => he _ _ fun h => hn (h.2.2.1 _)⟩
  rw [Prog.wp_modify]
  exact hq

open Function (update)
open Prog (wp wp_bind wp_get wp_look wp_pure wp_require)

/-- The world after an operation whose in-memory state became `fs` and whose
volume became `v`. -/
structure Reaches (w w' : World) (fs : Fs) (v : Vol) : Prop where
  env : w'.env = w.env
  fs : w'.fs = fs
  mounted : Mounted w'
  vol : vol w' = v

/-- Nothing of the volume has changed. -/
def Same (w w' : World) : Prop := Reaches w w' w.fs (vol w)

lemma Same.refl (hm : Mounted w) : Same w w := ⟨rfl, rfl, hm, rfl⟩

section

variable (hm : Mounted w)

include hm

lemma Same.tick (n : Nat) : Same w { w with writes := n } :=
  ⟨rfl, rfl, ⟨hm.1, hm.2, hm.3, hm.4, hm.5, hm.6⟩, rfl⟩

lemma Mounted.order : w.fs.layout.allocationBitmapStart = 1 ∧
    w.fs.layout.recordBitmapStart = 1 + w.fs.layout.allocationBitmapBlocks ∧
    w.fs.layout.recordTableStart = w.fs.layout.recordBitmapStart + w.fs.layout.recordBitmapBlocks ∧
    w.fs.layout.dataStart = w.fs.layout.recordTableStart + w.fs.layout.recordTableBlocks ∧
    w.fs.layout.dataStart < w.dev.sectorCount / 8 := by
  have h1 := hm.covers.allocationBitmapStart
  have h2 := hm.covers.recordBitmapStart
  have h3 := hm.covers.dataEnd
  have h4 := hm.covers.dataBlocks_pos
  exact ⟨h1, by omega, hm.covers.recordTableStart, hm.covers.dataStart, by omega⟩

lemma writeBlock_data_spec {b : Nat} (hb : InData w.fs.layout b) (x : Buf) :
    wp (writeBlock b x)
      (fun _ w' => Reaches w w' w.fs
        { vol w with block := update (vol w).block b (x.clip blockBytes) })
      (fun _ w' => Same w w' ∧ ¬ w.env.Healthy) w := by
  obtain ⟨h1, h2, h3, h4, h5⟩ := hm.order
  have hd := hb.1
  refine wp_writeBlock ?_ fun e n hn =>
    ⟨Same.tick hm n, fun hh => hn ⟨hm.onDevice (hm.inData_lt hb), hh⟩⟩
  have hlow : ∀ c < w.fs.layout.dataStart, (w.put b x).dev.block c = w.dev.block c :=
    fun c hc => block_put_other (by omega)
  have hfs : (w.put b x).fs = w.fs := rfl
  refine ⟨rfl, rfl, ⟨hm.1, hm.2, ?_, ?_, ?_, ?_⟩, Vol.ext ?_ (live_congr rfl rfl) ?_ ?_⟩
  · intro i hi
    rw [hfs] at hi ⊢
    rw [hlow _ (by omega)]
    exact hm.allocationBitmap i hi
  · intro i hi
    rw [hfs] at hi ⊢
    rw [hlow _ (by omega)]
    exact hm.recordBitmap i hi
  · intro i hi
    rw [hfs] at hi ⊢
    rw [hlow _ (by omega)]
    exact hm.recordTable i hi
  · intro i hi
    rw [hfs] at hi ⊢
    rw [hlow _ (by omega)]
    exact hm.bitmapCopy i hi
  · exact hm.used_congr rfl fun i hi => hlow _ (by omega)
  · exact hm.record_congr rfl fun i hi => hlow _ (by omega)
  · funext c
    by_cases hcb : c = b
    · subst c
      simp only [vol, hfs, Function.update_self, if_pos hb, block_put_same]
    · simp only [vol, hfs, Function.update_of_ne hcb, block_put_other hcb]

end

lemma bitAt_setBitmapByte (block : Buf) (i j : Nat) (v : Bool) :
    bitAt (setBitmapByte block i v) j = if i = j then v else bitAt block j := by
  have hi8 : i % 8 < 8 := by omega
  have hj8 : j % 8 < 8 := by omega
  simp only [setBitmapByte, bitAt]
  by_cases hb : j / 8 = i / 8
  · have he : (i = j) = (i % 8 = j % 8) := propext ⟨fun h => by rw [h], fun h => by omega⟩
    rw [hb, if_pos rfl]
    cases v
    · simp only [Bool.false_eq_true, if_false, bitSet_and_not hi8 hj8]
      by_cases h : i = j
      · simp [h]
      · simp [h, he ▸ h]
    · simp only [if_true, bitSet_or hi8 hj8]
      by_cases h : i = j
      · simp [h]
      · simp [h, he ▸ h]
  · rw [if_neg (by omega), if_neg (by omega : ¬ i = j)]

variable {i j : Nat}

lemma bitAt_set (hj : j < bitmapBitsPerBlock) (v : Bool) :
    bitAt ((recomputeChecksum (setBitmapByte block i v) metadataChecksumOffset blockBytes).clip
      blockBytes) j = if i = j then v else bitAt block j := by
  simp only [bitmapBitsPerBlock] at hj
  have ho : bitmapHeaderBytes + j / 8 < blockBytes := by
    simp only [bitmapHeaderBytes, blockBytes]; omega
  have hc : metadataChecksumOffset + 8 ≤ bitmapHeaderBytes + j / 8 := by
    simp only [bitmapHeaderBytes, metadataChecksumOffset]; omega
  rw [bitAt, Buf.clip_of_lt ho, recomputeChecksum_of_not_mem (Or.inr hc), ← bitAt,
    bitAt_setBitmapByte]

lemma setBitmapByte_of_ne {v : Bool}
    (h : j ≠ bitmapHeaderBytes + i / 8) : setBitmapByte block i v j = block j := by
  simp only [setBitmapByte]
  rw [if_neg h]

/-- A bitmap block with one bit set to the value, and sealed again. -/
structure BitChanged (block x : Buf) (kind index i : Nat) (value : Bool) : Prop where
  isSealed : Sealed (x.clip blockBytes) kind index
  bits : ∀ j < bitmapBitsPerBlock,
    bitAt (x.clip blockBytes) j = if i = j then value else bitAt block j
  bytes : ∀ o < blockBytes, bitmapHeaderBytes ≤ o → o ≠ bitmapHeaderBytes + i / 8 → x o = block o

lemma bitChanged_set {kind index : Nat} (h : Sealed block kind index) (i : Nat) (value : Bool) :
    BitChanged block (recomputeChecksum (setBitmapByte block i value) metadataChecksumOffset
      blockBytes) kind index i value := by
  refine ⟨(h.rewrite fun j hj => setBitmapByte_of_ne (by omega)).clip,
    fun j hj => bitAt_set hj value, fun o _ hh hne => ?_⟩
  rw [recomputeChecksum_of_not_mem (Or.inr (show metadataChecksumOffset + 8 ≤ o from hh)),
    setBitmapByte_of_ne hne]

lemma wp_updateBitmapBit (hm : Mounted w) {start blocks valid bit : Nat}
    {value recordBitmap : Bool}
    (hlt : start + bit / bitmapBitsPerBlock < w.dev.sectorCount / 8) (hbit : bit < valid)
    (hblock : bit / bitmapBitsPerBlock < blocks)
    (hs : Sealed (w.dev.block (start + bit / bitmapBitsPerBlock))
      (if recordBitmap then metadataRecordBitmap else metadataAllocationBitmap)
      (bit / bitmapBitsPerBlock)) (he : ∀ e w', Same w w' ∧ ¬ w.env.Healthy → E e w')
    (hq : ∀ x, BitChanged (w.dev.block (start + bit / bitmapBitsPerBlock)) x
        (if recordBitmap then metadataRecordBitmap else metadataAllocationBitmap)
        (bit / bitmapBitsPerBlock) (bit % bitmapBitsPerBlock) value →
      Q () (if recordBitmap then
        { w.put (start + bit / bitmapBitsPerBlock) x with
          fs := setCachedByte w.fs (bit / bitmapBitsPerBlock * blockBytes +
              (bitmapHeaderBytes + bit % bitmapBitsPerBlock / 8))
            (x (bitmapHeaderBytes + bit % bitmapBitsPerBlock / 8)) }
        else w.put (start + bit / bitmapBitsPerBlock) x)) :
    wp (updateBitmapBit start blocks valid bit value recordBitmap) Q E w := by
  rw [updateBitmapBit, wp_bind, wp_look]
  refine ⟨fun block hok => ?_, fun e herr => he e w ⟨Same.refl hm, fun hh => ?_⟩⟩
  · simp only [orElse_ok, except_bind_ok] at hok
    obtain ⟨-, -, x, hr, -, -, hp⟩ := hok
    cases hp
    cases readBlock_eq hr
    rw [wp_bind]
    refine wp_writeBlock ?_ fun e n hn =>
      he e _ ⟨Same.tick hm n, fun hh => hn ⟨hm.onDevice hlt, hh⟩⟩
    have hx := hq _ (bitChanged_set hs (bit % bitmapBitsPerBlock) value)
    cases recordBitmap
    · exact hx
    · exact hx
  · have hr := hm.readBlock hlt (hh.1 _)
    have hv := hs.validate
    simp only [ensure, hbit, hblock, and_self, if_true, hr, hv, orElse, bind, Except.bind, pure,
      Except.pure] at herr
    cases herr

lemma div_mod_ne {n : Nat} (hd : j / n = i / n) (h : j ≠ i) : i % n ≠ j % n := by
  intro hm
  apply h
  rw [← Nat.div_add_mod j n, ← Nat.div_add_mod i n, hd, hm]

lemma updateAllocationBit_spec (hm : Mounted w) {b : Nat}
    (hb : InData w.fs.layout b) (value : Bool) :
    wp (updateBitmapBit w.fs.layout.allocationBitmapStart w.fs.layout.allocationBitmapBlocks
        w.fs.layout.dataBlocks (b - w.fs.layout.dataStart) value false)
      (fun _ w' => Reaches w w' w.fs { vol w with used := update (vol w).used b value })
      (fun _ w' => Same w w' ∧ ¬ w.env.Healthy) w := by
  obtain ⟨h1, h2, h3, h4, h5⟩ := hm.order
  have hbb := hm.allocationBlock hb
  have hb1 := hb.1
  have hb2 := hb.2
  refine wp_updateBitmapBit hm (by omega) (by omega) hbb (hm.allocationBitmap _ hbb)
    (fun _ _ h => h) fun x hx => ?_
  simp only [Bool.false_eq_true, if_false] at hx ⊢
  set i := b - w.fs.layout.dataStart with hi
  have hother : ∀ c, c ≠ w.fs.layout.allocationBitmapStart + i / bitmapBitsPerBlock →
      (w.put (w.fs.layout.allocationBitmapStart + i / bitmapBitsPerBlock) x).dev.block c =
        w.dev.block c := fun c hc => block_put_other hc
  have hsame := block_put_same w (w.fs.layout.allocationBitmapStart + i / bitmapBitsPerBlock) x
  set w' := w.put (w.fs.layout.allocationBitmapStart + i / bitmapBitsPerBlock) x
  have hfs : w'.fs = w.fs := rfl
  refine ⟨rfl, rfl, ⟨hm.1, hm.2, ?_, ?_, ?_, ?_⟩, Vol.ext ?_ (live_congr rfl rfl) ?_ ?_⟩
  · intro j hj
    rw [hfs] at hj ⊢
    by_cases hji : j = i / bitmapBitsPerBlock
    · rw [hji, hsame]
      exact hx.isSealed
    · rw [hother _ (by omega)]
      exact hm.allocationBitmap j hj
  · intro j hj
    rw [hfs] at hj ⊢
    rw [hother _ (by omega)]
    exact hm.recordBitmap j hj
  · intro j hj
    rw [hfs] at hj ⊢
    rw [hother _ (by omega)]
    exact hm.recordTable j hj
  · intro j hj
    rw [hfs] at hj ⊢
    rw [hother _ (by omega)]
    exact hm.bitmapCopy j hj
  · funext c
    by_cases hc : InData w.fs.layout c
    · have hc1 := hc.1
      by_cases hcb : c = b
      · subst c
        simp only [vol, Function.update_self, allocated, hfs, hc, decide_true, Bool.true_and]
        rw [hsame, hx.bits _ (Nat.mod_lt _ (by decide)), if_pos rfl]
      · simp only [vol, Function.update_of_ne hcb, allocated, hfs]
        congr 1
        by_cases hblk : (c - w.fs.layout.dataStart) / bitmapBitsPerBlock = i / bitmapBitsPerBlock
        · rw [hblk, hsame, hx.bits _ (Nat.mod_lt _ (by decide)),
            if_neg (div_mod_ne hblk (by omega))]
        · rw [hother _ (by omega)]
    · have hcb : c ≠ b := fun h => hc (h ▸ hb)
      simp only [vol, Function.update_of_ne hcb, hfs, hc, decide_false, Bool.false_and]
  · exact hm.record_congr rfl fun j _ => hother _ (by omega)
  · exact data_congr rfl fun c hc => hother _ (by have := hc.1; omega)

lemma slot_copy {block record : Buf} {i j : Nat} (hj : j < recordsPerTableBlock) :
    ((((recomputeChecksum (block.copy (bitmapHeaderBytes + i * recordBytes) record recordBytes)
      metadataChecksumOffset blockBytes).clip blockBytes).skip
        (bitmapHeaderBytes + j * recordBytes)).clip recordBytes) =
      if i = j then record.clip recordBytes
      else (block.skip (bitmapHeaderBytes + j * recordBytes)).clip recordBytes := by
  simp only [recordsPerTableBlock] at hj
  funext k
  by_cases hk : k < recordBytes
  · have hlt : bitmapHeaderBytes + j * recordBytes + k < blockBytes := by
      simp only [bitmapHeaderBytes, recordBytes, blockBytes] at hk ⊢
      omega
    have hge : metadataChecksumOffset + 8 ≤ bitmapHeaderBytes + j * recordBytes + k := by
      simp only [bitmapHeaderBytes, recordBytes, metadataChecksumOffset]
      omega
    rw [Buf.clip_of_lt hk, Buf.skip_apply, Buf.clip_of_lt hlt,
      recomputeChecksum_of_not_mem (Or.inr hge)]
    simp only [bitmapHeaderBytes, recordBytes] at hk ⊢
    by_cases hij : i = j
    · rw [if_pos hij, Buf.copy_of_mem (by omega) (by omega), Buf.clip_of_lt hk]
      congr 1
      omega
    · rw [if_neg hij, Buf.clip_of_lt hk, Buf.skip_apply]
      exact Buf.copy_of_not_mem (by omega)
  · rw [Buf.clip_of_ge (by omega)]
    split <;> rw [Buf.clip_of_ge (by omega)]

variable {s : Nat}

lemma writeRecordSlot_spec (hm : Mounted w) (hs : s < w.fs.layout.recordCount) (record : Buf) :
    wp (writeRecordSlot s record)
      (fun _ w' => Reaches w w' w.fs
        { vol w with record := update (vol w).record s (record.clip recordBytes) })
      (fun _ w' => Same w w' ∧ ¬ w.env.Healthy) w := by
  obtain ⟨h1, h2, h3, h4, h5⟩ := hm.order
  have htb := hm.tableBlock hs
  have hmod : s % recordsPerTableBlock < recordsPerTableBlock := Nat.mod_lt _ (by decide)
  have hlt : w.fs.layout.recordTableStart + s / recordsPerTableBlock < w.dev.sectorCount / 8 := by
    omega
  have hsealed := hm.recordTable _ htb
  rw [writeRecordSlot, wp_bind, wp_get, wp_bind, wp_require]
  refine ⟨fun _ => ?_, fun hn => absurd htb hn⟩
  rw [wp_bind, wp_look]
  refine ⟨fun block hok => ?_, fun e herr => ⟨Same.refl hm, fun hh => ?_⟩⟩
  · simp only [except_bind_ok] at hok
    obtain ⟨x, hr, -, -, hp⟩ := hok
    cases hp
    cases readBlock_eq hr
    refine wp_writeBlock ?_ fun e n hn =>
      ⟨Same.tick hm n, fun hh => hn ⟨hm.onDevice hlt, hh⟩⟩
    set q := s / recordsPerTableBlock with hq
    have hq0 : 0 ≤ q := Nat.zero_le q
    set x := recomputeChecksum ((w.dev.block (w.fs.layout.recordTableStart + q)).copy
      (bitmapHeaderBytes + s % recordsPerTableBlock * recordBytes) record recordBytes)
      metadataChecksumOffset blockBytes with hx
    have hother : ∀ c, c ≠ w.fs.layout.recordTableStart + q →
        (w.put (w.fs.layout.recordTableStart + q) x).dev.block c = w.dev.block c :=
      fun c hc => block_put_other hc
    have hsame := block_put_same w (w.fs.layout.recordTableStart + q) x
    set w' := w.put (w.fs.layout.recordTableStart + q) x
    have hfs : w'.fs = w.fs := rfl
    refine ⟨rfl, rfl, ⟨hm.1, hm.2, ?_, ?_, ?_, ?_⟩, Vol.ext ?_ (live_congr rfl rfl) ?_ ?_⟩
    · intro j hj
      rw [hfs] at hj ⊢
      rw [hother _ (by omega)]
      exact hm.allocationBitmap j hj
    · intro j hj
      rw [hfs] at hj ⊢
      rw [hother _ (by omega)]
      exact hm.recordBitmap j hj
    · intro j hj
      rw [hfs] at hj ⊢
      by_cases hjq : j = q
      · rw [hjq, hsame]
        exact (hsealed.rewrite fun i hi => Buf.copy_of_not_mem (by omega)).clip
      · rw [hother _ (by omega)]
        exact hm.recordTable j hj
    · intro j hj
      rw [hfs] at hj ⊢
      rw [hother _ (by omega)]
      exact hm.bitmapCopy j hj
    · exact hm.used_congr rfl fun j _ => hother _ (by omega)
    · funext t
      by_cases ht : t < w.fs.layout.recordCount
      · have htmod : t % recordsPerTableBlock < recordsPerTableBlock := Nat.mod_lt _ (by decide)
        simp only [vol, hfs, slotRecord, if_pos ht]
        by_cases hts : t = s
        · subst t
          rw [Function.update_self, ← hq, hsame, hx, slot_copy hmod, if_pos rfl]
        · rw [Function.update_of_ne hts, if_pos ht]
          by_cases hblk : t / recordsPerTableBlock = q
          · rw [hblk, hsame, hx, slot_copy htmod, if_neg (div_mod_ne hblk hts)]
          · rw [hother _ (by omega)]
      · have hts : t ≠ s := fun h => ht (h ▸ hs)
        simp only [vol, hfs, Function.update_of_ne hts, if_neg ht]
    · exact data_congr rfl fun c hc => hother _ (by have := hc.1; omega)
  · have hr := hm.readBlock hlt (hh.1 _)
    have hv := hsealed.validate
    simp only [hr, hv, bind, Except.bind, pure, Except.pure] at herr
    cases herr

/-- The free data block that allocation takes. -/
structure FirstFree (l : Layout) (used : Nat → Bool) (b : Nat) : Prop where
  inData : InData l b
  free : used b = false
  first : ∀ c < b, InData l c → used c = true

lemma vol_used_add {i : Nat} (h : i < w.fs.layout.dataBlocks) :
    (vol w).used (w.fs.layout.dataStart + i) =
      bitAt (w.dev.block (w.fs.layout.allocationBitmapStart + i / bitmapBitsPerBlock))
        (i % bitmapBitsPerBlock) := by
  have hd : InData w.fs.layout (w.fs.layout.dataStart + i) := ⟨by omega, by omega⟩
  simp only [vol, hd, decide_true, Bool.true_and, allocated, Nat.add_sub_cancel_left]

lemma findFreeDataBlock_spec (hm : Mounted w) (i n : Nat) (hn : i + n ≤ w.fs.layout.dataBlocks) :
    (∀ j, findFreeDataBlock w i n = .ok j → i ≤ j ∧ j < i + n ∧
      (vol w).used (w.fs.layout.dataStart + j) = false ∧
      ∀ k, i ≤ k → k < j → (vol w).used (w.fs.layout.dataStart + k) = true) ∧
    (∀ e, findFreeDataBlock w i n = .error e → w.env.Healthy →
      ∀ k, i ≤ k → k < i + n → (vol w).used (w.fs.layout.dataStart + k) = true) := by
  induction n generalizing i with
  | zero =>
    refine ⟨fun j h => ?_, fun e _ _ k hk hk' => by omega⟩
    cases h
  | succ n ih =>
    obtain ⟨h1, h2, h3, h4, h5⟩ := hm.order
    have hin : InData w.fs.layout (w.fs.layout.dataStart + i) := ⟨by omega, by omega⟩
    have hbb := hm.allocationBlock hin
    rw [Nat.add_sub_cancel_left] at hbb
    have hv := (hm.allocationBitmap _ hbb).validate
    have hu := vol_used_add (show i < w.fs.layout.dataBlocks by omega)
    have ih' := ih (i + 1) (by omega)
    rw [findFreeDataBlock]
    cases hr : readBlock w (w.fs.layout.allocationBitmapStart + i / bitmapBitsPerBlock) with
    | error e =>
      refine ⟨fun j h => ?_, fun e' _ hh => ?_⟩
      · cases h
      · rw [hm.readBlock (by omega) (hh.1 _)] at hr
        cases hr
    | ok x =>
      cases readBlock_eq hr
      simp only [bind, Except.bind, hv]
      rw [bitAt] at hu
      by_cases hbit : bitSet (w.dev.block (w.fs.layout.allocationBitmapStart +
          i / bitmapBitsPerBlock) (bitmapHeaderBytes + i % bitmapBitsPerBlock / 8))
          (i % bitmapBitsPerBlock % 8) = true
      · rw [if_pos hbit]
        rw [hbit] at hu
        refine ⟨fun j h => ?_, fun e h hh k hk hk' => ?_⟩
        · obtain ⟨hij, hjn, hfree, hfirst⟩ := ih'.1 j h
          refine ⟨by omega, by omega, hfree, fun k hk hkj => ?_⟩
          rcases Nat.eq_or_lt_of_le hk with rfl | hk'
          · exact hu
          · exact hfirst k hk' hkj
        · rcases Nat.eq_or_lt_of_le hk with rfl | hk''
          · exact hu
          · exact ih'.2 e h hh k hk'' (by omega)
      · rw [if_neg hbit]
        refine ⟨fun j h => ?_, fun e h => ?_⟩
        · cases h
          refine ⟨le_rfl, by omega, ?_, fun k hk hk' => by omega⟩
          rw [hu]
          simpa using hbit
        · cases h

lemma allocateDataBlock_spec (hm : Mounted w) : wp allocateDataBlock
      (fun b w' => FirstFree w.fs.layout (vol w).used b ∧
        Reaches w w' w.fs { vol w with used := update (vol w).used b true })
      (fun _ w' => Same w w' ∧
        (w.env.Healthy → ∀ b, InData w.fs.layout b → (vol w).used b = true)) w := by
  have hfind := findFreeDataBlock_spec hm 0 w.fs.layout.dataBlocks (by omega)
  rw [allocateDataBlock, wp_bind, wp_look]
  refine ⟨fun i hi => ?_, fun e he => ⟨Same.refl hm, fun hh b hb => ?_⟩⟩
  · obtain ⟨-, hlt, hfree, hfirst⟩ := hfind.1 i hi
    have hin : InData w.fs.layout (w.fs.layout.dataStart + i) := ⟨by omega, by omega⟩
    rw [wp_bind, wp_get, wp_bind]
    have hu := updateAllocationBit_spec hm hin true
    rw [Nat.add_sub_cancel_left] at hu
    refine hu.mono (fun _ w' h => ?_) fun _ w' h => ⟨h.1, fun hh => absurd hh h.2⟩
    rw [wp_pure]
    refine ⟨⟨hin, hfree, fun c hc hcd => ?_⟩, h⟩
    have hc1 := hcd.1
    have := hfirst (c - w.fs.layout.dataStart) (by omega) (by omega)
    rwa [Nat.add_sub_cancel' hc1] at this
  · have hb1 := hb.1
    have hb2 := hb.2
    have := hfind.2 e he hh (b - w.fs.layout.dataStart) (by omega) (by omega)
    rwa [Nat.add_sub_cancel' hb1] at this

lemma freeDataBlock_spec (hm : Mounted w) (b : Nat) : wp (freeDataBlock b)
      (fun _ w' => InData w.fs.layout b ∧
        Reaches w w' w.fs { vol w with used := update (vol w).used b false })
      (fun _ w' => Same w w' ∧ ¬ (w.env.Healthy ∧ InData w.fs.layout b)) w := by
  rw [freeDataBlock, wp_bind, wp_get, wp_bind, wp_require]
  refine ⟨fun h => ?_, fun h => ⟨Same.refl hm, fun hh => ?_⟩⟩
  · have hb : InData w.fs.layout b := ⟨h.1, by have := h.2; omega⟩
    exact (updateAllocationBit_spec hm hb false).mono (fun _ _ hq => ⟨hb, hq⟩)
      fun _ _ he => ⟨he.1, fun hh => he.2 hh.1⟩
  · obtain ⟨h1, h2⟩ := hh.2
    exact h ⟨h1, by omega⟩

lemma vol_live (hs : s < w.fs.layout.recordCount) :
    (vol w).live s = recordSlotAllocated w.fs s := by
  simp [vol, hs]

lemma live_lt (h : (vol w).live s = true) : s < w.fs.layout.recordCount := by
  simp only [vol, Bool.and_eq_true, decide_eq_true_eq] at h
  exact h.1

end Mangrove.Mgfs
