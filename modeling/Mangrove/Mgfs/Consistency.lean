import Mangrove.Mgfs.Formatting
import Mangrove.Mgfs.Append

/-! Mounting what the formatter wrote. A consistent volume: the live records own their
blocks, share none, and own every block in use. Each operation keeps it so. -/

namespace Mangrove.Mgfs

/-- What the formatter leaves on a device. -/
structure FreshDevice (dev : Device) (l : Layout) (owner : UInt32) : Prop where
  sectorSize : dev.sectorSize = 512
  layout : calculateLayout (dev.sectorCount / 8) = some l
  super : dev.block 0 = (formatSuperblock (dev.sectorCount / 8) l).clip blockBytes
  allocationBitmap : ∀ i < l.allocationBitmapBlocks, dev.block (l.allocationBitmapStart + i) =
    (formatBitmapBlock metadataAllocationBitmap l.dataBlocks false i).clip blockBytes
  recordBitmap : ∀ i < l.recordBitmapBlocks, dev.block (l.recordBitmapStart + i) =
    (formatBitmapBlock metadataRecordBitmap l.recordCount true i).clip blockBytes
  recordTable : ∀ i < l.recordTableBlocks, dev.block (l.recordTableStart + i) =
    (formatTableBlock (rootOwnerFlags owner) i).clip blockBytes

lemma Formatted.freshDevice {w w' : World} {owner : UInt32} (h : Formatted w w' owner) :
    FreshDevice w'.dev (regions (w'.dev.sectorCount / 8)) owner := by
  have hcount := h.frame.sectorCount
  refine ⟨h.frame.sectorSize.trans h.sectorSize, ?_, ?_, ?_, ?_, ?_⟩ <;> rw [hcount]
  · exact calculateLayout_of_ge h.total (sectorCount_div_le w.dev)
  · exact h.super
  · exact h.allocationBitmap
  · exact h.recordBitmap
  · exact h.recordTable

section

variable {fs : Fs} {root : Option Nat}

lemma scanSlots_skip {block : Buf} {tableIndex i k : Nat} (hfree : ∀ j, i ≤ j → j < i + k →
      recordSlotAllocated fs (tableIndex * recordsPerTableBlock + j) = false) :
    scanSlots block tableIndex i k fs root = .ok (fs, root) := by
  induction k generalizing i with
  | zero => rfl
  | succ k ih =>
    have hskip : ¬ (tableIndex * recordsPerTableBlock + i < fs.layout.recordCount ∧
        recordSlotAllocated fs (tableIndex * recordsPerTableBlock + i) = true) := by
      rw [hfree i le_rfl (by omega)]
      simp
    rw [scanSlots, scanSlot_skip hskip, except_bind_ok]
    exact ⟨_, rfl, ih fun j hj hlt => hfree j (by omega) (by omega)⟩

lemma scanTable_skip {w : World} {i k : Nat}
    (hread : ∀ j, i ≤ j → j < i + k → readBlock w (fs.layout.recordTableStart + j) =
      .ok (w.dev.block (fs.layout.recordTableStart + j))) (hseal : ∀ j, i ≤ j → j < i + k →
      Sealed (w.dev.block (fs.layout.recordTableStart + j)) metadataRecordTable j)
    (hfree : ∀ s, i * recordsPerTableBlock ≤ s → s < (i + k) * recordsPerTableBlock →
      recordSlotAllocated fs s = false) : scanTable w i k fs root = .ok (fs, root) := by
  induction k generalizing i with
  | zero => rfl
  | succ k ih =>
    have hslots : scanSlots (w.dev.block (fs.layout.recordTableStart + i)) i 0 recordsPerTableBlock
        fs root = .ok (fs, root) := by
      refine scanSlots_skip fun j _ hj => hfree _ (by omega) ?_
      simp only [recordsPerTableBlock] at hj ⊢
      omega
    have hrest := ih (i := i + 1) (fun j hj hlt => hread j (by omega) (by omega))
      (fun j hj hlt => hseal j (by omega) (by omega)) fun s hs hlt => hfree s ?_ ?_
    · rw [scanTable, hread i le_rfl (by omega), except_bind_ok]
      refine ⟨_, rfl, ?_⟩
      rw [(hseal i le_rfl (by omega)).validate, except_bind_ok]
      refine ⟨(), rfl, ?_⟩
      rw [hslots, except_bind_ok]
      exact ⟨_, rfl, hrest⟩
    · simp only [recordsPerTableBlock] at hs ⊢
      omega
    · simp only [recordsPerTableBlock] at hlt ⊢
      omega

end

def freshFs (u : World) : Fs :=
  setRecordRef (indexFs u 16) (firstProbe (indexFs u 16) 1) 1 0

lemma firstBit_iff {s : Nat} :
    (s / bitmapBitsPerBlock = 0 ∧ s % bitmapBitsPerBlock = 0) ↔ s = 0 := by
  simp only [bitmapBitsPerBlock]
  omega

lemma mod_lt_blockValidBits {s n : Nat} (h : s < n) :
    s % bitmapBitsPerBlock < blockValidBits n (s / bitmapBitsPerBlock) := by
  unfold blockValidBits
  dsimp only
  split_ifs with h1 h2 <;> simp only [bitmapBitsPerBlock] at * <;> omega

section

variable {u : World} {l : Layout} {owner : UInt32} (h : FreshDevice u.dev l owner)

include h

lemma FreshDevice.superOk : SuperblockOk u.dev (u.dev.block 0) := by
  rw [h.super]
  exact formatSuperblock_ok h.layout rfl

lemma FreshDevice.covers : l.Covers (u.dev.sectorCount / 8) := by
  obtain ⟨hge, rfl⟩ := calculateLayout_some h.layout
  exact regions_covers hge

lemma FreshDevice.bitmapFs_layout : (bitmapFs u).layout = l := by
  have hok := h.superOk
  have h40 := hok.layout
  rw [hok.total.2, h.layout] at h40
  exact (Option.some.inj h40).symm

lemma FreshDevice.slotAllocated {s : Nat} (hs : s < l.recordCount) :
    recordSlotAllocated (bitmapFs u) s = decide (s = 0) := by
  have hblock : s / bitmapBitsPerBlock < l.recordBitmapBlocks := by
    have hbits := h.covers.recordBits
    exact Nat.div_lt_of_lt_mul (by rw [Nat.mul_comm]; omega)
  have hmod : s % bitmapBitsPerBlock < bitmapBitsPerBlock := Nat.mod_lt _ (by decide)
  have hbit : recordSlotAllocated (bitmapFs u) s =
      bitAt (u.dev.block (l.recordBitmapStart + s / bitmapBitsPerBlock))
        (s % bitmapBitsPerBlock) := by
    have hl : superblockLayout (u.dev.block 0) = l := h.bitmapFs_layout
    have ho : bitmapHeaderBytes + s % bitmapBitsPerBlock / 8 < blockBytes := by
      simp only [bitmapHeaderBytes, blockBytes, bitmapBitsPerBlock] at hmod ⊢
      omega
    have hin : 0 * blockBytes ≤ s / bitmapBitsPerBlock * blockBytes +
        (bitmapHeaderBytes + s % bitmapBitsPerBlock / 8) ∧
        s / bitmapBitsPerBlock * blockBytes + (bitmapHeaderBytes + s % bitmapBitsPerBlock / 8) <
          (0 + l.recordBitmapBlocks) * blockBytes := by
      simp only [blockBytes] at ho ⊢
      omega
    have hdiv : (s / bitmapBitsPerBlock * blockBytes +
        (bitmapHeaderBytes + s % bitmapBitsPerBlock / 8)) / blockBytes = s / bitmapBitsPerBlock ∧
        (s / bitmapBitsPerBlock * blockBytes +
        (bitmapHeaderBytes + s % bitmapBitsPerBlock / 8)) % blockBytes =
          bitmapHeaderBytes + s % bitmapBitsPerBlock / 8 := by
      simp only [blockBytes] at ho ⊢
      omega
    simp only [recordSlotAllocated, bitAt, bitmapFs, superblockOf, hl, Nat.add_assoc]
    rw [copiedRegion, if_pos hin, hdiv.1, hdiv.2]
  rw [hbit, h.recordBitmap _ hblock, bitAt_formatBitmapBlock hmod, formatValidBits_eq]
  have hvalid := Nat.not_le.mpr (mod_lt_blockValidBits hs)
  by_cases h0 : s = 0
  · rw [if_pos ⟨rfl, firstBit_iff.mpr h0⟩, decide_eq_true h0]
  · rw [if_neg (fun hz => h0 (firstBit_iff.mp hz.2)), decide_eq_false hvalid, decide_eq_false h0]

lemma FreshDevice.readBlock (hh : u.env.Healthy) {b : Nat} (hb : b < u.dev.sectorCount / 8) :
    readBlock u b = .ok (u.dev.block b) := by
  have hu := u.dev.sectorCount_le
  exact readBlock_ok.mpr ⟨h.sectorSize, by omega, by omega, hh.1 b, rfl⟩

lemma FreshDevice.bitmapBlock (hh : u.env.Healthy) {start kind total blocks i : Nat}
    {reserveFirst : Bool} (hlt : start + i < u.dev.sectorCount / 8) (hk : kind < 2 ^ 64)
    (hi : i < blocks) (hblock : ∀ i < blocks, u.dev.block (start + i) =
      (formatBitmapBlock kind total reserveFirst i).clip blockBytes) :
    BitmapBlockOk u start kind total i := by
  have hu := u.dev.sectorCount_le
  have hmax := u64Max_eq
  refine ⟨h.readBlock hh hlt, ?_, fun bit hbit htail => ?_⟩
  · rw [hblock i hi]
    exact formatBitmapBlock_sealed hk (by omega)
  · rw [hblock i hi, bitAt_formatBitmapBlock hbit, formatValidBits_eq]
    split
    · rfl
    · exact decide_eq_true htail

lemma FreshDevice.allocatedCount : allocatedCount (bitmapFs u) = 1 := by
  have hpos : 0 < l.recordCount := by
    have h1 := h.covers.recordCount
    have h2 := h.covers.recordTableBlocks_pos
    simp only [recordsPerTableBlock] at h1
    omega
  obtain ⟨n, hn⟩ := Nat.exists_eq_succ_of_ne_zero (Nat.pos_iff_ne_zero.mp hpos)
  have hzero : recordSlotAllocated (bitmapFs u) 0 = true := by
    rw [h.slotAllocated hpos]
    rfl
  rw [Mgfs.allocatedCount, h.bitmapFs_layout, hn, List.range_succ_eq_map, List.countP_cons_of_pos hzero,
    List.countP_map]
  refine congrArg (· + 1) (List.countP_eq_zero.mpr fun s hs => ?_)
  have hlt : s + 1 < l.recordCount := by
    have := List.mem_range.mp hs
    omega
  rw [Function.comp_apply, h.slotAllocated hlt]
  simp

lemma FreshDevice.rootRecord {i : Nat} (hi : i < recordBytes) :
    u.dev.block l.recordTableStart (bitmapHeaderBytes + i) =
      formatRootRecord (rootOwnerFlags owner) i := by
  have hblock := h.recordTable 0 h.covers.recordTableBlocks_pos
  rw [Nat.add_zero] at hblock
  rw [hblock]
  exact formatTableBlock_root hi

lemma FreshDevice.rootRecord_field {o : Nat} (ho : o + 8 ≤ recordBytes) :
    getLe64 ((u.dev.block l.recordTableStart).skip bitmapHeaderBytes) o =
      getLe64 (formatRootRecord (rootOwnerFlags owner)) o :=
  getLe64_congr fun i hi => h.rootRecord (by omega)

lemma FreshDevice.slotAllocated_index {s : Nat} (hs : s < l.recordCount) :
    recordSlotAllocated (indexFs u 16) s = decide (s = 0) :=
  h.slotAllocated hs

lemma FreshDevice.scanRoot :
    scanSlots (u.dev.block l.recordTableStart) 0 0 recordsPerTableBlock (indexFs u 16) none =
      .ok (freshFs u, some 0) := by
  have hcount : recordsPerTableBlock ≤ l.recordCount := by
    have h1 := h.covers.recordCount
    have h2 := h.covers.recordTableBlocks_pos
    simp only [recordsPerTableBlock] at h1 ⊢
    omega
  have hlayout : (indexFs u 16).layout = l := h.bitmapFs_layout
  obtain ⟨htype, -, hid, -⟩ := formatRootRecord_fields owner
  have hslot : scanSlot (indexFs u 16) (u.dev.block l.recordTableStart) 0 0 none =
      .ok (freshFs u, some 0) := by
    have hlive : 0 * recordsPerTableBlock + 0 < (indexFs u 16).layout.recordCount ∧
        recordSlotAllocated (indexFs u 16) (0 * recordsPerTableBlock + 0) = true := by
      rw [hlayout, Nat.zero_mul, h.slotAllocated_index (by simp only [recordsPerTableBlock] at hcount; omega)]
      simp only [recordsPerTableBlock] at hcount
      exact ⟨by omega, rfl⟩
    rw [scanSlot_enter hlive, Nat.zero_mul, Nat.add_zero, Nat.zero_mul]
    have h16 := h.rootRecord_field (o := 16) (by decide)
    have h0 := h.rootRecord_field (o := 0) (by decide)
    rw [hid] at h16
    rw [htype] at h0
    have hroot : (indexFs u 16).rootRecordId = 1 := h.superOk.root.1
    rw [h16, h0, hroot]
    refine ⟨?_, firstProbe (indexFs u 16) 1, rfl, rfl, ?_⟩
    · exact (recordOk_congr (b := formatRootRecord (rootOwnerFlags owner))
        fun i hi => h.rootRecord hi).mpr (formatRootRecord_ok owner _)
    · rw [if_pos rfl]
      exact ⟨⟨rfl, rfl⟩, rfl⟩
  rw [recordsPerTableBlock, scanSlots, hslot, except_bind_ok]
  refine ⟨_, rfl, scanSlots_skip fun j hj hlt => ?_⟩
  have hfree := h.slotAllocated_index (s := 0 * recordsPerTableBlock + j)
    (by simp only [recordsPerTableBlock] at hcount ⊢; omega)
  rw [decide_eq_false (by omega)] at hfree
  exact hfree

lemma FreshDevice.scanRecords (hh : u.env.Healthy) :
    scanRecords u (bitmapFs u) = .ok (freshFs u) := by
  have hlayout : (indexFs u 16).layout = l := h.bitmapFs_layout
  have hcovers := h.covers
  have o3 := hcovers.dataStart
  have o4 := hcovers.dataEnd
  have hu := u.dev.sectorCount_le
  have hmax := u64Max_eq
  have hread : ∀ j < l.recordTableBlocks, Mgfs.readBlock u (l.recordTableStart + j) =
      .ok (u.dev.block (l.recordTableStart + j)) := fun j hj => h.readBlock hh (by omega)
  have hseal : ∀ j < l.recordTableBlocks,
      Sealed (u.dev.block (l.recordTableStart + j)) metadataRecordTable j := by
    intro j hj
    rw [h.recordTable j hj]
    exact formatTableBlock_sealed (by omega)
  obtain ⟨n, hn⟩ := Nat.exists_eq_succ_of_ne_zero
    (Nat.pos_iff_ne_zero.mp hcovers.recordTableBlocks_pos)
  have hscan : scanTable u 0 (n + 1) (indexFs u 16) none = .ok (freshFs u, some 0) := by
    rw [scanTable, hlayout, hread 0 (by omega), except_bind_ok]
    refine ⟨_, rfl, ?_⟩
    rw [(hseal 0 (by omega)).validate, except_bind_ok]
    refine ⟨(), rfl, ?_⟩
    rw [Nat.add_zero, h.scanRoot, except_bind_ok]
    refine ⟨_, rfl, ?_⟩
    have hfresh : (freshFs u).layout = l := hlayout
    refine scanTable_skip ?_ ?_ ?_
    · intro j hj hlt
      rw [hfresh]
      exact hread j (by omega)
    · intro j hj hlt
      rw [hfresh]
      exact hseal j (by omega)
    · intro s hs hlt
      have hcount := hcovers.recordCount
      have hfree := h.slotAllocated_index (s := s) (by
        simp only [recordsPerTableBlock] at hcount hs hlt
        omega)
      rw [decide_eq_false (by simp only [recordsPerTableBlock] at hs; omega)] at hfree
      exact hfree
  have hgrow : growCapacity 64 (if 1 > u64Max / 2 then u64Max else 1 * 2) 16 = some 16 := by decide
  rw [Mgfs.scanRecords, h.allocatedCount, hgrow]
  simp only [ensure_bind_ok]
  refine ⟨by decide, ?_⟩
  rw [except_bind_ok]
  refine ⟨(), if_pos (hh.2.2 _), ?_⟩
  rw [except_bind_ok]
  refine ⟨(freshFs u, some 0), ?_, ?_⟩
  · have hindex : { bitmapFs u with
        recordIds := fun _ => ⟨0, 0⟩
        recordIdCapacity := 16
        allocatedRecordCount := 1 } = indexFs u 16 := by
      rw [indexFs, h.allocatedCount]
    rw [hindex, h.bitmapFs_layout, hn]
    exact hscan
  · rw [ensure_bind_ok, ensure_bind_ok]
    exact ⟨by simp, rfl, rfl⟩

lemma FreshDevice.bitmaps (hh : u.env.Healthy) : (∀ i < l.allocationBitmapBlocks,
      BitmapBlockOk u l.allocationBitmapStart metadataAllocationBitmap l.dataBlocks i) ∧
    ∀ i < l.recordBitmapBlocks,
      BitmapBlockOk u l.recordBitmapStart metadataRecordBitmap l.recordCount i := by
  have hcovers := h.covers
  have o1 := hcovers.recordBitmapStart
  have o2 := hcovers.recordTableStart
  have o3 := hcovers.dataStart
  have o4 := hcovers.dataEnd
  exact ⟨fun i hi => h.bitmapBlock hh (by omega) (by decide) hi h.allocationBitmap,
    fun i hi => h.bitmapBlock hh (by omega) (by decide) hi h.recordBitmap⟩

lemma FreshDevice.mountedFrom (hh : u.env.Healthy) :
    ∃ capacity, MountedFrom u (freshFs u) capacity := by
  obtain ⟨capacity, hcap, hscanned, htable⟩ := scanRecords_ok (h.scanRecords hh)
  have hl := h.bitmapFs_layout
  refine ⟨capacity, h.sectorSize, h.superOk, ?_, ?_, hcap, hscanned, htable⟩ <;> rw [hl]
  · exact (h.bitmaps hh).1
  · exact (h.bitmaps hh).2

lemma FreshDevice.mountFs (hh : u.env.Healthy) : ∃ root, mountFs u = .ok (freshFs u, root) := by
  obtain ⟨capacity, hfrom⟩ := h.mountedFrom hh
  have hheap : ∀ n, kmalloc u n none = .ok () := fun n => if_pos (hh.2.2 n)
  have hl : superblockLayout (u.dev.block 0) = l := h.bitmapFs_layout
  have hroot : (freshFs u).rootRecordId = 1 := h.superOk.root.1
  have hzero : 0 < u.dev.sectorCount / 8 := by
    have o1 := h.covers.dataEnd
    have o2 := h.covers.dataBlocks_pos
    omega
  have hsmall : l.recordBitmapBlocks ≤ u64Max / blockBytes := by
    obtain ⟨hge, hreg⟩ := calculateLayout_some h.layout
    have hb := atLeastOne_bounds (u.dev.sectorCount / 8 / 320)
    have hu := u.dev.sectorCount_le
    rw [hreg]
    simp only [regions, u64Max, blockBytes] at hu ⊢
    omega
  refine ⟨(vol { u with fs := freshFs u }).record 0, ?_⟩
  rw [Mgfs.mountFs, ensure_bind_ok]
  refine ⟨h.sectorSize, ?_⟩
  rw [hheap, except_bind_ok]
  refine ⟨(), rfl, ?_⟩
  rw [h.readBlock hh hzero, except_bind_ok]
  refine ⟨superblockOf (u.dev.block 0), ?_, ?_⟩
  · rw [orElse_ok, except_bind_ok]
    exact ⟨_, rfl, validateSuperblock_ok.mpr ⟨h.superOk, rfl⟩⟩
  dsimp only [superblockOf]
  rw [hl, ensure_bind_ok]
  refine ⟨hsmall, ?_⟩
  rw [hheap, except_bind_ok]
  refine ⟨(), rfl, ?_⟩
  rw [except_bind_ok]
  refine ⟨freshFs u, ?_, ?_⟩
  · rw [orElse_ok, except_bind_ok]
    refine ⟨_, validateBitmapRegion_ok.mpr ⟨fun i _ hi => (h.bitmaps hh).1 i (by omega), rfl⟩, ?_⟩
    rw [except_bind_ok]
    refine ⟨_, validateBitmapRegion_ok.mpr ⟨fun i _ hi => (h.bitmaps hh).2 i (by omega), rfl⟩, ?_⟩
    have hscan := h.scanRecords hh
    rw [bitmapFs] at hscan
    dsimp only [superblockOf] at hscan
    rw [hl] at hscan
    exact hscan
  · rw [hheap, hheap, except_bind_ok]
    refine ⟨(), rfl, ?_⟩
    rw [except_bind_ok]
    refine ⟨_, orElse_ok.mpr ?_, rfl⟩
    rw [hroot]
    exact hfrom.root.1.readRecord hfrom.mounted (hh.1 _)

lemma FreshDevice.freshFs_layout : (freshFs u).layout = l := h.bitmapFs_layout

lemma FreshDevice.used (b : Nat) : (vol { u with fs := freshFs u }).used b = false := by
  simp only [vol, allocated, h.freshFs_layout]
  by_cases hb : InData l b
  · obtain ⟨hlo, hhi⟩ := hb
    have hlt : b - l.dataStart < l.dataBlocks := by omega
    have hblock : (b - l.dataStart) / bitmapBitsPerBlock < l.allocationBitmapBlocks := by
      have hbits := h.covers.dataBits
      exact Nat.div_lt_of_lt_mul (by rw [Nat.mul_comm]; omega)
    rw [h.allocationBitmap _ hblock, bitAt_formatBitmapBlock (Nat.mod_lt _ (by decide)),
      formatValidBits_eq, if_neg (by simp),
      decide_eq_false (Nat.not_le.mpr (mod_lt_blockValidBits hlt)), Bool.and_false]
  · rw [decide_eq_false hb, Bool.false_and]

lemma FreshDevice.live (s : Nat) : (vol { u with fs := freshFs u }).live s = true ↔ s = 0 := by
  have hslot : ∀ s, recordSlotAllocated (freshFs u) s = recordSlotAllocated (bitmapFs u) s :=
    fun _ => rfl
  have hpos : 0 < l.recordCount := by
    have h1 := h.covers.recordCount
    have h2 := h.covers.recordTableBlocks_pos
    simp only [recordsPerTableBlock] at h1
    omega
  simp only [vol, h.freshFs_layout, hslot, Bool.and_eq_true, decide_eq_true_eq]
  constructor
  · rintro ⟨hlt, hlive⟩
    rw [h.slotAllocated hlt] at hlive
    exact of_decide_eq_true hlive
  · rintro rfl
    exact ⟨hpos, by rw [h.slotAllocated hpos]; rfl⟩

end

/-- A volume just mounted after it was formatted. -/
structure Fresh (w : World) : Prop where
  mounted : Mounted w
  used : ∀ b, (vol w).used b = false
  live : ∀ s, (vol w).live s = true ↔ s = 0
  root : Names w 1 0 ((vol w).record 0)
  rootType : getLe64 ((vol w).record 0) 0 = recordDirectory
  rootGeneration : getLe64 ((vol w).record 0) 24 = 1
  rootEmpty : ∀ o, 32 ≤ o → o + 8 ≤ 184 → getLe64 ((vol w).record 0) o = 0
  rootId : w.fs.rootRecordId = 1
  next : w.fs.nextRecordId = 2
  minor : w.fs.formatMinor = formatMinorCurrent
  capacity : w.fs.recordIdCapacity = 16
  index : w.fs.recordIds = fun i => if i = firstProbe w.fs 1 then ⟨1, 0⟩ else ⟨0, 0⟩
  cache : ∀ i, (w.fs.dentryCache i).valid = false
  clean : stateFlags w = stateClean

def World.facing (w : World) (e : Env) : World :=
  { w with
    env := e
    writes := 0 }

lemma FreshDevice.fresh {u : World} {l : Layout} {owner : UInt32}
    (h : FreshDevice u.dev l owner) (hh : u.env.Healthy) : Fresh { u with fs := freshFs u } := by
  obtain ⟨capacity, hfrom⟩ := h.mountedFrom hh
  obtain ⟨htype, -, -, hgen, hempty⟩ := formatRootRecord_fields owner
  have hpos := live_lt hfrom.root_live
  have hrecord : ∀ o, o + 8 ≤ recordBytes →
      getLe64 ((vol { u with fs := freshFs u }).record 0) o =
        getLe64 (formatRootRecord (rootOwnerFlags owner)) o := by
    intro o ho
    rw [vol_record hpos, slotRecord, getLe64_clip ho, ← h.rootRecord_field ho]
    rw [h.freshFs_layout, Nat.zero_div, Nat.zero_mod, Nat.zero_mul, Nat.add_zero, Nat.add_zero]
  exact {
    mounted := hfrom.mounted
    used := h.used
    live := h.live
    root := hfrom.root.1
    rootType := hfrom.root.2
    rootGeneration := by rw [hrecord 24 (by decide), hgen]
    rootEmpty := fun o ho hlt => by
      rw [hrecord o (by simp only [recordBytes]; omega)]
      exact hempty o ho hlt
    rootId := h.superOk.root.1
    next := by
      show getLe64 (u.dev.block 0) 96 = 2
      rw [h.super, getLe64_clip (by decide), formatSuperblock_eq, getLe64_storeFormatCrc (by decide)]
      simp only [plainSuperblock]
      simp (disch := omega) only [getLe64_store_of_ne, getLe64_store (v := 2) (by decide)]
    minor := by
      show getLe64 (u.dev.block 0) 16 = formatMinorCurrent
      rw [h.super, getLe64_clip (by decide), formatSuperblock_eq, getLe64_storeFormatCrc (by decide)]
      simp only [plainSuperblock]
      simp (disch := omega) only [getLe64_store_of_ne,
        getLe64_store (v := formatMinorCurrent) (by decide)]
    capacity := rfl
    index := rfl
    cache := fun _ => rfl
    clean := by
      show getLe64 (u.dev.block 0) 64 = stateClean
      rw [h.super, getLe64_clip (by decide), formatSuperblock_eq, getLe64_storeFormatCrc (by decide)]
      simp only [plainSuperblock]
      simp (disch := omega) only [getLe64_store_of_ne, getLe64_store (v := stateClean) (by decide)] }

lemma fresh_of_format {w w1 : World} {e : Env} (hh : e.Healthy)
    (hformat : formatMgfs w = (.ok (), w1)) :
    ∃ node w2, mount (w1.facing e) = (.ok node, w2) ∧ Fresh w2 ∧ node.inode = 1 ∧ w2.env = e ∧
      w2.dev = w1.dev ∧ w2.fs.layout = regions (w.dev.sectorCount / 8) := by
  obtain ⟨owner, -, hf⟩ := (formatMgfs_spec w).ok hformat
  have hdev : FreshDevice (w1.facing e).dev (regions (w1.dev.sectorCount / 8)) owner :=
    hf.freshDevice
  obtain ⟨root, hmount⟩ := hdev.mountFs hh
  have hlayout := hdev.freshFs_layout
  rw [hf.frame.sectorCount] at hlayout
  refine ⟨rootNode (freshFs (w1.facing e)) root, { w1.facing e with fs := freshFs (w1.facing e) },
    ?_, hdev.fresh hh, hdev.superOk.root.1, rfl, rfl, hlayout⟩
  rw [mount, Prog.bind_ok]
  exact ⟨_, _, Prod.ext hmount rfl, rfl⟩

lemma Fresh.scanRoot {w : World} (h : Fresh w) (hh : w.env.Healthy) (wanted : Wanted) :
    scanDirectory w 1 wanted = .ok none := by
  have hread : readDirectoryRecord w 1 (some "MGFS directory Record is invalid") =
      .ok ((vol w).record 0) :=
    readDirectoryRecord_ok.mpr ⟨h.root.readRecord h.mounted (hh.1 _), h.rootType⟩
  have hsize := h.rootEmpty 32 (by omega) (by omega)
  rw [scanDirectory, hread, except_bind_ok]
  refine ⟨_, rfl, ?_⟩
  rw [hsize, scanEntries, hsize, if_pos le_rfl, except_bind_ok]
  exact ⟨_, rfl, rfl⟩

/-- Every copy of the layout arithmetic gives these regions, and the boot loader goes on with
them exactly if they are what the superblock says. -/
structure LayoutIs (totalBlocks : Nat) (l : Layout) : Prop where
  runtime : calculateMgfsLayout totalBlocks = some l
  mkmgfs : mkmgfsCalculateLayout totalBlocks = some l
  kernel : calculateLayout totalBlocks = some l
  boot : ∀ superblock, bootValidateLayout totalBlocks superblock =
    if superblockLayout superblock = l then some l else none

lemma layoutIs_regions {total : Nat} (h : 64 ≤ total) (hle : total ≤ u64Max / 8) :
    LayoutIs total (regions total) :=
  ⟨calculateMgfsLayout_eq h hle, mkmgfsCalculateLayout_eq h hle, calculateLayout_of_ge h hle,
    bootValidateLayout_eq h hle⟩

/-- For every size of a device with 64 blocks or more, the copies of the layout arithmetic agree
on regions that lie end to end over its whole blocks. Whatever device the formatter accepts, the
driver mounts: an empty root directory in slot 0, no data block in use, and those regions. -/
theorem formatMgfs_mounts :
    (∀ sectors ≤ u64Max, 64 ≤ sectors / 8 →
      ∃ l, l.Covers (sectors / 8) ∧ LayoutIs (sectors / 8) l) ∧
    ∀ (w w1 : World) (e : Env), e.Healthy → formatMgfs w = (.ok (), w1) →
      ∃ node w2, mount (w1.facing e) = (.ok node, w2) ∧
        (∀ wanted, scanDirectory w2 node.inode wanted = .ok none) ∧
        (∀ b, InData w2.fs.layout b → allocated w2 b = false) ∧
        (∀ s < w2.fs.layout.recordCount, recordSlotAllocated w2.fs s = true ↔ s = 0) ∧
        w2.fs.layout.Covers (w.dev.sectorCount / 8) ∧
        (∀ s, 8 * (w.dev.sectorCount / 8) ≤ s → w1.dev.media s = w.dev.media s) ∧
        LayoutIs (w.dev.sectorCount / 8) w2.fs.layout ∧
        superblockLayout (w1.dev.block 0) = w2.fs.layout := by
  refine ⟨fun sectors hsectors hge => ⟨regions (sectors / 8), regions_covers hge,
    layoutIs_regions hge (Nat.div_le_div_right hsectors)⟩, fun w w1 e hh hformat => ?_⟩
  obtain ⟨owner, -, hf⟩ := (formatMgfs_spec w).ok hformat
  obtain ⟨node, w2, hmount, hfresh, hnode, henv, hdev, hl⟩ := fresh_of_format hh hformat
  have hle := sectorCount_div_le w.dev
  refine ⟨node, w2, hmount, ?_, ?_, ?_, ?_, hf.frame.tail, ?_, ?_⟩
  · intro wanted
    rw [hnode]
    exact hfresh.scanRoot (by rw [henv]; exact hh) wanted
  · intro b hb
    have hused := hfresh.used b
    simpa only [vol, decide_eq_true hb, Bool.true_and] using hused
  · intro s hs
    rw [← vol_live hs]
    exact hfresh.live s
  · rw [hl]
    exact regions_covers hf.total
  · rw [hl]
    exact layoutIs_regions hf.total hle
  · rw [hl, hf.super]
    have hok := formatSuperblock_ok (calculateLayout_of_ge hf.total hle) rfl
    have hlayout := hok.layout
    rw [hok.total.2, calculateLayout_of_ge hf.total hle] at hlayout
    exact (Option.some.inj hlayout).symm

lemma formatMgfs_succeeds {w : World} (h : Formattable w) :
    ∃ w1, formatMgfs w = (.ok (), w1) := by
  have hspec := formatMgfs_spec w
  rcases hw : formatMgfs w with ⟨_ | _, w1⟩
  · exact absurd h (hspec.error hw)
  · exact ⟨w1, rfl⟩

def healthyEnv : Env where
  readable _ := true
  writeOk _ := true
  heap _ := true
  stack := Buf.zero
  spill := none
  currentUid := some 0

lemma healthyEnv_healthy : healthyEnv.Healthy := ⟨fun _ => rfl, fun _ => rfl, fun _ => rfl⟩

def blankWorld : World where
  dev := { sectorSize := 512, sectorCount := 519, media := fun _ => Buf.zero
           sectorCount_le := by decide }
  env := healthyEnv
  writes := 0
  fs := emptyFs

/-- A device of 519 sectors full of zeros: 64 blocks, and seven sectors behind them. -/
theorem formatMgfs_mounts_blank : ∃ w1, formatMgfs blankWorld = (.ok (), w1) ∧
    ∃ node w2, mount (w1.facing healthyEnv) = (.ok node, w2) ∧
      ∀ wanted, scanDirectory w2 node.inode wanted = .ok none := by
  obtain ⟨w1, hformat⟩ := formatMgfs_succeeds (w := blankWorld)
    ⟨rfl, by decide, healthyEnv_healthy, nofun⟩
  obtain ⟨node, w2, hmount, hempty, -⟩ :=
    formatMgfs_mounts.2 blankWorld w1 healthyEnv healthyEnv_healthy hformat
  exact ⟨w1, hformat, node, w2, hmount, hempty⟩

end Mangrove.Mgfs
