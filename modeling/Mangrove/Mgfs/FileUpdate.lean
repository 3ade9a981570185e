import Mangrove.Mgfs.Ownership

/-! The loops of `mgfs_write`, the records and list blocks the driver builds, and what the
stages of a file's rewrite leave behind. -/

namespace Mangrove.Mgfs

open Function (update)

variable {w w' w'' : World} {fs : Fs} {v : Vol} {fs' : Fs}

lemma Reaches.trans {v' : Vol} (h : Reaches w w' fs v)
    (h' : Reaches w' w'' fs' v') : Reaches w w'' fs' v' :=
  ⟨h'.env.trans h.env, h'.fs, h'.mounted, h'.vol⟩

lemma Reaches.same (h : Reaches w w' fs v) (h' : Same w' w'') : Reaches w w'' fs v :=
  ⟨h'.env.trans h.env, h'.fs.trans h.fs, h'.mounted, h'.vol.trans h.vol⟩

lemma Reaches.setFs (h : Reaches w w' fs v)
    (hl : fs'.layout = fs.layout) (hb : fs'.recordBitmap = fs.recordBitmap) :
    Reaches w { w' with fs := fs' } fs' v := by
  obtain ⟨henv, rfl, hm, rfl⟩ := h
  have hv : Mgfs.vol { w' with fs := fs' } = Mgfs.vol w' := by
    simp only [Mgfs.vol, allocated, slotRecord, recordSlotAllocated, hl, hb]
  refine ⟨henv, rfl, ?_, hv⟩
  constructor <;> simp only [hl, hb]
  · exact hm.sectorSize
  · exact hm.covers
  · exact hm.allocationBitmap
  · exact hm.recordBitmap
  · exact hm.recordTable
  · exact hm.bitmapCopy

/-- The blocks that allocating one after the other takes. -/
inductive FirstFits (l : Layout) : (Nat → Bool) → List Nat → Prop where
  | nil {used : Nat → Bool} : FirstFits l used []
  | cons {used : Nat → Bool} {b : Nat} {rest : List Nat} (h : FirstFree l used b)
      (hr : FirstFits l (update used b true) rest) : FirstFits l used (b :: rest)

/-- The bitmap with the blocks of the list set. -/
def marked (used : Nat → Bool) (bs : List Nat) : Nat → Bool := fun b => used b || decide (b ∈ bs)

variable (used : Nat → Bool)

lemma marked_nil : marked used [] = used := by
  funext b
  simp [marked]

lemma marked_update (b : Nat) (bs : List Nat) :
    marked (update used b true) bs = marked used (b :: bs) := by
  funext c
  by_cases h : c = b
  · subst c
    simp [marked]
  · simp [marked, h]

lemma marked_append (bs cs : List Nat) : marked (marked used bs) cs = marked used (bs ++ cs) := by
  funext c
  simp [marked, Bool.or_assoc]

lemma marked_singleton (b : Nat) : update used b true = marked used [b] := by
  rw [← marked_update, marked_nil]

variable {used : Nat → Bool} {bs : List Nat} {b : Nat}

lemma marked_of_mem (h : b ∈ bs) : marked used bs b = true := by
  simp [marked, h]

lemma marked_of_used (h : used b = true) : marked used bs b = true := by
  simp [marked, h]

variable {l : Layout}

lemma FirstFits.free (h : FirstFits l used bs) : ∀ b ∈ bs, InData l b ∧ used b = false := by
  induction h with
  | nil => simp
  | @cons used b rest hb _ ih =>
    intro c hc
    rcases List.mem_cons.mp hc with rfl | hc
    · exact ⟨hb.inData, hb.free⟩
    · have hcd := ih c hc
      refine ⟨hcd.1, ?_⟩
      have hne : c ≠ b := fun e => by
        rw [e] at hcd
        simp at hcd
      rw [← hcd.2, Function.update_of_ne hne]

lemma Mounted.inData_bound (hm : Mounted w) (hb : InData w.fs.layout b) : b + 1 < 2 ^ 64 := by
  have h1 := hm.inData_lt hb
  have h2 := w.dev.sectorCount_le
  simp only [u64Max] at h2
  omega

variable {es : List Extent}

/-- The first `j` blocks of a stream changed by `f`, each with its number in the stream. -/
def patched (block : Nat → Buf) (bs : List Nat) (f : Nat → Buf → Buf) (j : Nat) : Nat → Buf :=
  fun b => if b ∈ bs.take j then f (bs.idxOf b) (block b) else block b

variable {block : Nat → Buf} {f : Nat → Buf → Buf} {j : Nat}

lemma patched_of_not_mem (h : b ∉ bs) : patched block bs f j b = block b := by
  rw [patched, if_neg fun hm => h (List.mem_of_mem_take hm)]

lemma patched_getElem {i : Nat} (hn : bs.Nodup) (hi : i < bs.length) :
    patched block bs f j bs[i] = if i < j then f i (block bs[i]) else block bs[i] := by
  rw [patched, hn.idxOf_getElem i hi]
  by_cases hij : i < j
  · have hm : bs[i] ∈ bs.take j := by
      rw [List.mem_take_iff_getElem]
      exact ⟨i, by omega, rfl⟩
    rw [if_pos hm, if_pos hij]
  · have hm : bs[i] ∉ bs.take j := by
      rw [List.mem_take_iff_getElem]
      rintro ⟨k, hk, he⟩
      have := (hn.getElem_inj_iff).mp he
      omega
    rw [if_neg hm, if_neg hij]

lemma vol_block (h : InData w.fs.layout b) : (vol w).block b = w.dev.block b := by
  simp only [vol, if_pos h]

/-- The bitmap with the blocks of the list cleared. -/
def released (used : Nat → Bool) (bs : List Nat) : Nat → Bool :=
  fun b => used b && !decide (b ∈ bs)

lemma released_nil (used : Nat → Bool) : released used [] = used := by
  funext b
  simp [released]

variable {w1 : World}

def obsolete (newExtents : List Extent) (bs : List Nat) : List Nat :=
  bs.filter fun b => !extentContainsBlock newExtents b

variable {newExtents : List Extent}

lemma mem_obsolete : b ∈ obsolete newExtents bs ↔ b ∈ bs ∧ b ∉ extentBlocks newExtents := by
  rw [obsolete, List.mem_filter, Bool.not_eq_true', ← Bool.not_eq_true, extentContainsBlock_iff]

variable {done : List Nat} {e : Extent}

def obsoleteBlocks (old new : FileMap) : List Nat :=
  obsolete new.extents (extentBlocks old.extents) ++
    old.lists.filter fun b => decide (b ≠ new.lists.headD 0)

/-- The extents have the flag, and their fields fit in 64 bits. -/
def Fits (flag : Nat) (es : List Extent) : Prop :=
  ∀ e ∈ es, e.flags = flag ∧ e.logicalStart < 2 ^ 64 ∧ e.physicalStart < 2 ^ 64 ∧
    e.blockCount < 2 ^ 64

variable {flag : Nat} {es : List Extent}

lemma fits_of_laid {start : Nat} (hl : Laid flag start es)
    (hb : Bounded es) (hn : start + covered es < 2 ^ 64) : Fits flag es := by
  induction es generalizing start with
  | nil => simp [Fits]
  | cons e es ih =>
    obtain ⟨h1, h2, h3, h4⟩ := hl
    rw [covered_cons] at hn
    rw [add64_of_lt (by omega)] at h4
    have hbe := hb e (by simp)
    intro x hx
    rcases List.mem_cons.mp hx with rfl | hx
    · exact ⟨h3, by omega, by omega, by omega⟩
    · exact ih h4 (fun y hy => hb y (List.mem_cons_of_mem _ hy)) (by omega) x hx

lemma Fits.take (h : Fits flag es) (k : Nat) : Fits flag (es.take k) :=
  fun e he => h e (List.mem_of_mem_take he)

lemma Fits.drop (h : Fits flag es) (k : Nat) : Fits flag (es.drop k) :=
  fun e he => h e (List.mem_of_mem_drop he)

variable {b : Buf} {o i : Nat}

lemma storeExtent_of_not_mem {lg ph n f : Nat} (h : i < o ∨ o + 32 ≤ i) :
    storeExtent b o lg ph n f i = b i := by
  simp (disch := omega) only [storeExtent, storeLe64_of_not_mem]

lemma storeExtents_of_not_mem
    (h : i < o ∨ o + 32 * es.length ≤ i) : storeExtents flag b o es i = b i := by
  induction es generalizing b o with
  | nil => rfl
  | cons e es ih =>
    rw [List.length_cons] at h
    rw [storeExtents, ih (by omega), storeExtent_of_not_mem (by omega)]

lemma getLe64_storeExtents {p : Nat} (h : p + 8 ≤ o ∨ o + 32 * es.length ≤ p) :
    getLe64 (storeExtents flag b o es) p = getLe64 b p :=
  getLe64_congr fun i hi => storeExtents_of_not_mem (by omega)

lemma extentAt_storeExtent
    (h : e.flags = flag ∧ e.logicalStart < 2 ^ 64 ∧ e.physicalStart < 2 ^ 64 ∧
      e.blockCount < 2 ^ 64) (hf : flag < 2 ^ 64) :
    extentAt (storeExtent b o e.logicalStart e.physicalStart e.blockCount flag) o = e := by
  rw [extentAt, storeExtent]
  simp (disch := omega) only [getLe64_store, getLe64_store_of_ne]
  cases e
  simp_all

lemma extentList_storeExtents (h : Fits flag es) (hf : flag < 2 ^ 64) :
    extentList (storeExtents flag b (64 + i * 32) es) i es.length = es := by
  induction es generalizing b i with
  | nil => rfl
  | cons e es ih =>
    have he := h e (by simp)
    have hrest : Fits flag es := fun x hx => h x (List.mem_cons_of_mem _ hx)
    rw [storeExtents, List.length_cons, extentList_succ, show 64 + i * 32 + 32 = 64 + (i + 1) * 32 by
      omega, ih hrest]
    congr 1
    refine Eq.trans (extentAt_congr fun k hk => ?_)
      (extentAt_storeExtent (b := b) (o := 64 + i * 32) he hf)
    exact storeExtents_of_not_mem (Or.inl (by omega))

lemma extentList_recompute {n m : Nat} (h : o + 8 ≤ 64 + i * 32 ∨ 64 + (i + m) * 32 ≤ o) :
    extentList (recomputeChecksum b o n) i m = extentList b i m :=
  extentList_congr fun k h1 h2 => recomputeChecksum_of_not_mem (by omega)

lemma extentList_store {v m : Nat} (h : o + 8 ≤ 64 + i * 32 ∨ 64 + (i + m) * 32 ≤ o) :
    extentList (storeLe64 b o v) i m = extentList b i m := by
  apply extentList_congr
  intro k h1 h2
  exact storeLe64_of_not_mem (by omega)

lemma length_take_two (es : List Extent) :
    (es.take 2).length = if es.length < 2 then es.length else 2 := by
  rw [List.length_take]
  split <;> omega

/-- A list block that holds these extents and ends the chain. -/
structure ListBlockOf (block : Buf) (owner : Nat) (es : List Extent) : Prop where
  ok : ListBlockOk block owner
  next : getLe64 block 16 = 0
  reserved : ∀ i < (24 : Nat), block (40 + i) = 0
  extents : extentList block 0 (getLe64 block 24) = es

lemma extentListBlock_spec {recordId : Nat} (hid : recordId < 2 ^ 64)
    (hf : Fits flag es) (hflag : flag < 2 ^ 64) (h2 : 2 < es.length)
    (hle : es.length - 2 ≤ extentsPerListBlock) :
    ListBlockOf ((extentListBlock recordId es flag).clip blockBytes) recordId (es.drop 2) := by
  simp only [extentsPerListBlock] at hle
  have hlen : (es.drop 2).length = es.length - 2 := List.length_drop
  have hcount : getLe64 ((extentListBlock recordId es flag).clip blockBytes) 24 =
      es.length - 2 := by
    rw [getLe64_clip (by decide), extentListBlock]
    simp (disch := omega) only [getLe64_recomputeChecksum, getLe64_storeExtents, getLe64_store]
  refine ⟨⟨?_, ?_, by omega, by simp only [extentsPerListBlock]; omega, ?_⟩, ?_, ?_, ?_⟩
  · rw [getLe64_clip (by decide), extentListBlock]
    simp (disch := omega) only [getLe64_recomputeChecksum, getLe64_storeExtents,
      getLe64_store_of_ne]
    exact getLe64_store (by decide)
  · rw [getLe64_clip (by decide), extentListBlock]
    simp (disch := omega) only [getLe64_recomputeChecksum, getLe64_storeExtents,
      getLe64_store_of_ne, getLe64_store]
  · rw [checksumBlock_congr (fun i hi => Buf.clip_of_lt hi) (by decide), extentListBlock]
    exact checksumBlock_recompute _ _ _
  · rw [getLe64_clip (by decide), extentListBlock]
    simp (disch := omega) only [getLe64_recomputeChecksum, getLe64_storeExtents,
      getLe64_store_of_ne, getLe64_zero]
  · intro i hi
    rw [Buf.clip_of_lt (by simp only [blockBytes]; omega), extentListBlock]
    simp (disch := omega) only [recomputeChecksum_of_not_mem, storeExtents_of_not_mem,
      storeLe64_of_not_mem]
    rfl
  · have hclip : extentList ((extentListBlock recordId es flag).clip blockBytes) 0 (es.length - 2) =
        extentList (extentListBlock recordId es flag) 0 (es.length - 2) :=
      extentList_congr fun k h1 h2 => Buf.clip_of_lt (by simp only [blockBytes]; omega)
    rw [hcount, hclip, extentListBlock]
    rw [extentList_recompute (by omega), ← hlen]
    have hs := extentList_storeExtents (b := storeLe64 (storeLe64 (storeLe64 Buf.zero 0
      extentListMagic) 8 recordId) 24 (es.length - 2)) (i := 0) (hf.drop 2) hflag
    rw [Nat.zero_mul, Nat.add_zero] at hs
    rw [← hlen] at hs
    exact hs

/-- A record with a new map: the old identity, the next generation. -/
structure Remapped (old r : Buf) (es : List Extent) (head : Nat) : Prop where
  type : getLe64 r 0 = getLe64 old 0
  id : getLe64 r 16 = getLe64 old 16
  generation : getLe64 r 24 = add64 (getLe64 old 24) 1
  count : getLe64 r 40 = es.length
  inlineCount : getLe64 r 48 = (es.take 2).length
  head : getLe64 r 56 = if 2 < es.length then head else 0
  extents : extentList r 0 (es.take 2).length = es.take 2
  checksum : checksumBlock r recordChecksumOffset recordBytes = true

lemma add64_lt (a b : Nat) : add64 a b < 2 ^ 64 := Nat.mod_lt _ (by decide)

lemma extentList_take_two (hf : Fits flag es) (hflag : flag < 2 ^ 64) (b : Buf) :
    extentList (storeExtents flag b 64 (es.take 2)) 0 (es.take 2).length = es.take 2 := by
  have h := extentList_storeExtents (b := b) (i := 0) (hf.take 2) hflag
  rwa [Nat.zero_mul, Nat.add_zero] at h

lemma directoryRecord_remapped {parent : Buf} {newSize head : Nat}
    (hf : Fits extentDirectoryMetadata es) (hlen : es.length < 2 ^ 64) (hh : head < 2 ^ 64) :
    Remapped parent (directoryRecord parent newSize es head) es head := by
  have h2 := length_take_two es
  have hle : (es.take 2).length ≤ 2 := by rw [List.length_take]; omega
  have hex := extentList_take_two hf (by decide)
  have hhead : (if es.length > 2 then head else 0) < 2 ^ 64 := by split <;> omega
  simp only [directoryRecord, recordChecksumOffset, recordBytes]
  constructor
  all_goals simp (disch := omega) only [getLe64_recomputeChecksum, getLe64_store_of_ne,
    getLe64_storeExtents, getLe64_store, getLe64_fill_of_ne, getLe64_store_mod,
    extentList_recompute, extentList_store, hex, Nat.mod_eq_of_lt (add64_lt _ _), ← h2,
    checksumBlock_recompute, recordChecksumOffset, recordBytes]

lemma directoryRecord_fields {parent : Buf} {newSize head : Nat} {es : List Extent}
    (hs : newSize < 2 ^ 64) :
    getLe64 (directoryRecord parent newSize es head) 8 = getLe64 parent 8 ∧
      getLe64 (directoryRecord parent newSize es head) 32 = newSize := by
  simp only [directoryRecord, recordChecksumOffset, recordBytes]
  constructor
  all_goals simp (disch := omega) only [getLe64_recomputeChecksum, getLe64_store_of_ne,
    getLe64_storeExtents, getLe64_store, getLe64_fill_of_ne]

variable {r : Buf}

lemma extentList_clip {n : Nat} (h : n ≤ 2) :
    extentList (r.clip recordBytes) 0 n = extentList r 0 n :=
  extentList_congr fun k _ hk => Buf.clip_of_lt (by simp only [recordBytes]; omega)

lemma checksum_clip :
    checksumBlock (r.clip recordBytes) recordChecksumOffset recordBytes =
      checksumBlock r recordChecksumOffset recordBytes :=
  checksumBlock_congr (fun _ hi => Buf.clip_of_lt hi) (by decide)

lemma getLe64_record_clip {o : Nat} (h : o + 8 ≤ 192) :
    getLe64 (r.clip recordBytes) o = getLe64 r o :=
  getLe64_clip h

lemma Remapped.clip {old r : Buf} {es : List Extent} {head : Nat} (h : Remapped old r es head) :
    Remapped old (r.clip recordBytes) es head := by
  have hle : (es.take 2).length ≤ 2 := by rw [List.length_take]; omega
  obtain ⟨h1, h2, h3, h4, h5, h6, h7, h8⟩ := h
  constructor
  all_goals simp (disch := omega) only [getLe64_record_clip, checksum_clip, extentList_clip hle]
  all_goals assumption

/-- The list blocks of a new map: one, if the record cannot hold all extents. -/
def newLists (es : List Extent) (head : Nat) : List Nat := if 2 < es.length then [head] else []

lemma ListBlockOf.chain {block : Nat → Buf} {head owner : Nat} {es : List Extent}
    (h : ListBlockOf (block head) owner es) (hne : head ≠ 0) : Chain block head [head] :=
  .cons hne (by rw [h.next]; exact .nil)

lemma length_newLists_le (es : List Extent) (head : Nat) :
    (newLists es head).length ≤ es.length ∧ (newLists es head).length ≤ 1 := by
  unfold newLists
  split <;> simp
  omega

section

variable {old r : Buf} {es : List Extent} {head : Nat} {block : Nat → Buf}
  (h : Remapped old r es head)
  (hl : 2 < es.length → head ≠ 0 ∧ ListBlockOf (block head) (getLe64 old 16) (es.drop 2))
include h hl

lemma Remapped.chain : Chain block (getLe64 r 56) (newLists es head) := by
  by_cases hc : 2 < es.length
  · obtain ⟨hne, hb⟩ := hl hc
    rw [h.head, if_pos hc, newLists, if_pos hc]
    exact hb.chain hne
  · rw [h.head, if_neg hc, newLists, if_neg hc]
    exact .nil

lemma Remapped.extents_eq :
    es = extentList r 0 (getLe64 r 48) ++ listExtents block (newLists es head) := by
  rw [h.inlineCount, h.extents]
  by_cases hc : 2 < es.length
  · simp only [newLists, if_pos hc, listExtents, List.flatMap_cons, List.flatMap_nil,
      List.append_nil, (hl hc).2.extents, List.take_append_drop]
  · simp only [newLists, if_neg hc, listExtents, List.flatMap_nil, List.append_nil]
    rw [List.take_of_length_le (by omega)]

lemma Remapped.fileMap : fileMap block r = ⟨es, newLists es head⟩ := by
  have hchain : listChain block (getLe64 r 40) (getLe64 r 56) = newLists es head :=
    (h.chain hl).listChain (by rw [h.count]; exact (length_newLists_le es head).1)
  simp only [Mgfs.fileMap, hchain, ← h.extents_eq hl]

lemma Remapped.collected {flag : Nat} (hlaid : Laid flag 0 es) :
    Collected block r flag (newLists es head) es where
  chain := h.chain hl
  extents := h.extents_eq hl
  laid := hlaid
  length := h.count.symm
  lists b hb := by
    unfold newLists at hb
    split at hb
    · rename_i hc
      rw [List.mem_singleton.mp hb, h.id]
      exact (hl hc).2.ok
    · cases hb

end

lemma add64_one_ne_zero {g : Nat} (hg : g < 2 ^ 64) : add64 g 1 ≠ 0 ↔ g ≠ u64Max := by
  rw [add64, u64Max]
  omega

section

variable {formatMinor : Option Nat} {old : Buf}

lemma Remapped.recordOk {es : List Extent} {head : Nat} (h : Remapped old r es head)
    (ho : RecordOk formatMinor old) (hg : getLe64 old 24 ≠ u64Max)
    (hf : getLe64 r 8 &&& (u64Max ^^^ recordFlagsKnown) = 0) (hp : recordPermissions r ≠ 0)
    (hi : ¬ getLe64 r 8 &&& recordInlineData ≠ 0)
    (hr : getLe64 r 8 &&& recordChildMutationOwnerRestricted ≠ 0 →
      getLe64 old 8 &&& recordChildMutationOwnerRestricted ≠ 0) : RecordOk formatMinor r := by
  have hle : (es.take 2).length ≤ 2 ∧ (es.take 2).length ≤ es.length := by
    rw [List.length_take]; omega
  refine ⟨h.checksum, ?_, ?_, ?_, hf, hp, fun ht hn => ?_, fun hl hn => ?_, ?_, ?_, fun hc => ?_,
    fun hn => absurd hn hi⟩
  · rw [h.id]
    exact ho.id
  · rw [h.generation]
    exact (add64_one_ne_zero (getLe64_lt _ _)).mpr hg
  · rw [h.type]
    exact ho.type
  · rw [h.type] at ht
    exact ho.filePolicy ht (hr hn)
  · exact ho.legacyPolicy hl (hr hn)
  · rw [h.inlineCount]
    exact hle.1
  · rw [h.inlineCount, h.count]
    exact hle.2
  · rw [h.head, if_neg]
    rw [h.count] at hc
    omega

lemma directoryRecord_ok {newSize head : Nat} {es : List Extent} (ho : RecordOk formatMinor old)
    (ht : getLe64 old 0 = recordDirectory) (hg : getLe64 old 24 ≠ u64Max)
    (hf : Fits extentDirectoryMetadata es) (hlen : es.length < 2 ^ 64) (hh : head < 2 ^ 64)
    (hs : newSize < 2 ^ 64) : RecordOk formatMinor (directoryRecord old newSize es head) := by
  have hflags := (@directoryRecord_fields old newSize head es hs).1
  refine (directoryRecord_remapped hf hlen hh).recordOk ho hg ?_ ?_ ?_ ?_
  · rw [hflags]
    exact ho.flags
  · rw [recordPermissions_congr hflags]
    exact ho.permissions
  · rw [hflags]
    intro hi
    have := (ho.inlineData hi).1
    rw [ht] at this
    cases this
  · rw [hflags]
    exact id

end

lemma used_inData {b : Nat} (h : (vol w).used b = true) : InData w.fs.layout b := by
  simp only [vol, Bool.and_eq_true, decide_eq_true_eq] at h
  exact h.1

lemma length_le_dataBlocks {l : Layout} {bs : List Nat} (hn : bs.Nodup)
    (hin : ∀ b ∈ bs, InData l b) : bs.length ≤ l.dataBlocks := by
  have hsub : bs ⊆ List.range' l.dataStart l.dataBlocks := by
    intro b hb
    rw [List.mem_range'_1]
    exact hin b hb
  have h := (List.subperm_of_subset hn hsub).length_le
  rwa [List.length_range'] at h

lemma Mounted.dataBlocks_lt (hm : Mounted w) : w.fs.layout.dataBlocks < 2 ^ 61 := by
  have h1 := hm.covers.dataEnd
  have h2 := w.dev.sectorCount_le
  simp only [u64Max] at h2
  omega

lemma bounded_of_inData (hm : Mounted w) (hpos : ∀ e ∈ es, e.blockCount ≠ 0)
    (hin : ∀ b ∈ extentBlocks es, InData w.fs.layout b) : Bounded es := by
  intro e he
  have hpe := hpos e he
  have hlast := hin (e.physicalStart + e.blockCount - 1) (mem_extentBlocks.mpr
    ⟨e, he, by omega, by omega⟩)
  have hb := hm.inData_bound hlast
  omega

/-- The extents and list blocks of a record: in the data area, used, and no block twice. -/
structure Mapped (w : World) (r : Buf) (flag : Nat) (es : List Extent) (ls : List Nat) : Prop where
  collected : Collected (vol w).block r flag ls es
  chain : Chain w.dev.block (getLe64 r 56) ls
  inData : ∀ b ∈ (FileMap.mk es ls).blocks, InData w.fs.layout b
  nodup : (FileMap.mk es ls).blocks.Nodup
  used : ∀ b ∈ (FileMap.mk es ls).blocks, (vol w).used b = true

section

variable {s : Nat} {capacity : Nat} {ls : List Nat}

lemma mapped_of_collected (ho : Owned (vol w) s) (hr : (vol w).record s = r)
    (hc : Collected (vol w).block r flag ls es) : Mapped w r flag es ls := by
  have hmap : recordBlocks (vol w) s = (FileMap.mk es ls).blocks := by
    rw [recordBlocks, hr, hc.fileMap]
  have hin : ∀ b ∈ (FileMap.mk es ls).blocks, InData w.fs.layout b :=
    fun b hb => used_inData (ho.used b (hmap ▸ hb))
  refine ⟨hc, hc.chain.congr fun b hb => ?_, hin, hmap ▸ ho.nodup, fun b hb => ?_⟩
  · exact (vol_block (hin b (mem_blocks_of_list hb))).symm
  · exact ho.used b (hmap ▸ hb)

lemma mapped_of_collect (ho : Owned (vol w) s) (hr : (vol w).record s = r)
    (h : collectFileExtents w r capacity flag = .ok es) : ∃ ls, Mapped w r flag es ls := by
  obtain ⟨⟨ls, hc⟩, -⟩ := collectFileExtents_ok h
  have hagree : ∀ b, InData w.fs.layout b → (vol w).block b = w.dev.block b :=
    fun b hb => vol_block hb
  have hraw : ∀ b ∈ listChain (vol w).block (getLe64 r 40) (getLe64 r 56), InData w.fs.layout b := by
    intro b hb
    refine used_inData (ho.used b (mem_blocks_of_list ?_))
    rw [hr]
    exact hb
  obtain ⟨hchain, hlist⟩ := hc.chain.transfer hc.lists_length hagree hraw
  rw [hlist] at hraw
  have hsame : ∀ b ∈ ls, (vol w).block b = w.dev.block b := fun b hb => hagree b (hraw b hb)
  have hcol : Collected (vol w).block r flag ls es := by
    refine ⟨hchain, ?_, hc.laid, hc.length, fun b hb => ?_⟩
    · rw [hc.extents, listExtents_congr hsame]
    · rw [hsame b hb]
      exact hc.lists b hb
  exact ⟨ls, mapped_of_collected ho hr hcol⟩

variable (h : Mapped w r flag es ls)

include h

lemma Mapped.recordBlocks (hr : (vol w).record s = r) :
    recordBlocks (vol w) s = (FileMap.mk es ls).blocks := by
  rw [Mgfs.recordBlocks, hr, h.collected.fileMap]

lemma Mapped.pos : ∀ e ∈ es, e.blockCount ≠ 0 :=
  fun e he => (laid_ne_zero h.collected.laid e he).1

lemma Mapped.bounded (hm : Mounted w) : Bounded es :=
  bounded_of_inData hm h.pos fun b hb => h.inData b (mem_blocks_of_extent hb)

lemma Mapped.nodup_extents : (extentBlocks es).Nodup :=
  (List.nodup_append.mp h.nodup).2.1

lemma Mapped.disjoint {b : Nat} (hl : b ∈ ls) : b ∉ extentBlocks es :=
  fun he => (List.nodup_append.mp h.nodup).2.2 b hl b he rfl

lemma Mapped.covered_le : covered es ≤ w.fs.layout.dataBlocks := by
  rw [← length_extentBlocks]
  exact length_le_dataBlocks h.nodup_extents fun b hb => h.inData b (mem_blocks_of_extent hb)

lemma Mapped.unique {ms : List Nat} {fs : List Extent}
    (h' : Mapped w r flag fs ms) : es = fs ∧ ls = ms := by
  have hmap := h.collected.fileMap.symm.trans h'.collected.fileMap
  exact ⟨congrArg FileMap.extents hmap, congrArg FileMap.lists hmap⟩

lemma Mapped.head (hh : getLe64 r 56 ≠ 0) : getLe64 r 56 ∈ ls := by
  have hc := h.chain
  generalize getLe64 r 56 = head at hc hh
  cases hc with
  | nil => exact absurd rfl hh
  | cons => simp

lemma Mapped.transfer {w' : World}
    (hl : w'.fs.layout = w.fs.layout) (hb : ∀ b ∈ ls, (vol w').block b = (vol w).block b)
    (hu : ∀ b ∈ (FileMap.mk es ls).blocks, (vol w').used b = true) : Mapped w' r flag es ls := by
  have hin : ∀ b ∈ (FileMap.mk es ls).blocks, InData w'.fs.layout b := by
    rw [hl]
    exact h.inData
  have hchain := h.collected.chain.congr hb
  refine ⟨⟨hchain, ?_, h.collected.laid, h.collected.length, fun b hm => ?_⟩,
    hchain.congr fun b hm => (vol_block (hin b (mem_blocks_of_list hm))).symm, hin, h.nodup, hu⟩
  · rw [h.collected.extents, listExtents_congr hb]
  · rw [hb b hm]
    exact h.collected.lists b hm

lemma Mapped.readBlock_list (hm : Mounted w) (hh : w.env.Healthy) :
    ∀ b ∈ ls, readBlock w b = .ok (w.dev.block b) :=
  fun b hb => hm.readBlock (hm.inData_lt (h.inData b (mem_blocks_of_list hb))) (hh.1 b)

lemma Mapped.onDevice : Collected w.dev.block r flag ls es := by
  have hsame : ∀ b ∈ ls, w.dev.block b = (vol w).block b :=
    fun b hb => (vol_block (h.inData b (mem_blocks_of_list hb))).symm
  refine ⟨h.chain, ?_, h.collected.laid, h.collected.length, fun b hb => ?_⟩
  · rw [h.collected.extents, listExtents_congr hsame]
  · rw [hsame b hb]
    exact h.collected.lists b hb

lemma Mapped.collectFileExtents (hm : Mounted w)
    (hh : w.env.Healthy) (hc : es.length ≤ capacity) :
    collectFileExtents w r capacity flag = .ok es :=
  collectFileExtents_of h.onDevice hc (h.readBlock_list hm hh)

end

/-- Fewer than `n` data blocks are free. -/
def NoRoom (l : Layout) (used : Nat → Bool) (n : Nat) : Prop :=
  ∃ news, news.length < n ∧ FirstFits l used news ∧
    ∀ b, InData l b → marked used news b = true

/-- Where the list block of a new map is: none, the old one, or one just allocated. -/
structure ListPlaced (l : Layout) (used : Nat → Bool) (oldHead : Nat) (es : List Extent)
    (head : Nat) (extra : List Nat) : Prop where
  short : ¬ 2 < es.length → head = 0 ∧ extra = []
  long : 2 < es.length → es.length - 2 ≤ extentsPerListBlock ∧ (oldHead ≠ 0 → head = oldHead ∧ extra = []) ∧
    (oldHead = 0 → FirstFree l used head ∧ extra = [head])

lemma writeExtentList_spec (hm : Mounted w) {recordId list flag : Nat}
    (h2 : 2 < es.length) (hb : InData w.fs.layout list) :
    Prog.wp (writeExtentList recordId list es flag)
      (fun _ w' => es.length - 2 ≤ extentsPerListBlock ∧ Reaches w w' w.fs { vol w with
        block := update (vol w).block list ((extentListBlock recordId es flag).clip blockBytes) })
      (fun _ w' => Same w w' ∧ (w.env.Healthy → extentsPerListBlock < es.length - 2)) w := by
  rw [writeExtentList, if_neg (by omega), Prog.wp_bind, Prog.wp_require]
  refine ⟨fun hle => ?_, fun hle => ⟨Same.refl hm, fun _ => by omega⟩⟩
  exact (writeBlock_data_spec hm hb _).mono (fun _ _ h => ⟨hle, h⟩)
    fun _ _ h => ⟨h.1, fun hh => absurd hh h.2⟩

/-- The volume with the list block of a new map written. -/
def withList (v : Vol) (recordId flag : Nat) (es : List Extent) (head : Nat) (extra : List Nat) :
    Vol :=
  { v with
    used := marked v.used extra
    block := if 2 < es.length then
      update v.block head ((extentListBlock recordId es flag).clip blockBytes) else v.block }

lemma placeExtentList_spec (hm : Mounted w) {recordId oldHead flag : Nat}
    (hold : oldHead ≠ 0 → InData w.fs.layout oldHead) :
    Prog.wp (placeExtentList recordId oldHead es flag)
      (fun head w' => ∃ extra, ListPlaced w.fs.layout (vol w).used oldHead es head extra ∧
        Reaches w w' w.fs (withList (vol w) recordId flag es head extra))
      (fun _ w' => ∃ extra, FirstFits w.fs.layout (vol w).used extra ∧
        Reaches w w' w.fs { vol w with used := marked (vol w).used extra } ∧
        (w.env.Healthy → NoRoom w.fs.layout (vol w).used 1 ∨
          extentsPerListBlock < es.length - 2)) w := by
  rw [placeExtentList]
  by_cases h2 : es.length > 2
  · rw [if_pos h2]
    by_cases h0 : oldHead = 0
    · simp only [if_pos h0]
      rw [Prog.wp_bind]
      refine (allocateDataBlock_spec hm).mono (fun head w1 h1 => ?_) (fun _ w1 h1 => ?_)
      · obtain ⟨hfree, h1⟩ := h1
        rw [marked_singleton] at h1
        have hin : InData w1.fs.layout head := by
          rw [h1.fs]
          exact hfree.inData
        rw [Prog.wp_bind]
        refine (writeExtentList_spec h1.mounted h2 hin).mono (fun _ w2 h3 => ?_) (fun _ w2 h3 => ?_)
        · rw [Prog.wp_pure]
          obtain ⟨hle, h3⟩ := h3
          rw [h1.fs, h1.vol] at h3
          refine ⟨[head], ⟨fun hn => absurd h2 hn, fun _ => ⟨hle, fun hn => absurd h0 hn,
            fun _ => ⟨hfree, rfl⟩⟩⟩, ?_⟩
          simp only [withList, if_pos (show 2 < es.length from h2)]
          exact h1.trans h3
        · refine ⟨[head], .cons hfree .nil, h1.same h3.1, fun hh => .inr (h3.2 (h1.env ▸ hh))⟩
      · refine ⟨[], .nil, ?_, fun hh => .inl ⟨[], by simp, .nil, fun b hb => ?_⟩⟩
        · rw [marked_nil]
          exact h1.1
        · rw [marked_nil]
          exact h1.2 hh b hb
    · simp only [if_neg h0]
      rw [Prog.wp_bind, Prog.wp_pure, Prog.wp_bind]
      refine (writeExtentList_spec hm h2 (hold h0)).mono (fun _ w2 h3 => ?_) (fun _ w2 h3 => ?_)
      · rw [Prog.wp_pure]
        obtain ⟨hle, h3⟩ := h3
        refine ⟨[], ⟨fun hn => absurd h2 hn, fun _ => ⟨hle, fun _ => ⟨rfl, rfl⟩,
          fun hn => absurd hn h0⟩⟩, ?_⟩
        simp only [withList, if_pos (show 2 < es.length from h2), marked_nil]
        exact h3
      · refine ⟨[], .nil, ?_, fun hh => .inr (h3.2 hh)⟩
        rw [marked_nil]
        exact h3.1
  · rw [if_neg h2, Prog.wp_pure]
    refine ⟨[], ⟨fun _ => ⟨rfl, rfl⟩, fun hn => absurd hn h2⟩, ?_⟩
    simp only [withList, if_neg (show ¬ 2 < es.length from h2), marked_nil]
    exact Same.refl hm

end Mangrove.Mgfs
