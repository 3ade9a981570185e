import Mangrove.Mgfs.Volume
import Mangrove.Lib.Probe

/-! Which records the driver accepts, the Record ID index, and the blocks a record refers to.
No two records that count own the same block. -/

namespace Mangrove.Mgfs

lemma and_shiftLeft_shiftRight (x m k : Nat) : (x &&& (m <<< k)) >>> k = (x >>> k) &&& m := by
  rw [Nat.shiftRight_and_distrib, Nat.shiftLeft_shiftRight]

variable (r : Buf)

lemma recordPermissions_eq : recordPermissions r = getLe64 r 8 / 2 ^ 33 % 16 := by
  rw [recordPermissions, recordPermissionsMask, and_shiftLeft_shiftRight,
    show (0xF : Nat) = 2 ^ 4 - 1 by decide, Nat.and_two_pow_sub_one_eq_mod,
    Nat.shiftRight_eq_div_pow]

lemma and_inlineData (x : Nat) : x &&& recordInlineData = x % 2 := by
  rw [recordInlineData, show (1 : Nat) = 2 ^ 1 - 1 by decide, Nat.and_two_pow_sub_one_eq_mod]

lemma and_restricted_ne_zero (x : Nat) :
    x &&& recordChildMutationOwnerRestricted ≠ 0 ↔ x / 2 ^ 41 % 2 = 1 := by
  have ht : x.testBit 41 = decide (x / 2 ^ 41 % 2 = 1) := Nat.testBit_eq_decide_div_mod_eq
  rw [recordChildMutationOwnerRestricted, Nat.shiftLeft_eq, Nat.one_mul, Nat.and_two_pow, ht]
  cases hd : decide (x / 2 ^ 41 % 2 = 1) with
  | true => simpa using of_decide_eq_true hd
  | false => simpa using of_decide_eq_false hd

lemma securityFlags_eq {ownerUid permissions : Nat} (ho : ownerUid < 2 ^ 32)
    (inlineData : Bool) (policy : ChildMutationPolicy) :
    securityFlags ownerUid permissions inlineData policy =
      inlineData.toNat + 2 * ownerUid + 2 ^ 33 * (permissions % 16) +
        2 ^ 41 * (if policy = .ownerRestricted then 1 else 0) := by
  have hp : permissions &&& permissionKnown = permissions % 16 := by
    rw [permissionKnown, show (0xF : Nat) = 2 ^ 4 - 1 by decide, Nat.and_two_pow_sub_one_eq_mod]
  have h0 : (if inlineData = true then recordInlineData else 0) = inlineData.toNat := by
    cases inlineData <;> rfl
  have h0lt : inlineData.toNat < 2 ^ 1 := by cases inlineData <;> decide
  have hr : (if policy = .ownerRestricted then recordChildMutationOwnerRestricted else 0) =
      (if policy = .ownerRestricted then 1 else 0) <<< 41 := by
    split <;> simp [recordChildMutationOwnerRestricted]
  rw [securityFlags, hp, h0, hr, or_shift_eq_add h0lt, or_shift_eq_add (k := 33) (by omega),
    or_shift_eq_add (k := 41) (by omega), Nat.pow_one]

lemma securityFlags_lt {ownerUid : Nat} (ho : ownerUid < 2 ^ 32) (permissions : Nat)
    (inlineData : Bool) (policy : ChildMutationPolicy) :
    securityFlags ownerUid permissions inlineData policy < 2 ^ 42 := by
  have hb : inlineData.toNat < 2 := by cases inlineData <;> decide
  rw [securityFlags_eq ho]
  split <;> omega

lemma and_unknownFlags_eq_zero {x : Nat} (h : x < 2 ^ 42) (hbits : x / 2 ^ 37 % 16 = 0) :
    x &&& (u64Max ^^^ recordFlagsKnown) = 0 := by
  apply Nat.eq_of_testBit_eq
  intro i
  rw [Nat.testBit_and, Nat.zero_testBit]
  by_cases hi : i < 42
  · have hmask : ∀ j < 42, j < 37 ∨ j = 41 → (u64Max ^^^ recordFlagsKnown).testBit j = false := by
      decide
    by_cases hj : i < 37 ∨ i = 41
    · rw [hmask i hi hj, Bool.and_false]
    · have hx : x.testBit i = false := by
        rw [Nat.testBit_eq_decide_div_mod_eq]
        have hcase : i = 37 ∨ i = 38 ∨ i = 39 ∨ i = 40 := by omega
        rcases hcase with rfl | rfl | rfl | rfl <;> simp only [decide_eq_false_iff_not] <;> omega
      rw [hx, Bool.false_and]
  · have hx : x.testBit i = false :=
      Nat.testBit_lt_two_pow (lt_of_lt_of_le h (Nat.pow_le_pow_right (by omega) (by omega)))
    rw [hx, Bool.false_and]

lemma securityFlags_known {ownerUid : Nat} (ho : ownerUid < 2 ^ 32) (permissions : Nat)
    (inlineData : Bool) (policy : ChildMutationPolicy) :
    securityFlags ownerUid permissions inlineData policy &&& (u64Max ^^^ recordFlagsKnown) = 0 := by
  have hb : inlineData.toNat < 2 := by cases inlineData <;> decide
  refine and_unknownFlags_eq_zero (securityFlags_lt ho _ _ _) ?_
  rw [securityFlags_eq ho]
  split <;> omega

lemma recordPermissions_lt : recordPermissions r < 16 := by
  rw [recordPermissions_eq]
  omega

section

variable {r : Buf} {ownerUid permissions : Nat} {inlineData : Bool} {policy : ChildMutationPolicy}
  (ho : ownerUid < 2 ^ 32) (hf : getLe64 r 8 = securityFlags ownerUid permissions inlineData policy)

include ho hf

lemma recordPermissions_of_flags : recordPermissions r = permissions % 16 := by
  have hb : inlineData.toNat < 2 := by cases inlineData <;> decide
  rw [recordPermissions_eq, hf, securityFlags_eq ho]
  split <;> omega

lemma inlineData_of_flags : getLe64 r 8 &&& recordInlineData ≠ 0 ↔ inlineData = true := by
  rw [and_inlineData, hf, securityFlags_eq ho]
  cases inlineData <;> simp only [Bool.toNat_true, Bool.toNat_false] <;> split <;> simp <;> omega

lemma restricted_of_flags : getLe64 r 8 &&& recordChildMutationOwnerRestricted ≠ 0 ↔
    policy = .ownerRestricted := by
  have hb : inlineData.toNat < 2 := by cases inlineData <;> decide
  rw [and_restricted_ne_zero, hf, securityFlags_eq ho]
  split <;> rename_i h <;> simp only [h] <;> simp <;> omega

end

/-- What the driver demands of a record it reads. -/
structure RecordOk (formatMinor : Option Nat) (r : Buf) : Prop where
  checksum : checksumBlock r recordChecksumOffset recordBytes = true
  id : getLe64 r 16 ≠ 0
  generation : getLe64 r 24 ≠ 0
  type : getLe64 r 0 = recordFile ∨ getLe64 r 0 = recordDirectory
  flags : getLe64 r 8 &&& (u64Max ^^^ recordFlagsKnown) = 0
  permissions : recordPermissions r ≠ 0
  filePolicy : getLe64 r 0 = recordFile →
    ¬ getLe64 r 8 &&& recordChildMutationOwnerRestricted ≠ 0
  legacyPolicy : formatMinor = some formatMinorLegacy →
    ¬ getLe64 r 8 &&& recordChildMutationOwnerRestricted ≠ 0
  inlineExtents : getLe64 r 48 ≤ 2
  inlineExtents_le : getLe64 r 48 ≤ getLe64 r 40
  listHead : getLe64 r 40 ≤ 2 → getLe64 r 56 = 0
  inlineData : getLe64 r 8 &&& recordInlineData ≠ 0 →
    getLe64 r 0 = recordFile ∧ getLe64 r 40 = 0 ∧ getLe64 r 48 = 0 ∧ getLe64 r 56 = 0 ∧
      getLe64 r 32 ≤ inlineDataBytes

lemma permissions_known (r : Buf) :
    recordPermissions r &&& (0xFFFFFFFF ^^^ permissionKnown) = 0 := by
  have hall : ∀ p < 16, p &&& (0xFFFFFFFF ^^^ permissionKnown) = 0 := by decide
  exact hall _ (recordPermissions_lt r)

variable {formatMinor : Option Nat} {r : Buf} {u : Unit}

lemma validateRecord_ok : validateRecord formatMinor r = .ok u ↔ RecordOk formatMinor r := by
  have hk := permissions_known r
  simp only [validateRecord, ensure_bind_ok, ensure_ok]
  constructor
  · rintro ⟨hc, hf, hi⟩
    constructor
    all_goals grind
  · rintro ⟨h1, h2, h3, h4, h5, h6, h7, h8, h9, h10, h11, h12⟩
    refine ⟨h1, ?_, ?_⟩
    · rintro (h | h | h | h | h | h | h | h | h | h | h | h)
      all_goals grind
    · grind

lemma recordPermissions_congr {a b : Buf} (h : getLe64 a 8 = getLe64 b 8) :
    recordPermissions a = recordPermissions b := by
  rw [recordPermissions_eq, recordPermissions_eq, h]

lemma recordOk_congr {a b : Buf}
    (h : ∀ i < recordBytes, a i = b i) : RecordOk formatMinor a ↔ RecordOk formatMinor b := by
  have hg : ∀ o, o + 8 ≤ recordBytes → getLe64 a o = getLe64 b o :=
    fun o ho => getLe64_congr fun i hi => h (o + i) (by omega)
  have hc : checksumBlock a recordChecksumOffset recordBytes =
      checksumBlock b recordChecksumOffset recordBytes := checksumBlock_congr h (by decide)
  rw [← validateRecord_ok (u := ()), ← validateRecord_ok (u := ())]
  simp only [validateRecord, hc, hg _ (show 0 + 8 ≤ recordBytes by decide),
    hg _ (show 8 + 8 ≤ recordBytes by decide), hg _ (show 16 + 8 ≤ recordBytes by decide),
    hg _ (show 24 + 8 ≤ recordBytes by decide), hg _ (show 32 + 8 ≤ recordBytes by decide),
    hg _ (show 40 + 8 ≤ recordBytes by decide), hg _ (show 48 + 8 ≤ recordBytes by decide),
    hg _ (show 56 + 8 ≤ recordBytes by decide),
    recordPermissions_congr (hg _ (show 8 + 8 ≤ recordBytes by decide))]

lemma recordOk_clip : RecordOk formatMinor (r.clip recordBytes) ↔ RecordOk formatMinor r :=
  recordOk_congr fun _ hi => Buf.clip_of_lt hi

variable {w : World} {s : Nat}

lemma vol_record (hs : s < w.fs.layout.recordCount) : (vol w).record s = slotRecord w s := by
  simp only [vol, if_pos hs]

/-- Lookup of a Record ID gives the same. -/
structure SameIndex (fs fs' : Fs) : Prop where
  layout : fs'.layout = fs.layout
  formatMinor : fs'.formatMinor = fs.formatMinor
  recordIds : fs'.recordIds = fs.recordIds
  capacity : fs'.recordIdCapacity = fs.recordIdCapacity

lemma SameIndex.findProbe {fs fs' : Fs} (h : SameIndex fs fs') (id i n : Nat) :
    findProbe fs' id i n = findProbe fs id i n := by
  induction n generalizing i with
  | zero => rfl
  | succ n ih => simp only [Mgfs.findProbe, nextProbe, h.recordIds, h.capacity, ih]

lemma SameIndex.findRecordSlot {fs fs' : Fs} (h : SameIndex fs fs') (id : Nat) :
    findRecordSlot fs' id = findRecordSlot fs id := by
  simp only [Mgfs.findRecordSlot, firstProbe, h.capacity, h.findProbe]

/-- The Record ID leads to a valid record in slot `s`. -/
structure Names (w : World) (id s : Nat) (r : Buf) : Prop where
  slot : findRecordSlot w.fs id = some s
  lt : s < w.fs.layout.recordCount
  record : (vol w).record s = r
  ok : RecordOk (some w.fs.formatMinor) r
  id : getLe64 r 16 = id

variable {id : Nat}

lemma Mounted.slot_lt_iff (hm : Mounted w) :
    s / recordsPerTableBlock < w.fs.layout.recordTableBlocks ↔ s < w.fs.layout.recordCount := by
  rw [hm.covers.recordCount, Nat.div_lt_iff_lt_mul (by decide)]

variable {e : Option String}

lemma findSlot_ok : findSlot w id e = .ok s ↔ findRecordSlot w.fs id = some s := by
  unfold findSlot
  cases findRecordSlot w.fs id <;> simp

lemma readRecord_ok : readRecord w id = .ok r ↔ ∃ s, findRecordSlot w.fs id = some s ∧
      s / recordsPerTableBlock < w.fs.layout.recordTableBlocks ∧ ∃ block,
        readBlock w (w.fs.layout.recordTableStart + s / recordsPerTableBlock) = .ok block ∧
        Sealed block metadataRecordTable (s / recordsPerTableBlock) ∧
        (RecordOk (some w.fs.formatMinor)
            (block.skip (bitmapHeaderBytes + s % recordsPerTableBlock * recordBytes)) ∧
          getLe64 (block.skip (bitmapHeaderBytes + s % recordsPerTableBlock * recordBytes)) 16 = id) ∧
        (block.skip (bitmapHeaderBytes + s % recordsPerTableBlock * recordBytes)).clip recordBytes =
          r := by
  simp only [readRecord, findSlot_ok, except_bind_ok, ensure_ok, orElse_ok, exists_const,
    validateRecord_ok, validateMetadataHeader_ok, pure, Except.pure, Except.ok.injEq]

lemma readRecord_names (hm : Mounted w) (h : readRecord w id = .ok r) : ∃ s, Names w id s r := by
  obtain ⟨s, hs, hlt, block, hr, -, ⟨hv, hid⟩, rfl⟩ := readRecord_ok.mp h
  cases readBlock_eq hr
  have hlt' := hm.slot_lt_iff.mp hlt
  refine ⟨s, hs, hlt', vol_record hlt', recordOk_clip.mpr hv, ?_⟩
  rw [getLe64_clip (by decide), hid]

lemma Names.readRecord (hm : Mounted w) (h : Names w id s r)
    (hr : w.env.readable (w.fs.layout.recordTableStart + s / recordsPerTableBlock) = true) :
    readRecord w id = .ok r := by
  obtain ⟨h1, h2, h3, h4, h5⟩ := hm.order
  have htb := hm.tableBlock h.lt
  have hrec := h.record
  rw [vol_record h.lt, slotRecord] at hrec
  have hok := h.ok
  have hid := h.id
  rw [← hrec] at hok hid
  rw [recordOk_clip] at hok
  rw [getLe64_clip (by decide)] at hid
  exact readRecord_ok.mpr ⟨s, h.slot, htb, _, hm.readBlock (by omega) hr, hm.recordTable _ htb,
    ⟨hok, hid⟩, hrec⟩

lemma Names.slot_unique {t : Nat} {q : Buf} (h : Names w id s r)
    (h' : Names w id t q) : s = t ∧ r = q := by
  have hst : s = t := Option.some.inj (h.slot.symm.trans h'.slot)
  subst t
  exact ⟨rfl, h.record.symm.trans h'.record⟩

lemma readDirectoryRecord_ok : readDirectoryRecord w id e = .ok r ↔
      readRecord w id = .ok r ∧ getLe64 r 0 = recordDirectory := by
  simp only [readDirectoryRecord, orElse_ok, except_bind_ok, ensure_ok, exists_const, pure,
    Except.pure, Except.ok.injEq]
  constructor
  · rintro ⟨x, hx, ht, rfl⟩
    exact ⟨hx, ht⟩
  · rintro ⟨hx, ht⟩
    exact ⟨r, hx, ht, rfl⟩

open Function (update)

def indexCells (fs : Fs) (i : Nat) : Option (Nat × Nat) :=
  if (fs.recordIds i).id = 0 then none else some ((fs.recordIds i).id, (fs.recordIds i).slot)

variable {fs : Fs} {i : Nat}

lemma indexCells_eq_none : indexCells fs i = none ↔ (fs.recordIds i).id = 0 := by
  unfold indexCells
  split <;> simp_all

lemma indexCells_set {j id t : Nat} (hid : id ≠ 0) :
    indexCells (setRecordRef fs j id t) = update (indexCells fs) j (some (id, t)) := by
  funext i
  by_cases h : i = j
  · subst h
    simp [indexCells, setRecordRef, hid]
  · simp [indexCells, setRecordRef, h]

lemma findProbe_eq (fs : Fs) (id i n : Nat) :
    findProbe fs id i n = Probe.find (nextProbe fs) (indexCells fs) id i n := by
  induction n generalizing i with
  | zero => rfl
  | succ n ih =>
    rw [findProbe, Probe.find]
    by_cases h0 : (fs.recordIds i).id = 0
    · simp [h0, indexCells_eq_none.mpr h0]
    · simp only [h0, if_false, indexCells, ih]

lemma insertProbe_ok {id i n j : Nat} :
    insertProbe fs id i n = .ok j ↔ Probe.place (nextProbe fs) (indexCells fs) id i n = some j := by
  induction n generalizing i with
  | zero => simp [insertProbe, Probe.place]
  | succ n ih =>
    rw [insertProbe, Probe.place]
    by_cases h0 : (fs.recordIds i).id = 0
    · simp [h0, indexCells_eq_none.mpr h0]
    · simp only [h0, if_false, indexCells]
      by_cases hid : (fs.recordIds i).id = id
      · simp [hid]
      · simp only [hid, if_false]
        exact ih

lemma findRecordSlot_some {id s : Nat} :
    findRecordSlot fs id = some s ↔ id ≠ 0 ∧ fs.recordIdCapacity ≠ 0 ∧
      Probe.find (nextProbe fs) (indexCells fs) id (firstProbe fs id) fs.recordIdCapacity = some s := by
  rw [findRecordSlot, findProbe_eq]
  split
  · rename_i h
    exact ⟨by simp, fun hf => absurd h (not_or.mpr ⟨hf.1, hf.2.1⟩)⟩
  · rename_i h
    rw [not_or] at h
    exact ⟨fun hf => ⟨h.1, h.2, hf⟩, fun hf => hf.2.2⟩

section

variable {t j : Nat} (h : insertProbe fs id (firstProbe fs id) fs.recordIdCapacity = .ok j)

include h

lemma insertProbe_free : (fs.recordIds j).id = 0 :=
  indexCells_eq_none.mp (Probe.place_free (insertProbe_ok.mp h))

lemma findRecordSlot_set (hid : id ≠ 0) : findRecordSlot (setRecordRef fs j id t) id = some t := by
  refine findRecordSlot_some.mpr ⟨hid, fun h0 => ?_, ?_⟩
  · rw [show fs.recordIdCapacity = 0 from h0] at h
    cases h
  · rw [indexCells_set hid]
    exact Probe.find_place (insertProbe_ok.mp h)

lemma findRecordSlot_set_of_found (hid : id ≠ 0) {k s : Nat} (hk : findRecordSlot fs k = some s) :
    findRecordSlot (setRecordRef fs j id t) k = some s := by
  obtain ⟨hk0, hcap, hk⟩ := findRecordSlot_some.mp hk
  refine findRecordSlot_some.mpr ⟨hk0, hcap, ?_⟩
  rw [indexCells_set hid]
  exact Probe.find_update hk (indexCells_eq_none.mpr (insertProbe_free h)) _

end

def extentList (b : Buf) (i n : Nat) : List Extent :=
  (List.range' i n).map fun j => extentAt b (64 + j * 32)

def listChain (block : Nat → Buf) : Nat → Nat → List Nat
  | 0, _ => []
  | fuel + 1, list =>
    if list = 0 then [] else list :: listChain block fuel (getLe64 (block list) 16)

def listExtents (block : Nat → Buf) (lists : List Nat) : List Extent :=
  lists.flatMap fun b => extentList (block b) 0 (getLe64 (block b) 24)

/-- The blocks of a record: its extents, and the blocks of its extent list. -/
structure FileMap where
  extents : List Extent
  lists : List Nat

/-- Every accepted list block holds an extent, so a record with `n` extents has
at most `n` list blocks. -/
def fileMap (block : Nat → Buf) (r : Buf) : FileMap where
  extents := extentList r 0 (getLe64 r 48) ++
    listExtents block (listChain block (getLe64 r 40) (getLe64 r 56))
  lists := listChain block (getLe64 r 40) (getLe64 r 56)

def Extent.blocks (e : Extent) : List Nat := List.range' e.physicalStart e.blockCount

def extentBlocks (es : List Extent) : List Nat := es.flatMap Extent.blocks

def FileMap.blocks (m : FileMap) : List Nat := m.lists ++ extentBlocks m.extents

variable {b : Nat}

lemma Extent.mem_blocks {e : Extent} :
    b ∈ e.blocks ↔ e.physicalStart ≤ b ∧ b < e.physicalStart + e.blockCount := by
  rw [Extent.blocks, List.mem_range'_1]

lemma mem_extentBlocks {es : List Extent} :
    b ∈ extentBlocks es ↔ ∃ e ∈ es, e.physicalStart ≤ b ∧ b < e.physicalStart + e.blockCount := by
  simp only [extentBlocks, List.mem_flatMap, Extent.mem_blocks]

lemma extentBlocks_append (es fs : List Extent) :
    extentBlocks (es ++ fs) = extentBlocks es ++ extentBlocks fs :=
  List.flatMap_append

lemma extentBlocks_cons (e : Extent) (es : List Extent) :
    extentBlocks (e :: es) = e.blocks ++ extentBlocks es :=
  List.flatMap_cons

lemma extentList_succ (b : Buf) (i n : Nat) :
    extentList b i (n + 1) = extentAt b (64 + i * 32) :: extentList b (i + 1) n := rfl

@[simp] lemma length_extentList (b : Buf) (i n : Nat) : (extentList b i n).length = n := by
  simp [extentList]

lemma extentAt_congr {a b : Buf} {o p : Nat} (h : ∀ i < 32, a (o + i) = b (p + i)) :
    extentAt a o = extentAt b p := by
  have hg : ∀ k, k + 8 ≤ 32 → getLe64 a (o + k) = getLe64 b (p + k) := fun k hk =>
    getLe64_congr fun i hi => by rw [Nat.add_assoc, Nat.add_assoc]; exact h (k + i) (by omega)
  have h0 := hg 0 (by omega)
  simp only [Nat.add_zero] at h0
  simp only [extentAt, h0, hg 8 (by omega), hg 16 (by omega), hg 24 (by omega)]

lemma extentList_congr {a b : Buf} {i n : Nat}
    (h : ∀ k, 64 + i * 32 ≤ k → k < 64 + (i + n) * 32 → a k = b k) :
    extentList a i n = extentList b i n := by
  apply List.map_congr_left
  intro j hj
  rw [List.mem_range'_1] at hj
  exact extentAt_congr fun k hk => h _ (by omega) (by omega)

/-- The chain of list blocks from a head on, to the block that names no next one. -/
inductive Chain (block : Nat → Buf) : Nat → List Nat → Prop where
  | nil : Chain block 0 []
  | cons {list : Nat} {rest : List Nat} (h : list ≠ 0)
      (hr : Chain block (getLe64 (block list) 16) rest) : Chain block list (list :: rest)

variable {block : Nat → Buf} {list : Nat} {ls : List Nat}

lemma Chain.unique {ms : List Nat} (h : Chain block list ls)
    (h' : Chain block list ms) : ls = ms := by
  induction h generalizing ms with
  | nil =>
    cases h' with
    | nil => rfl
    | cons hn => exact absurd rfl hn
  | cons hne _ ih =>
    cases h' with
    | nil => exact absurd rfl hne
    | cons _ hr => rw [ih hr]

variable {fuel : Nat}

lemma Chain.listChain
    (h : Chain block list ls) (hf : ls.length ≤ fuel) : listChain block fuel list = ls := by
  induction h generalizing fuel with
  | nil => cases fuel <;> simp [Mgfs.listChain]
  | cons hne _ ih =>
    cases fuel with
    | zero => simp at hf
    | succ fuel =>
      rw [Mgfs.listChain, if_neg hne, ih (by simpa using hf)]

variable {other : Nat → Buf}

section

variable (h : Chain block list ls)

include h

lemma Chain.ne_zero : ∀ b ∈ ls, b ≠ 0 := by
  induction h with
  | nil => simp
  | cons hne _ ih => simpa using ⟨hne, ih⟩

lemma Chain.congr (hb : ∀ b ∈ ls, other b = block b) : Chain other list ls := by
  induction h with
  | nil => exact .nil
  | cons hne _ ih =>
    refine .cons hne ?_
    rw [hb _ (by simp)]
    exact ih fun b hm => hb b (List.mem_cons_of_mem _ hm)

lemma Chain.transfer {P : Nat → Prop} (hf : ls.length ≤ fuel)
    (ha : ∀ b, P b → other b = block b) (hp : ∀ b ∈ Mgfs.listChain other fuel list, P b) :
    Chain other list ls ∧ Mgfs.listChain other fuel list = ls := by
  induction h generalizing fuel with
  | nil => exact ⟨.nil, by cases fuel <;> simp [Mgfs.listChain]⟩
  | @cons list rest hne _ ih =>
    cases fuel with
    | zero => simp at hf
    | succ fuel =>
      rw [Mgfs.listChain, if_neg hne] at hp ⊢
      have hb := ha list (hp list (by simp))
      have ih' := @ih fuel (by simpa using hf) fun b hb' => hp b (by
        rw [hb]; exact List.mem_cons_of_mem _ hb')
      rw [hb]
      exact ⟨.cons hne (by rw [hb]; exact ih'.1), by rw [ih'.2]⟩

end

lemma listExtents_congr
    (h : ∀ b ∈ ls, other b = block b) : listExtents other ls = listExtents block ls := by
  apply List.flatMap_congr
  intro b hb
  rw [h b hb]

lemma listChain_congr (h : ∀ b ∈ listChain block fuel list, other b = block b) :
    listChain other fuel list = listChain block fuel list := by
  induction fuel generalizing list with
  | zero => rfl
  | succ fuel ih =>
    rw [listChain] at h ⊢
    rw [listChain]
    by_cases hl : list = 0
    · simp [hl]
    · rw [if_neg hl] at h ⊢
      rw [if_neg hl]
      rw [h list (by simp), ih fun b hb => h b (List.mem_cons_of_mem _ hb)]

lemma fileMap_congr {r : Buf}
    (h : ∀ b ∈ (fileMap block r).lists, other b = block b) : fileMap other r = fileMap block r := by
  have hc := listChain_congr h
  have he : listExtents other (listChain block (getLe64 r 40) (getLe64 r 56)) = _ :=
    listExtents_congr h
  simp only [fileMap, hc, he]

section

variable {σ : Type}

lemma walkExtents_eq (step : σ → Extent → Res σ) (b : Buf) (i n : Nat) (s : σ) :
    walkExtents step b i n s = (extentList b i n).foldlM step s := by
  induction n generalizing i s with
  | zero => rfl
  | succ n ih =>
    rw [walkExtents, extentList_succ, List.foldlM_cons]
    congr 1
    funext s'
    exact ih (i + 1) s'

variable {step : σ → Extent → Res σ} {s u : σ}

lemma foldlM_append_ok {es fs : List Extent} :
    (es ++ fs).foldlM step s = .ok u ↔ ∃ t, es.foldlM step s = .ok t ∧ fs.foldlM step t = .ok u := by
  rw [List.foldlM_append, except_bind_ok]

variable {enter : σ → Nat → Res (Buf × Nat)}

lemma walkLists_chain {block : Nat → Buf} (he : ∀ s list b n, enter s list = .ok (b, n) →
      b = block list ∧ n = getLe64 (block list) 24) {fuel list : Nat}
    (h : walkLists enter step fuel list s = .ok u) :
    ∃ ls, Chain block list ls ∧ (listExtents block ls).foldlM step s = .ok u ∧
      ∀ pre l post, ls = pre ++ l :: post → ∃ t x, (listExtents block pre).foldlM step s = .ok t ∧
        enter t l = .ok x := by
  induction fuel generalizing list s with
  | zero =>
    rw [walkLists] at h
    split at h
    · subst list
      cases h
      exact ⟨[], .nil, rfl, by simp⟩
    · cases h
  | succ fuel ih =>
    rw [walkLists] at h
    split at h
    · subst list
      cases h
      exact ⟨[], .nil, rfl, by simp⟩
    · rename_i hne
      rw [except_bind_ok] at h
      obtain ⟨⟨b, n⟩, hen, h⟩ := h
      obtain ⟨rfl, rfl⟩ := he _ _ _ _ hen
      rw [except_bind_ok] at h
      obtain ⟨t, hw, h⟩ := h
      rw [walkExtents_eq] at hw
      obtain ⟨ls, hc, hf, henter⟩ := ih h
      refine ⟨list :: ls, .cons hne hc, ?_, ?_⟩
      · rw [listExtents, List.flatMap_cons, foldlM_append_ok]
        exact ⟨t, hw, hf⟩
      · intro pre l post hpre
        cases pre with
        | nil =>
          cases hpre
          exact ⟨s, _, rfl, hen⟩
        | cons p pre =>
          obtain ⟨rfl, rfl⟩ := List.cons.inj hpre
          obtain ⟨v, x, hv, hx⟩ := henter pre l post rfl
          refine ⟨v, x, ?_, hx⟩
          rw [listExtents, List.flatMap_cons, foldlM_append_ok]
          exact ⟨t, hw, hv⟩

lemma walkLists_of_chain
    {block : Nat → Buf} {fuel list : Nat} {ls : List Nat} (hc : Chain block list ls)
    (hfuel : ls.length ≤ fuel) (hf : (listExtents block ls).foldlM step s = .ok u)
    (he : ∀ pre l post t, ls = pre ++ l :: post → (listExtents block pre).foldlM step s = .ok t →
      enter t l = .ok (block l, getLe64 (block l) 24)) :
    walkLists enter step fuel list s = .ok u := by
  induction hc generalizing fuel s with
  | nil =>
    cases hf
    cases fuel <;> simp [walkLists]
  | @cons list rest hne _ ih =>
    cases fuel with
    | zero => simp at hfuel
    | succ fuel =>
      rw [listExtents, List.flatMap_cons, foldlM_append_ok] at hf
      obtain ⟨t, ht, hf⟩ := hf
      rw [walkLists, if_neg hne, he [] list rest s rfl rfl, except_bind_ok]
      refine ⟨_, rfl, ?_⟩
      rw [except_bind_ok]
      refine ⟨t, by rw [walkExtents_eq, ht], ih (by simpa using hfuel) hf ?_⟩
      intro pre l post v hpre hv
      refine he (list :: pre) l post v (by rw [hpre]; rfl) ?_
      rw [listExtents, List.flatMap_cons, foldlM_append_ok]
      exact ⟨t, ht, hv⟩

end

/-- Extents that follow each other in the stream, from a block on, all with the flag. -/
def Laid (flag : Nat) : Nat → List Extent → Prop
  | _, [] => True
  | start, e :: es => e.logicalStart = start ∧ e.blockCount ≠ 0 ∧ e.flags = flag ∧
      Laid flag (add64 start e.blockCount) es

/-- How many blocks of the stream the extents hold. -/
def covered (es : List Extent) : Nat := (es.map Extent.blockCount).sum

variable {capacity flag : Nat} {es : List Extent} {s : CollectState}

lemma collect_foldlM {u : CollectState} (h : es.foldlM (collectExtent capacity flag) s = .ok u) :
    u.extents = s.extents ++ es ∧ Laid flag s.expected es ∧
      (es ≠ [] → u.extents.length ≤ capacity) := by
  induction es generalizing s with
  | nil =>
    cases h
    simp [Laid]
  | cons e es ih =>
    rw [List.foldlM_cons, except_bind_ok] at h
    obtain ⟨t, ht, h⟩ := h
    simp only [collectExtent, except_bind_ok, ensure_ok, exists_const] at ht
    obtain ⟨⟨hlen, hstart, hcount, hflag⟩, hp⟩ := ht
    cases hp
    obtain ⟨h1, h2, h3⟩ := ih h
    refine ⟨by rw [h1]; simp, ⟨hstart, hcount, hflag, h2⟩, fun _ => ?_⟩
    by_cases hes : es = []
    · subst es
      rw [h1]
      simp only [List.append_nil, List.length_append, List.length_singleton]
      omega
    · exact h3 hes

lemma collect_foldlM_of
    (hl : Laid flag s.expected es) (hc : s.extents.length + es.length ≤ capacity) :
    ∃ x, es.foldlM (collectExtent capacity flag) s = .ok ⟨x, s.extents ++ es⟩ := by
  induction es generalizing s with
  | nil => exact ⟨s.expected, by simp [pure, Except.pure]⟩
  | cons e es ih =>
    obtain ⟨h1, h2, h3, h4⟩ := hl
    rw [List.length_cons] at hc
    have hstep : collectExtent capacity flag s e =
        .ok ⟨add64 s.expected e.blockCount, s.extents ++ [e]⟩ := by
      simp only [collectExtent, ensure]
      rw [if_pos ⟨by omega, h1, h2, h3⟩]
      rfl
    obtain ⟨x, hx⟩ := ih (s := ⟨add64 s.expected e.blockCount, s.extents ++ [e]⟩) h4 (by
      simp only [List.length_append, List.length_singleton]
      omega)
    refine ⟨x, ?_⟩
    rw [List.foldlM_cons, hstep, except_bind_ok]
    exact ⟨_, rfl, by simpa using hx⟩

/-- What the driver demands of a block of an extent list. -/
structure ListBlockOk (block : Buf) (owner : Nat) : Prop where
  magic : getLe64 block 0 = extentListMagic
  owner : getLe64 block 8 = owner
  entries_ne : getLe64 block 24 ≠ 0
  entries_le : getLe64 block 24 ≤ extentsPerListBlock
  checksum : checksumBlock block 32 blockBytes = true

lemma collectEnter_ok {b : Buf} {n : Nat} : collectEnter w r s list = .ok (b, n) ↔
      s.extents.length < getLe64 r 40 ∧ readBlock w list = .ok b ∧
        n = getLe64 b 24 ∧ ListBlockOk b (getLe64 r 16) := by
  simp only [collectEnter, except_bind_ok, ensure_ok, orElse_ok, exists_const, pure, Except.pure,
    Except.ok.injEq, Prod.mk.injEq]
  constructor
  · rintro ⟨x, ⟨hlt, y, hr, ⟨hm, ho⟩, rfl⟩, he, hc, rfl, rfl⟩
    exact ⟨hlt, hr, rfl, hm, ho, he.1, he.2, hc⟩
  · rintro ⟨hlt, hr, rfl, hl⟩
    exact ⟨b, ⟨hlt, b, hr, ⟨hl.magic, hl.owner⟩, rfl⟩, ⟨hl.entries_ne, hl.entries_le⟩, hl.checksum,
      rfl, rfl⟩

lemma listExtents_append (block : Nat → Buf) (ls ms : List Nat) :
    listExtents block (ls ++ ms) = listExtents block ls ++ listExtents block ms :=
  List.flatMap_append

lemma length_le_listExtents
    (h : ∀ b ∈ ls, getLe64 (block b) 24 ≠ 0) : ls.length ≤ (listExtents block ls).length := by
  induction ls with
  | nil => simp
  | cons l ls ih =>
    have h1 := h l (by simp)
    have h2 := ih fun b hb => h b (List.mem_cons_of_mem _ hb)
    rw [listExtents, List.flatMap_cons, List.length_append, length_extentList, List.length_cons]
    rw [listExtents] at h2
    omega

/-- The extents of a record, collected from it and from its list blocks. -/
structure Collected (block : Nat → Buf) (r : Buf) (flag : Nat) (ls : List Nat) (es : List Extent) :
    Prop where
  chain : Chain block (getLe64 r 56) ls
  extents : es = extentList r 0 (getLe64 r 48) ++ listExtents block ls
  laid : Laid flag 0 es
  length : es.length = getLe64 r 40
  lists : ∀ b ∈ ls, ListBlockOk (block b) (getLe64 r 16)

lemma collectFileExtents_ok (h : collectFileExtents w r capacity flag = .ok es) :
    (∃ ls, Collected w.dev.block r flag ls es) ∧ (es ≠ [] → es.length ≤ capacity) := by
  simp only [collectFileExtents, except_bind_ok, ensure_ok, exists_const] at h
  obtain ⟨s, hs, u, hu, hlen, hp⟩ := h
  cases hp
  rw [walkExtents_eq] at hs
  have hblock : ∀ s list b n, collectEnter w r s list = .ok (b, n) →
      b = w.dev.block list ∧ n = getLe64 (w.dev.block list) 24 := by
    intro s list b n he
    obtain ⟨-, hr, hn, -⟩ := collectEnter_ok.mp he
    cases readBlock_eq hr
    exact ⟨rfl, hn⟩
  obtain ⟨ls, hc, hf, henter⟩ := walkLists_chain hblock hu
  have hall := foldlM_append_ok.mpr ⟨s, hs, hf⟩
  obtain ⟨h1, h2, h3⟩ := collect_foldlM hall
  refine ⟨⟨ls, hc, h1, by rw [h1]; exact h2, hlen, fun b hb => ?_⟩, fun hne => h3 (h1 ▸ hne)⟩
  obtain ⟨pre, post, hpre⟩ := List.append_of_mem hb
  obtain ⟨t, x, -, hx⟩ := henter pre b post hpre
  obtain ⟨-, hr, -, hok⟩ := collectEnter_ok.mp hx
  rwa [readBlock_eq hr] at hok

lemma Collected.lists_length (h : Collected block r flag ls es) : ls.length ≤ getLe64 r 40 := by
  have h1 := length_le_listExtents fun b hb => (h.lists b hb).entries_ne
  have h2 := h.length
  rw [h.extents, List.length_append] at h2
  omega

lemma Collected.fileMap (h : Collected block r flag ls es) : fileMap block r = ⟨es, ls⟩ := by
  simp only [Mgfs.fileMap, h.chain.listChain h.lists_length, ← h.extents]

lemma collectFileExtents_of (h : Collected w.dev.block r flag ls es) (hcap : es.length ≤ capacity)
    (hr : ∀ b ∈ ls, readBlock w b = .ok (w.dev.block b)) :
    collectFileExtents w r capacity flag = .ok es := by
  have hlaid := h.laid
  rw [h.extents] at hlaid hcap
  obtain ⟨x, hx⟩ := collect_foldlM_of (s := ⟨0, []⟩) hlaid (by simpa using hcap)
  obtain ⟨t, ht, hu⟩ := foldlM_append_ok.mp hx
  have hfuel : ls.length ≤ getLe64 r 40 + 1 := by have := h.lists_length; omega
  have hall : walkLists (collectEnter w r) (collectExtent capacity flag) (getLe64 r 40 + 1)
      (getLe64 r 56) t = .ok _ := walkLists_of_chain h.chain hfuel hu ?_
  · simp only [collectFileExtents, except_bind_ok, ensure_ok, exists_const]
    refine ⟨t, by rw [walkExtents_eq, ht], _, hall, ?_, ?_⟩
    · rw [List.nil_append, ← h.extents]
      exact h.length
    · rw [List.nil_append, ← h.extents]
      rfl
  · intro pre l post v hpre hv
    have hl := h.lists l (by rw [hpre]; simp)
    have hlen : v.extents.length < getLe64 r 40 := by
      have h1 := (collect_foldlM ht).1
      have h2 := (collect_foldlM hv).1
      have h3 := h.length
      have h4 := hl.entries_ne
      rw [h.extents, hpre, listExtents_append] at h3
      rw [h2, h1]
      simp only [List.nil_append, List.length_append] at h3 ⊢
      have h5 : (listExtents w.dev.block (l :: post)).length =
          getLe64 (w.dev.block l) 24 + (listExtents w.dev.block post).length := by
        rw [listExtents, List.flatMap_cons, List.length_append, length_extentList]
        rfl
      omega
    exact collectEnter_ok.mpr ⟨hlen, hr l (by rw [hpre]; simp), rfl, hl⟩

/-- All blocks that the record in slot `s` owns. -/
def recordBlocks (v : Vol) (s : Nat) : List Nat := (fileMap v.block (v.record s)).blocks

/-- The record in slot `s` owns its blocks once each, and they are in use. -/
structure Owned (v : Vol) (s : Nat) : Prop where
  nodup : (recordBlocks v s).Nodup
  used : ∀ b ∈ recordBlocks v s, v.used b = true

/-- The record in slot `s` was rewritten, with its old blocks and free ones. -/
structure Rewrites (v v' : Vol) (s : Nat) : Prop where
  live : v'.live = v.live
  record : ∀ t, t ≠ s → v'.record t = v.record t
  used : ∀ b, b ∉ recordBlocks v s → v.used b = true → v'.used b = true
  block : ∀ b, b ∉ recordBlocks v s → v.used b = true → v'.block b = v.block b
  owned : Owned v' s
  fresh : ∀ b ∈ recordBlocks v' s, b ∈ recordBlocks v s ∨ v.used b = false

lemma mem_blocks_of_list {m : FileMap} (h : b ∈ m.lists) : b ∈ m.blocks :=
  List.mem_append_left _ h

lemma mem_blocks_of_extent {m : FileMap} (h : b ∈ extentBlocks m.extents) :
    b ∈ m.blocks :=
  List.mem_append_right _ h

lemma Owned.refl_rewrites {v : Vol} {s : Nat} (h : Owned v s) : Rewrites v v s :=
  ⟨rfl, fun _ _ => rfl, fun _ _ h => h, fun _ _ _ => rfl, h, fun _ h => .inl h⟩

def Bounded (es : List Extent) : Prop := ∀ e ∈ es, e.physicalStart + e.blockCount < 2 ^ 64

lemma length_extentBlocks (es : List Extent) : (extentBlocks es).length = covered es := by
  induction es with
  | nil => rfl
  | cons e es ih =>
    rw [extentBlocks_cons, List.length_append, ih, Extent.blocks, List.length_range', covered,
      covered, List.map_cons, List.sum_cons]

lemma covered_cons (e : Extent) (es : List Extent) :
    covered (e :: es) = e.blockCount + covered es := by
  simp [covered]

lemma covered_append (es fs : List Extent) : covered (es ++ fs) = covered es + covered fs := by
  simp [covered]

lemma add64_of_lt {a b : Nat} (h : a + b < 2 ^ 64) : add64 a b = a + b := Nat.mod_eq_of_lt h

variable {es : List Extent}

variable {start n : Nat}

variable {flag : Nat}

lemma laid_ne_zero (h : Laid flag start es) : ∀ e ∈ es, e.blockCount ≠ 0 ∧ e.flags = flag := by
  induction es generalizing start with
  | nil => simp
  | cons e es ih =>
    obtain ⟨-, h2, h3, h4⟩ := h
    intro x hx
    rcases List.mem_cons.mp hx with rfl | hx
    · exact ⟨h2, h3⟩
    · exact ih h4 x hx

lemma length_le_covered (h : Laid flag start es) : es.length ≤ covered es := by
  induction es generalizing start with
  | nil => simp
  | cons e es ih =>
    have := ih h.2.2.2
    have := h.2.1
    rw [List.length_cons, covered_cons]
    omega

lemma laid_append {fs : List Extent} (hn : start + covered es < 2 ^ 64) :
    Laid flag start (es ++ fs) ↔ Laid flag start es ∧ Laid flag (start + covered es) fs := by
  induction es generalizing start with
  | nil => simp [Laid, covered]
  | cons e es ih =>
    rw [covered_cons] at hn ⊢
    rw [List.cons_append, Laid, Laid, add64_of_lt (by omega), ih (by omega), ← Nat.add_assoc]
    tauto

lemma getLast_split {α : Type} {l : List α} {a : α} (h : l.getLast? = some a) :
    l = l.dropLast ++ [a] := by
  cases l with
  | nil => cases h
  | cons x xs =>
    rw [List.getLast?_eq_some_getLast (by simp)] at h
    cases h
    exact (List.dropLast_append_getLast (by simp)).symm

variable {physical : Nat}

section

variable (hb : Bounded es)

include hb

lemma extentBlocks_appendBlock (logical physical flag : Nat) :
    extentBlocks (appendBlock es logical physical flag) = extentBlocks es ++ [physical] := by
  have hone : extentBlocks [⟨logical, physical, 1, flag⟩] = [physical] := by
    simp [extentBlocks, Extent.blocks]
  rw [appendBlock]
  cases hl : es.getLast? with
  | none =>
    rw [List.getLast?_eq_none_iff] at hl
    simpa [hl, extentBlocks] using hone
  | some last =>
    have hsplit := getLast_split hl
    have hlast := hb last (by rw [hsplit]; simp)
    simp only []
    rw [add64_of_lt hlast]
    by_cases hadj : last.physicalStart + last.blockCount = physical
    · rw [if_pos hadj]
      nth_rewrite 2 [hsplit]
      rw [extentBlocks_append, extentBlocks_append, List.append_assoc]
      congr 1
      simp only [extentBlocks, List.flatMap_singleton, Extent.blocks]
      rw [List.range'_concat, Nat.one_mul, hadj]
    · rw [if_neg hadj, extentBlocks_append, hone]

lemma laid_appendBlock (hl : Laid flag 0 es) (hc : covered es + 1 < 2 ^ 64) :
    Laid flag 0 (appendBlock es (covered es) physical flag) := by
  rw [appendBlock]
  cases hlast : es.getLast? with
  | none =>
    rw [List.getLast?_eq_none_iff] at hlast
    subst es
    exact ⟨rfl, one_ne_zero, rfl, trivial⟩
  | some last =>
    have hsplit := getLast_split hlast
    have hbl := hb last (by rw [hsplit]; simp)
    simp only []
    rw [add64_of_lt hbl]
    by_cases hadj : last.physicalStart + last.blockCount = physical
    · rw [if_pos hadj]
      rw [hsplit, covered_append] at hc
      rw [hsplit, laid_append (by omega)] at hl
      rw [laid_append (by omega)]
      exact ⟨hl.1, hl.2.1, by simp, hl.2.2.2.1, trivial⟩
    · rw [if_neg hadj, laid_append (by omega)]
      exact ⟨hl, by simp, one_ne_zero, rfl, trivial⟩

lemma covered_appendBlock (logical physical flag : Nat) :
    covered (appendBlock es logical physical flag) = covered es + 1 := by
  rw [← length_extentBlocks, extentBlocks_appendBlock hb, List.length_append, length_extentBlocks]
  rfl

end

lemma length_appendBlock {es : List Extent} {logical physical flag : Nat} :
    es.length ≤ (appendBlock es logical physical flag).length ∧
      (appendBlock es logical physical flag).length ≤ es.length + 1 := by
  rw [appendBlock]
  cases hlast : es.getLast? with
  | none =>
    rw [List.getLast?_eq_none_iff] at hlast
    subst es
    simp
  | some last =>
    have hlen := congrArg List.length (getLast_split hlast)
    simp only [List.length_append, List.length_singleton] at hlen
    simp only []
    split
    · simp only [List.length_append, List.length_singleton]
      omega
    · simp

lemma take_appendBlock {logical k : Nat} (h : k < es.length) :
    (appendBlock es logical physical flag).take k = es.take k := by
  rw [appendBlock]
  cases hlast : es.getLast? with
  | none =>
    rw [List.getLast?_eq_none_iff] at hlast
    subst es
    simp at h
  | some last =>
    have hsplit := getLast_split hlast
    have hlen := congrArg List.length hsplit
    simp only [List.length_append, List.length_singleton] at hlen
    simp only []
    split
    · nth_rewrite 2 [hsplit]
      rw [List.take_append_of_le_length (by omega), List.take_append_of_le_length (by omega)]
    · rw [List.take_append_of_le_length (by omega)]

lemma extentContainsBlock_iff {b : Nat} :
    extentContainsBlock es b = true ↔ b ∈ extentBlocks es := by
  simp only [extentContainsBlock, List.any_eq_true, decide_eq_true_eq, mem_extentBlocks]
  constructor
  all_goals
    rintro ⟨e, he, h1, h2⟩
    exact ⟨e, he, h1, by omega⟩

end Mangrove.Mgfs
