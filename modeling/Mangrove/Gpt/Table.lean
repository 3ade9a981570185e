import Mangrove.Bytes
import Mangrove.Lib.Media

/-! The GPT partition array, the planner that finds room in it, and headers. Both copies of a
table must be whole and agree to be loaded; a power loss during an update leaves one whole. -/

namespace Mangrove.Gpt

def maxPartitionEntries : Nat := 128

def partitionEntryBytes : Nat := 128

def guidBytes : Nat := 16

def alignmentBytes : Nat := 1024 * 1024

/-- The part of `gpt_table_t` that planning reads; the bounds are those of a `u64`. -/
structure Table where
  entryCount : Nat
  firstUsable : Nat
  lastUsable : Nat
  firstUsable_le : firstUsable ≤ u64Max
  lastUsable_le : lastUsable ≤ u64Max

def guidIsZero (entries : Buf) (o : Nat) : Bool :=
  (List.range guidBytes).all fun k => entries (o + k) == 0

def gptEntryUsed (entries : Buf) (index : Nat) : Bool :=
  (List.range guidBytes).any fun k => entries (index * partitionEntryBytes + k) != 0

def entryFirst (entries : Buf) (index : Nat) : Nat :=
  getLe64 entries (index * partitionEntryBytes + 32)

def entryLast (entries : Buf) (index : Nat) : Nat :=
  getLe64 entries (index * partitionEntryBytes + 40)

def sameGuid (entries : Buf) (index other : Nat) : Bool :=
  (List.range guidBytes).all fun k =>
    entries (index * partitionEntryBytes + 16 + k) == entries (other * partitionEntryBytes + 16 + k)

def gptEntryValid (entries : Buf) (firstUsable lastUsable index : Nat) : Prop :=
  guidIsZero entries (index * partitionEntryBytes + 16) = false ∧
    entryFirst entries index ≤ entryLast entries index ∧
    firstUsable ≤ entryFirst entries index ∧ entryLast entries index ≤ lastUsable ∧
    ∀ prior < index, gptEntryUsed entries prior = true →
      sameGuid entries index prior = false ∧
        ¬ (entryFirst entries index ≤ entryLast entries prior ∧
          entryFirst entries prior ≤ entryLast entries index)

instance (entries : Buf) (firstUsable lastUsable index : Nat) :
    Decidable (gptEntryValid entries firstUsable lastUsable index) :=
  inferInstanceAs (Decidable (_ ∧ _ ∧ _ ∧ _ ∧ _))

/-- The number of used entries, if the array is valid. -/
def gptEntriesValid (entries : Buf) (entryCount firstUsable lastUsable : Nat) : Option Nat :=
  if entryCount > maxPartitionEntries ∨ firstUsable > lastUsable then none
  else if ∀ index < entryCount, gptEntryUsed entries index = true →
      gptEntryValid entries firstUsable lastUsable index then
    some ((List.range entryCount).countP (gptEntryUsed entries))
  else none

def SameEntry (a b : Buf) (index : Nat) : Prop :=
  ∀ k < partitionEntryBytes,
    a (index * partitionEntryBytes + k) = b (index * partitionEntryBytes + k)

section

variable {a b : Buf} {index other : Nat} (h : SameEntry a b index)

include h

lemma SameEntry.used : gptEntryUsed a index = gptEntryUsed b index := by
  unfold gptEntryUsed
  rw [Bool.eq_iff_iff, List.any_eq_true, List.any_eq_true]
  refine exists_congr fun k => and_congr_right fun hk => ?_
  have := List.mem_range.mp hk
  rw [h k (by simp only [guidBytes] at this; simp only [partitionEntryBytes]; omega)]

lemma SameEntry.first : entryFirst a index = entryFirst b index :=
  getLe64_congr fun k hk => by
    rw [Nat.add_assoc, h (32 + k) (by simp only [partitionEntryBytes]; omega)]

lemma SameEntry.last : entryLast a index = entryLast b index :=
  getLe64_congr fun k hk => by
    rw [Nat.add_assoc, h (40 + k) (by simp only [partitionEntryBytes]; omega)]

lemma SameEntry.uniqueGuid {k : Nat} (hk : k < guidBytes) :
    a (index * partitionEntryBytes + 16 + k) = b (index * partitionEntryBytes + 16 + k) := by
  rw [Nat.add_assoc, h (16 + k) (by simp only [guidBytes] at hk; simp only [partitionEntryBytes]; omega)]

lemma SameEntry.guidIsZero : guidIsZero a (index * partitionEntryBytes + 16) =
      guidIsZero b (index * partitionEntryBytes + 16) := by
  unfold Gpt.guidIsZero
  rw [Bool.eq_iff_iff, List.all_eq_true, List.all_eq_true]
  refine forall₂_congr fun k hk => ?_
  rw [h.uniqueGuid (List.mem_range.mp hk)]

lemma SameEntry.sameGuid (h' : SameEntry a b other) :
    sameGuid a index other = sameGuid b index other := by
  unfold Gpt.sameGuid
  rw [Bool.eq_iff_iff, List.all_eq_true, List.all_eq_true]
  refine forall₂_congr fun k hk => ?_
  rw [h.uniqueGuid (List.mem_range.mp hk), h'.uniqueGuid (List.mem_range.mp hk)]

end

lemma sameGuid_comm (entries : Buf) (index other : Nat) :
    sameGuid entries index other = sameGuid entries other index := by
  unfold sameGuid
  rw [Bool.eq_iff_iff, List.all_eq_true, List.all_eq_true]
  refine forall₂_congr fun k _ => ?_
  rw [beq_iff_eq, beq_iff_eq, eq_comm]

/-- A valid array: every used entry is a range of usable sectors with a GUID, and any two
have different GUIDs and lie apart. -/
structure EntriesValid (entries : Buf) (entryCount firstUsable lastUsable : Nat) : Prop where
  count : entryCount ≤ maxPartitionEntries
  order : firstUsable ≤ lastUsable
  guid : ∀ i < entryCount, gptEntryUsed entries i = true →
    guidIsZero entries (i * partitionEntryBytes + 16) = false
  ranges : ∀ i < entryCount, gptEntryUsed entries i = true →
    firstUsable ≤ entryFirst entries i ∧ entryFirst entries i ≤ entryLast entries i ∧
      entryLast entries i ≤ lastUsable
  distinct : ∀ i < entryCount, ∀ j < entryCount, gptEntryUsed entries i = true →
    gptEntryUsed entries j = true → i ≠ j → sameGuid entries i j = false
  disjoint : ∀ i < entryCount, ∀ j < entryCount, gptEntryUsed entries i = true →
    gptEntryUsed entries j = true → i ≠ j →
    entryLast entries j < entryFirst entries i ∨ entryLast entries i < entryFirst entries j

lemma gptEntriesValid_iff {entries : Buf} {entryCount firstUsable lastUsable used : Nat} :
    gptEntriesValid entries entryCount firstUsable lastUsable = some used ↔
      EntriesValid entries entryCount firstUsable lastUsable ∧
        (List.range entryCount).countP (gptEntryUsed entries) = used := by
  unfold gptEntriesValid
  by_cases hsize : entryCount > maxPartitionEntries ∨ firstUsable > lastUsable
  · rw [if_pos hsize]
    refine ⟨nofun, fun h => ?_⟩
    have h1 := h.1.count
    have h2 := h.1.order
    omega
  · rw [if_neg hsize]
    refine ⟨fun h => ?_, fun h => ?_⟩
    · split at h
      · next hall =>
        refine ⟨⟨by omega, by omega, fun i hi hu => (hall i hi hu).1, fun i hi hu => ?_,
          fun i hi j hj hui huj hne => ?_, fun i hi j hj hui huj hne => ?_⟩, Option.some.inj h⟩
        · obtain ⟨-, h1, h2, h3, -⟩ := hall i hi hu
          exact ⟨h2, h1, h3⟩
        · rcases Nat.lt_or_gt_of_ne hne with hlt | hlt
          · rw [sameGuid_comm]
            exact ((hall j hj huj).2.2.2.2 i hlt hui).1
          · exact ((hall i hi hui).2.2.2.2 j hlt huj).1
        · rcases Nat.lt_or_gt_of_ne hne with hlt | hlt
          · have := ((hall j hj huj).2.2.2.2 i hlt hui).2
            omega
          · have := ((hall i hi hui).2.2.2.2 j hlt huj).2
            omega
      · cases h
    · obtain ⟨hv, rfl⟩ := h
      rw [if_pos]
      intro i hi hu
      obtain ⟨h2, h1, h3⟩ := hv.ranges i hi hu
      refine ⟨hv.guid i hi hu, h1, h2, h3, fun j hlt huj => ⟨?_, ?_⟩⟩
      · exact hv.distinct i hi j (by omega) hu huj (by omega)
      · have := hv.disjoint i hi j (by omega) hu huj (by omega)
        omega

lemma gptEntriesValid_congr {a b : Buf} {entryCount firstUsable lastUsable : Nat}
    (h : ∀ i < entryCount * partitionEntryBytes, a i = b i) :
    gptEntriesValid a entryCount firstUsable lastUsable =
      gptEntriesValid b entryCount firstUsable lastUsable := by
  have hentry {index : Nat} (hi : index < entryCount) : SameEntry a b index := by
    intro k hk
    refine h _ ?_
    simp only [partitionEntryBytes] at hk ⊢
    omega
  have hvalid {index : Nat} (hi : index < entryCount) :
      gptEntryValid a firstUsable lastUsable index ↔ gptEntryValid b firstUsable lastUsable index := by
    have hsame := hentry hi
    unfold gptEntryValid
    rw [hsame.guidIsZero, hsame.first, hsame.last]
    refine and_congr_right fun _ => and_congr_right fun _ => and_congr_right fun _ =>
      and_congr_right fun _ => forall₂_congr fun prior hprior => ?_
    have hother := hentry (show prior < entryCount by omega)
    rw [hother.used, hsame.sameGuid hother, hother.last, hother.first]
  have hall : (∀ index < entryCount, gptEntryUsed a index = true →
      gptEntryValid a firstUsable lastUsable index) ↔
      ∀ index < entryCount, gptEntryUsed b index = true →
        gptEntryValid b firstUsable lastUsable index :=
    forall₂_congr fun index hi => by rw [(hentry hi).used, hvalid hi]
  have hcount : (List.range entryCount).countP (gptEntryUsed a) =
      (List.range entryCount).countP (gptEntryUsed b) :=
    List.countP_congr fun index hi => by rw [(hentry (List.mem_range.mp hi)).used]
  unfold gptEntriesValid
  simp only [hall, hcount]

def alignmentSectors (sectorSize : Nat) : Nat :=
  if sectorSize = 0 then 0 else (alignmentBytes + sectorSize - 1) / sectorSize

def addU64 (left right : Nat) : Option Nat :=
  if left > u64Max - right then none else some (left + right)

def multiplyU64 (left right : Nat) : Option Nat :=
  if left ≠ 0 ∧ right > u64Max / left then none else some (left * right)

def alignUp (value alignment : Nat) : Option Nat :=
  if alignment = 0 then none
  else if value % alignment = 0 then some value
  else addU64 value (alignment - value % alignment)

/-- The used entry with the lowest first sector in `[cursor, limit)`, as its first
and last sector; `(limit, 0)` if there is none. -/
def nextUsed (entries : Buf) (cursor limit : Nat) : Nat → Nat × Nat
  | 0 => (limit, 0)
  | n + 1 =>
    let next := nextUsed entries cursor limit n
    if gptEntryUsed entries n ∧ cursor ≤ entryFirst entries n ∧ entryFirst entries n < next.1 then
      (entryFirst entries n, entryLast entries n)
    else next

/-- The size of a new partition in bytes, or all that is left. -/
inductive Request where
  | bytes (requestedBytes : Nat)
  | rest

/-- The best range found so far; a size of zero stands for none. -/
structure Best where
  first : Nat
  last : Nat
  size : Nat

def candidate (alignment cursor gapLast : Nat) : Option (Nat × Nat) :=
  match alignUp cursor alignment with
  | some first => if first ≤ gapLast then some (first, add64 (sub64 gapLast first) 1) else none
  | none => none

def planLoop (t : Table) (entries : Buf) (alignment : Nat) (requestedSectors : Option Nat) :
    Nat → Nat → Best → Option Best
  | 0, _, _ => none
  | fuel + 1, cursor, best =>
    let limit := add64 t.lastUsable 1
    let next := nextUsed entries cursor limit t.entryCount
    let gapLast := if next.1 = limit then t.lastUsable else sub64 next.1 1
    let stop := next.1 = limit ∨ next.2 ≥ t.lastUsable
    let cursor' := add64 next.2 1
    match candidate alignment cursor gapLast, requestedSectors with
    | some (first, size), some sectors =>
      if size ≥ sectors then some ⟨first, sub64 (add64 first sectors) 1, sectors⟩
      else if stop then some best
      else planLoop t entries alignment requestedSectors fuel cursor' best
    | some (first, size), none =>
      let best := if size > best.size then ⟨first, gapLast, size⟩ else best
      if stop then some best
      else planLoop t entries alignment requestedSectors fuel cursor' best
    | none, _ =>
      if stop then some best
      else planLoop t entries alignment requestedSectors fuel cursor' best

/-- A `gpt_partition_plan_t`. -/
structure Plan where
  firstLba : Nat
  lastLba : Nat
  sizeBytes : Nat
  partitionNumber : Nat
deriving DecidableEq

def finishPlan (t : Table) (entries : Buf) (sectorSize : Nat) (best : Best) : Option Plan :=
  if best.size = 0 ∨ best.last < best.first then none
  else
    match (List.range t.entryCount).find? fun index => !gptEntryUsed entries index with
    | none => none
    | some index =>
      (multiplyU64 (add64 (sub64 best.last best.first) 1) sectorSize).map fun sizeBytes =>
        ⟨best.first, best.last, sizeBytes, index + 1⟩

/-- The request in sectors: `none` if refused, and no number for the rest of the disk. -/
def requestedSectors (sectorSize : Nat) : Request → Option (Option Nat)
  | .rest => some none
  | .bytes n =>
    if n = 0 ∨ n > u64Max - (sectorSize - 1) ∨ n / sectorSize = 0 then none
    else some (some (n / sectorSize))

/-- `plan_from_entries`: whether it ends, and with which plan. Every round but the
last passes a used entry, so one round more than there are entries is enough. -/
def planFromEntries (t : Table) (entries : Buf) (sectorSize : Nat) (request : Request) :
    Option (Option Plan) :=
  if sectorSize ≠ 512 ∨ alignmentSectors sectorSize = 0 then some none
  else
    match requestedSectors sectorSize request with
    | none => some none
    | some sectors =>
      (planLoop t entries (alignmentSectors sectorSize) sectors (t.entryCount + 1) t.firstUsable
        ⟨0, 0, 0⟩).map (finishPlan t entries sectorSize)

def getLe32 (data : Buf) (o : Nat) : Nat :=
  (data o).toNat ||| (data (o + 1)).toNat <<< 8 ||| (data (o + 2)).toNat <<< 16 |||
    (data (o + 3)).toNat <<< 24

def storeLe32 (data : Buf) (o value : Nat) : Buf :=
  fun i => if o ≤ i ∧ i < o + 4 then UInt8.ofNat (value >>> ((i - o) * 8)) else data i

lemma getLe32_eq (data : Buf) (o : Nat) :
    getLe32 data o = (data o).toNat + 2 ^ 8 * (data (o + 1)).toNat +
      2 ^ 16 * (data (o + 2)).toNat + 2 ^ 24 * (data (o + 3)).toNat := by
  have h0 := (data o).toNat_lt
  have h1 := (data (o + 1)).toNat_lt
  have h2 := (data (o + 2)).toNat_lt
  rw [getLe32, or_shift_eq_add (by omega : _ < 2 ^ 8), or_shift_eq_add (by omega : _ < 2 ^ 16),
    or_shift_eq_add (by omega : _ < 2 ^ 24)]

variable {a b : Buf} {o p : Nat}

lemma getLe32_congr (h : ∀ i < 4, a (o + i) = b (p + i)) : getLe32 a o = getLe32 b p := by
  have h0 := h 0 (by omega)
  simp only [Nat.add_zero] at h0
  rw [getLe32_eq, getLe32_eq, h0, h 1 (by omega), h 2 (by omega), h 3 (by omega)]

variable {data : Buf} {v : Nat} {i : Nat}

lemma storeLe32_of_not_mem (h : i < o ∨ o + 4 ≤ i) : storeLe32 data o v i = data i := by
  simp [storeLe32, show ¬ (o ≤ i ∧ i < o + 4) by omega]

lemma storeLe32_byte (h : i < 4) :
    (storeLe32 data o v (o + i)).toNat = v / 2 ^ (i * 8) % 2 ^ 8 := by
  simp only [storeLe32, show o ≤ o + i ∧ o + i < o + 4 by omega, and_self, if_true,
    Nat.add_sub_cancel_left, Nat.shiftRight_eq_div_pow]
  simp

lemma getLe32_store (h : v < 2 ^ 32) : getLe32 (storeLe32 data o v) o = v := by
  have h0 : (storeLe32 data o v (o + 0)).toNat = _ := storeLe32_byte (show 0 < 4 by omega)
  rw [getLe32_eq, storeLe32_byte (show 1 < 4 by omega), storeLe32_byte (show 2 < 4 by omega),
    storeLe32_byte (show 3 < 4 by omega)]
  simp only [Nat.add_zero] at h0
  rw [h0]
  omega

lemma getLe32_store_of_ne (h : o + 4 ≤ p ∨ p + 4 ≤ o) :
    getLe32 (storeLe32 data o v) p = getLe32 data p :=
  getLe32_congr fun _ _ => storeLe32_of_not_mem (by omega)

lemma getLe32_storeLe64_of_ne (h : o + 8 ≤ p ∨ p + 4 ≤ o) :
    getLe32 (storeLe64 data o v) p = getLe32 data p :=
  getLe32_congr fun i hi => storeLe64_of_not_mem (by omega)

lemma getLe32_copy_of_ne {dst src : Buf} {n : Nat} (h : o + n ≤ p ∨ p + 4 ≤ o) :
    getLe32 (dst.copy o src n) p = getLe32 dst p :=
  getLe32_congr fun i hi => Buf.copy_of_not_mem (by omega)

lemma getLe64_storeLe32_of_ne (h : o + 4 ≤ p ∨ p + 8 ≤ o) :
    getLe64 (storeLe32 data o v) p = getLe64 data p :=
  getLe64_congr fun _ _ => storeLe32_of_not_mem (by omega)

def crc32Byte (crc : UInt32) (value : UInt8) : UInt32 :=
  (List.range 8).foldl
    (fun c _ => if c &&& 1 != 0 then (c >>> 1) ^^^ 0xedb88320 else c >>> 1)
    (crc ^^^ value.toUInt32)

/-- The CRC of a buffer, with the four bytes at `zeroOffset` counted as zero. -/
def crc32 (data : Buf) (length : Nat) (zeroOffset : Option Nat) : Nat :=
  ((List.range length).foldl (fun crc i =>
    crc32Byte crc (if zeroOffset.any fun z => z ≤ i ∧ i - z < 4 then 0 else data i)) 0xffffffff ^^^
      0xffffffff).toNat

lemma crc32_congr {n : Nat} {z : Option Nat}
    (h : ∀ i < n, (¬ z.any fun z => z ≤ i ∧ i - z < 4) → a i = b i) : crc32 a n z = crc32 b n z := by
  unfold crc32
  rw [foldl_range_congr]
  intro crc i hi
  by_cases hz : z.any fun z => z ≤ i ∧ i - z < 4
  · rw [if_pos hz, if_pos hz]
  · rw [if_neg hz, if_neg hz, h i hi hz]

lemma crc32_lt (data : Buf) (n : Nat) (z : Option Nat) : crc32 data n z < 2 ^ 32 :=
  UInt32.toNat_lt _

def sectorBytes : Nat := 512

def headerBytes : Nat := 92

def primaryHeaderLba : Nat := 1

def primaryEntriesLba : Nat := 2

def entryArraySectors : Nat := maxPartitionEntries * partitionEntryBytes / sectorBytes

def minSectors : Nat := 2 + entryArraySectors + 1 + entryArraySectors + 1

/-- `EFI PART`. -/
def signature : Buf := Buf.ofList [0x45, 0x46, 0x49, 0x20, 0x50, 0x41, 0x52, 0x54]

def gptSignature (sector : Buf) : Bool := (List.range 8).all fun i => sector i == signature i

/-- What the loader goes on with of a valid header. -/
structure Header where
  entriesLba : Nat
  count : Nat
  size : Nat
  first : Nat
  last : Nat
  arrayCrc : Nat
  arraySectors : Nat
  guid : List UInt8

def arraySectorsOf (count size : Nat) : Nat := (count * size + sectorBytes - 1) / sectorBytes

/-- The checks of `gpt_header_valid`. The product of count and size cannot
overflow once both are in range. -/
structure HeaderValid (header : Buf) (current backup total : Nat) : Prop where
  signature : gptSignature header = true
  revision : getLe32 header 8 = 0x00010000
  guid : guidIsZero header 56 = false
  size_ge : headerBytes ≤ getLe32 header 12
  size_le : getLe32 header 12 ≤ sectorBytes
  crc : crc32 header (getLe32 header 12) (some 16) = getLe32 header 16
  current : getLe64 header 24 = current
  backup : getLe64 header 32 = backup
  first_le : getLe64 header 40 ≤ getLe64 header 48
  last_lt : getLe64 header 48 < total
  count_pos : getLe32 header 80 ≠ 0
  count_le : getLe32 header 80 ≤ maxPartitionEntries
  entrySize : getLe32 header 84 = partitionEntryBytes
  entries_lt : getLe64 header 72 < total
  array_le : arraySectorsOf (getLe32 header 80) (getLe32 header 84) ≤ total - getLe64 header 72

instance (header : Buf) (current backup total : Nat) :
    Decidable (HeaderValid header current backup total) :=
  decidable_of_iff (_ ∧ _ ∧ _ ∧ _ ∧ _ ∧ _ ∧ _ ∧ _ ∧ _ ∧ _ ∧ _ ∧ _ ∧ _ ∧ _ ∧ _)
    ⟨fun ⟨a, b, c, d, e, f, g, h, i, j, k, l, m, n, o⟩ => ⟨a, b, c, d, e, f, g, h, i, j, k, l, m, n, o⟩,
      fun ⟨a, b, c, d, e, f, g, h, i, j, k, l, m, n, o⟩ => ⟨a, b, c, d, e, f, g, h, i, j, k, l, m, n, o⟩⟩

def gptHeaderValid (header : Buf) (current backup total : Nat) : Option Header :=
  if HeaderValid header current backup total then
    some
      { entriesLba := getLe64 header 72
        count := getLe32 header 80
        size := getLe32 header 84
        first := getLe64 header 40
        last := getLe64 header 48
        arrayCrc := getLe32 header 88
        arraySectors := arraySectorsOf (getLe32 header 80) (getLe32 header 84)
        guid := (header.skip 56).bytes guidBytes }
  else none

variable {current backup total : Nat}

lemma HeaderValid.congr
    (h : HeaderValid a current backup total) (hab : ∀ i < sectorBytes, a i = b i) :
    HeaderValid b current backup total := by
  have h32 (o : Nat) (ho : o + 4 ≤ 512) : getLe32 b o = getLe32 a o :=
    getLe32_congr fun i hi => (hab _ (by unfold sectorBytes; omega)).symm
  have h64 (o : Nat) (ho : o + 8 ≤ 512) : getLe64 b o = getLe64 a o :=
    getLe64_congr fun i hi => (hab _ (by unfold sectorBytes; omega)).symm
  have hsignature : gptSignature b = gptSignature a := by
    unfold gptSignature
    rw [Bool.eq_iff_iff, List.all_eq_true, List.all_eq_true]
    refine forall₂_congr fun i hi => ?_
    have := List.mem_range.mp hi
    rw [hab i (by unfold sectorBytes; omega)]
  have hguid : guidIsZero b 56 = guidIsZero a 56 := by
    unfold guidIsZero guidBytes
    rw [Bool.eq_iff_iff, List.all_eq_true, List.all_eq_true]
    refine forall₂_congr fun i hi => ?_
    have := List.mem_range.mp hi
    rw [hab (56 + i) (by unfold sectorBytes; omega)]
  have hcrc : crc32 b (getLe32 a 12) (some 16) = crc32 a (getLe32 a 12) (some 16) :=
    crc32_congr fun i hi _ => (hab i (lt_of_lt_of_le hi h.size_le)).symm
  obtain ⟨h1, h2, h3, h4, h5, h6, h7, h8, h9, h10, h11, h12, h13, h14, h15⟩ := h
  constructor <;> simp (disch := omega) only [h32, h64, hsignature, hguid, hcrc] <;> assumption

lemma gptHeaderValid_congr (hab : ∀ i < sectorBytes, a i = b i) :
    gptHeaderValid a current backup total = gptHeaderValid b current backup total := by
  have h32 (o : Nat) (ho : o + 4 ≤ 512) : getLe32 a o = getLe32 b o :=
    getLe32_congr fun i hi => hab _ (by unfold sectorBytes; omega)
  have h64 (o : Nat) (ho : o + 8 ≤ 512) : getLe64 a o = getLe64 b o :=
    getLe64_congr fun i hi => hab _ (by unfold sectorBytes; omega)
  have hvalid : HeaderValid a current backup total ↔ HeaderValid b current backup total :=
    ⟨fun h => h.congr hab, fun h => h.congr fun i hi => (hab i hi).symm⟩
  have hguid : (a.skip 56).bytes guidBytes = (b.skip 56).bytes guidBytes := by
    refine Buf.bytes_congr fun i hi => hab _ ?_
    unfold guidBytes at hi
    unfold sectorBytes
    omega
  unfold gptHeaderValid
  simp (disch := omega) only [hvalid, h32, h64, hguid]

/-- A `gpt_table_t`, without the entries themselves. -/
structure GptTable where
  partitionCount : Nat
  entryCount : Nat
  entrySize : Nat
  firstUsable : Nat
  lastUsable : Nat
  primaryEntriesLba : Nat
  backupEntriesLba : Nat
  arraySectors : Nat
  diskGuid : List UInt8

def headerFields (table : GptTable) (backup : Bool) (arrayCrc : Nat) : Buf :=
  let far := add64 table.backupEntriesLba table.arraySectors
  let current := if backup then far else primaryHeaderLba
  let other := if backup then primaryHeaderLba else far
  let entries := if backup then table.backupEntriesLba else table.primaryEntriesLba
  let header := Buf.zero.copy 0 signature 8
  let header := storeLe32 header 8 0x00010000
  let header := storeLe32 header 12 headerBytes
  let header := storeLe64 header 24 current
  let header := storeLe64 header 32 other
  let header := storeLe64 header 40 table.firstUsable
  let header := storeLe64 header 48 table.lastUsable
  let header := header.copy 56 (Buf.ofList table.diskGuid) guidBytes
  let header := storeLe64 header 72 entries
  let header := storeLe32 header 80 table.entryCount
  let header := storeLe32 header 84 table.entrySize
  storeLe32 header 88 arrayCrc

def gptMakeHeader (table : GptTable) (backup : Bool) (arrayCrc : Nat) : Buf :=
  let header := headerFields table backup arrayCrc
  storeLe32 header 16 (crc32 header headerBytes (some 16))

/-- The geometry and identity of a table that `gpt_load` accepts on a disk of
`total` sectors. -/
structure GptTable.Sound (t : GptTable) (total : Nat) : Prop where
  guid_length : t.diskGuid.length = guidBytes
  guid_used : ∃ b ∈ t.diskGuid, b ≠ 0
  count_pos : t.entryCount ≠ 0
  count_le : t.entryCount ≤ maxPartitionEntries
  entrySize : t.entrySize = partitionEntryBytes
  arraySectors : t.arraySectors = arraySectorsOf t.entryCount t.entrySize
  primary_ge : Gpt.primaryEntriesLba ≤ t.primaryEntriesLba
  primary_le : t.primaryEntriesLba + t.arraySectors ≤ t.firstUsable
  first_le : t.firstUsable ≤ t.lastUsable
  last_lt : t.lastUsable < t.backupEntriesLba
  backup_end : t.backupEntriesLba + t.arraySectors + 1 = total
  total_le : total ≤ u64Max

section

variable {table : GptTable} {backup : Bool} {crc total : Nat}

lemma gptSignature_make : gptSignature (gptMakeHeader table backup crc) = true := by
  rw [gptSignature, List.all_eq_true]
  intro i hi
  have hi := List.mem_range.mp hi
  unfold gptMakeHeader headerFields
  simp (disch := omega) only [storeLe32_of_not_mem, storeLe64_of_not_mem, Buf.copy_of_not_mem,
    Buf.copy_of_mem, Nat.sub_zero, beq_self_eq_true]

lemma guid_make (h : table.diskGuid.length = guidBytes) :
    ((gptMakeHeader table backup crc).skip 56).bytes guidBytes = table.diskGuid := by
  apply List.ext_getElem
  · rw [h, Buf.bytes, List.length_map, List.length_range]
  · intro i hi hi'
    have hi16 : i < 16 := by rwa [h] at hi'
    simp only [Buf.bytes, List.getElem_map, List.getElem_range, Buf.skip_apply]
    unfold gptMakeHeader headerFields guidBytes
    simp (disch := omega) only [storeLe32_of_not_mem, storeLe64_of_not_mem, Buf.copy_of_mem,
      Nat.add_sub_cancel_left]
    simp [Buf.ofList, hi']

lemma guidIsZero_make (h : table.Sound total) :
    guidIsZero (gptMakeHeader table backup crc) 56 = false := by
  have hguid : ((gptMakeHeader table backup crc).skip 56).bytes guidBytes = table.diskGuid :=
    guid_make h.guid_length
  obtain ⟨b, hb, hne⟩ := h.guid_used
  rw [← hguid] at hb
  obtain ⟨i, hi, rfl⟩ := List.mem_map.mp hb
  rw [guidIsZero, List.all_eq_false]
  exact ⟨i, hi, by simpa [Buf.skip_apply] using hne⟩

lemma headerCrc_make : crc32 (gptMakeHeader table backup crc) headerBytes (some 16) =
    crc32 (headerFields table backup crc) headerBytes (some 16) := by
  refine crc32_congr fun i _ hi => storeLe32_of_not_mem ?_
  simp only [Option.any_some, decide_eq_true_eq] at hi
  omega

section

variable (h : table.Sound total)

include h

lemma fields_make (hcrc : crc < 2 ^ 32) :
    (getLe32 (gptMakeHeader table backup crc) 8 = 0x00010000 ∧
      getLe32 (gptMakeHeader table backup crc) 12 = headerBytes ∧
      getLe32 (gptMakeHeader table backup crc) 80 = table.entryCount ∧
      getLe32 (gptMakeHeader table backup crc) 84 = table.entrySize ∧
      getLe32 (gptMakeHeader table backup crc) 88 = crc) ∧
    getLe64 (gptMakeHeader table backup crc) 24 = (if backup then total - 1 else primaryHeaderLba) ∧
    getLe64 (gptMakeHeader table backup crc) 32 = (if backup then primaryHeaderLba else total - 1) ∧
    getLe64 (gptMakeHeader table backup crc) 40 = table.firstUsable ∧
    getLe64 (gptMakeHeader table backup crc) 48 = table.lastUsable ∧
    getLe64 (gptMakeHeader table backup crc) 72 =
      (if backup then table.backupEntriesLba else table.primaryEntriesLba) := by
  have hmax := u64Max_eq
  obtain ⟨-, -, -, hcount, hsize, -, -, hprimary, hfirst, hlast, hend, htotal⟩ := h
  have hfar : add64 table.backupEntriesLba table.arraySectors = total - 1 := by
    rw [add64, Nat.mod_eq_of_lt (by omega)]
    omega
  have hone : primaryHeaderLba < 2 ^ 64 := by decide
  have hbytes : headerBytes < 2 ^ 32 := by decide
  unfold maxPartitionEntries at hcount
  unfold partitionEntryBytes at hsize
  unfold gptMakeHeader headerFields
  simp only [hfar]
  refine ⟨?_, ?_⟩
  · simp (disch := omega) only [getLe32_store_of_ne, getLe32_storeLe64_of_ne, getLe32_copy_of_ne,
      getLe32_store, and_self]
  · simp (disch := (first | omega | (split <;> omega))) only [getLe64_storeLe32_of_ne,
      getLe64_store_of_ne, getLe64_copy_of_ne, getLe64_store, and_self]

lemma GptTable.Sound.array_pos : 1 ≤ table.arraySectors := by
  rw [h.arraySectors, arraySectorsOf, h.entrySize, partitionEntryBytes, sectorBytes]
  have := h.count_pos
  omega

lemma gptHeaderValid_make (hcrc : crc < 2 ^ 32) :
    gptHeaderValid (gptMakeHeader table backup crc) (if backup then total - 1 else primaryHeaderLba)
      (if backup then primaryHeaderLba else total - 1) total = some
      { entriesLba := if backup then table.backupEntriesLba else table.primaryEntriesLba
        count := table.entryCount
        size := table.entrySize
        first := table.firstUsable
        last := table.lastUsable
        arrayCrc := crc
        arraySectors := table.arraySectors
        guid := table.diskGuid } := by
  have hprimary := h.primary_le
  have hfirst := h.first_le
  have hlast := h.last_lt
  have hend := h.backup_end
  obtain ⟨⟨h8, h12, h80, h84, h88⟩, h24, h32, h40, h48, h72⟩ :=
    @fields_make table backup crc total h hcrc
  have hvalid : HeaderValid (gptMakeHeader table backup crc)
      (if backup then total - 1 else primaryHeaderLba)
      (if backup then primaryHeaderLba else total - 1) total := by
    refine ⟨gptSignature_make, h8, guidIsZero_make h, ?_, ?_, ?_, h24, h32, ?_, ?_, ?_, ?_, ?_, ?_, ?_⟩
    · rw [h12]
    · rw [h12]
      decide
    · rw [h12, headerCrc_make]
      exact (getLe32_store (crc32_lt _ _ _)).symm
    · rwa [h40, h48]
    · rw [h48]
      omega
    · rw [h80]
      exact h.count_pos
    · rw [h80]
      exact h.count_le
    · rw [h84]
      exact h.entrySize
    · rw [h72]
      split <;> omega
    · rw [h80, h84, h72, ← h.arraySectors]
      split <;> omega
  rw [gptHeaderValid, if_pos hvalid, h72, h80, h84, h40, h48, h88, ← h.arraySectors,
    guid_make h.guid_length]

end

end

end Mangrove.Gpt

namespace Mangrove.Gpt

inductive DeviceType where
  | disk
  | partition
deriving DecidableEq

/-- What the GPT code reads of a `block_device_t`. -/
structure Device where
  type : DeviceType
  sectorSize : Nat
  sectorCount : Nat
  sectorCount_le : sectorCount ≤ u64Max

/-- The bytes from sector `lba` on. -/
def sectorsFrom (disk : Nat → Buf) (lba : Nat) : Buf :=
  fun i => disk (lba + i / sectorBytes) (i % sectorBytes)

def gptRead (device : Device) (disk : Nat → Buf) (lba count : Nat) : Except VfsError Buf :=
  if count = 0 ∨ lba > device.sectorCount ∨ count > device.sectorCount - lba then .error .io
  else .ok (sectorsFrom disk lba)

def mbrSigned (sector : Buf) : Bool := sector 510 == 0x55 && sector 511 == 0xaa

def mbrHasPartition (sector : Buf) : Bool :=
  mbrSigned sector && (List.range 4).any fun i => sector (446 + i * 16 + 4) != 0

def mbrIsProtective (sector : Buf) : Bool := mbrSigned sector && sector (446 + 4) == 0xee

def orBadFormat {α : Type} : Option α → Except VfsError α
  | some a => .ok a
  | none => .error .badFormat

/-- The primary and the backup header describe one table, each at its own place. -/
structure HeadersAgree (p b : Header) (total : Nat) : Prop where
  count : p.count = b.count
  size : p.size = b.size
  first : p.first = b.first
  last : p.last = b.last
  arraySectors : p.arraySectors = b.arraySectors
  arrayCrc : p.arrayCrc = b.arrayCrc
  guid : p.guid = b.guid
  primary_ge : primaryEntriesLba ≤ p.entriesLba
  primary_le : p.entriesLba ≤ p.first
  primary_end : p.arraySectors ≤ p.first - p.entriesLba
  backup_le : b.entriesLba ≤ total - 1
  backup_room : p.arraySectors ≤ total - 1 - b.entriesLba
  backup_end : add64 b.entriesLba p.arraySectors = total - 1
  primary_first : p.first ≤ p.last
  backup_first : b.first ≤ b.last
  backup_last : b.last < b.entriesLba

instance (p b : Header) (total : Nat) : Decidable (HeadersAgree p b total) :=
  decidable_of_iff (_ ∧ _ ∧ _ ∧ _ ∧ _ ∧ _ ∧ _ ∧ _ ∧ _ ∧ _ ∧ _ ∧ _ ∧ _ ∧ _ ∧ _ ∧ _)
    ⟨fun ⟨a, b, c, d, e, f, g, h, i, j, k, l, m, n, o, q⟩ =>
        ⟨a, b, c, d, e, f, g, h, i, j, k, l, m, n, o, q⟩,
      fun ⟨a, b, c, d, e, f, g, h, i, j, k, l, m, n, o, q⟩ =>
        ⟨a, b, c, d, e, f, g, h, i, j, k, l, m, n, o, q⟩⟩

def gptLoad (device : Device) (disk : Nat → Buf) : Except VfsError (GptTable × Buf) := do
  ensure (device.type ≠ .partition ∧ device.sectorSize = sectorBytes ∧
    minSectors ≤ device.sectorCount) .unsupported
  let mbr ← gptRead device disk 0 1
  let primary ← gptRead device disk primaryHeaderLba 1
  let backup ← gptRead device disk (device.sectorCount - 1) 1
  ensure (gptSignature primary = true) (if mbrHasPartition mbr then .unsupported else .notFound)
  ensure (mbrIsProtective mbr = true) .badFormat
  ensure (gptSignature backup = true) .badFormat
  let p ← orBadFormat (gptHeaderValid primary primaryHeaderLba (device.sectorCount - 1)
    device.sectorCount)
  let b ← orBadFormat (gptHeaderValid backup (device.sectorCount - 1) primaryHeaderLba
    device.sectorCount)
  ensure (HeadersAgree p b device.sectorCount) .badFormat
  let primaryEntries ← gptRead device disk p.entriesLba p.arraySectors
  let backupEntries ← gptRead device disk b.entriesLba p.arraySectors
  ensure (crc32 primaryEntries (p.count * p.size) none = p.arrayCrc ∧
    crc32 backupEntries (b.count * b.size) none = b.arrayCrc ∧
    ∀ i < p.count * p.size, primaryEntries i = backupEntries i) .badFormat
  let used ← orBadFormat (gptEntriesValid primaryEntries p.count p.first p.last)
  return ({ partitionCount := used
            entryCount := p.count
            entrySize := p.size
            firstUsable := p.first
            lastUsable := p.last
            primaryEntriesLba := p.entriesLba
            backupEntriesLba := b.entriesLba
            arraySectors := p.arraySectors
            diskGuid := p.guid }, primaryEntries)

/-- A whole copy of a table: a header the checks accept, and the entry array its
CRC describes. -/
structure WholeCopy (disk : Nat → Buf) (current other entriesLba total : Nat) (table : GptTable)
    (entries : Buf) : Prop where
  header : gptHeaderValid (sectorsFrom disk current) current other total = some
    { entriesLba := entriesLba
      count := table.entryCount
      size := table.entrySize
      first := table.firstUsable
      last := table.lastUsable
      arrayCrc := crc32 entries (table.entryCount * table.entrySize) none
      arraySectors := table.arraySectors
      guid := table.diskGuid }
  array : ∀ i < table.entryCount * table.entrySize, sectorsFrom disk entriesLba i = entries i

def PrimaryIs (device : Device) (disk : Nat → Buf) (table : GptTable) (entries : Buf) : Prop :=
  WholeCopy disk primaryHeaderLba (device.sectorCount - 1) table.primaryEntriesLba
    device.sectorCount table entries

def BackupIs (device : Device) (disk : Nat → Buf) (table : GptTable) (entries : Buf) : Prop :=
  WholeCopy disk (device.sectorCount - 1) primaryHeaderLba table.backupEntriesLba
    device.sectorCount table entries

lemma orBadFormat_ok {α : Type} {o : Option α} {a : α} : orBadFormat o = .ok a ↔ o = some a := by
  cases o <;> simp [orBadFormat]

variable {device : Device} {disk : Nat → Buf} {lba : Nat} {count : Nat}

lemma gptRead_ok {data : Buf}
    (h : gptRead device disk lba count = .ok data) : data = sectorsFrom disk lba := by
  unfold gptRead at h
  split at h
  · cases h
  · exact (Except.ok.inj h).symm

variable {current total : Nat} {header : Buf} {backup : Nat} {h : Header}

lemma gptHeaderValid_some (hvalid : gptHeaderValid header current backup total = some h) :
    h.guid.length = guidBytes ∧ (∃ b ∈ h.guid, b ≠ 0) ∧ h.count ≠ 0 ∧
      h.count ≤ maxPartitionEntries ∧ h.size = partitionEntryBytes ∧
      h.arraySectors = arraySectorsOf h.count h.size := by
  unfold gptHeaderValid at hvalid
  split at hvalid
  · next hv =>
    obtain rfl := Option.some.inj hvalid
    refine ⟨by simp [Buf.bytes], ?_, hv.count_pos, hv.count_le, hv.entrySize, rfl⟩
    obtain ⟨i, hi, hne⟩ := List.all_eq_false.mp hv.guid
    exact ⟨_, List.mem_map.mpr ⟨i, hi, rfl⟩, by simpa [Buf.skip_apply] using hne⟩
  · cases hvalid

variable {table : GptTable} {entries : Buf}

lemma gptLoad_device (h : gptLoad device disk = .ok (table, entries)) :
    (device.type ≠ .partition ∧ device.sectorSize = sectorBytes ∧
      minSectors ≤ device.sectorCount) ∧ mbrIsProtective (sectorsFrom disk 0) = true := by
  obtain ⟨hdevice, h⟩ := ensure_bind_ok.mp h
  obtain ⟨mbr, hmbr, h⟩ := except_bind_ok.mp h
  obtain ⟨primary, -, h⟩ := except_bind_ok.mp h
  obtain ⟨backup, -, h⟩ := except_bind_ok.mp h
  obtain ⟨-, h⟩ := ensure_bind_ok.mp h
  obtain ⟨hprotective, -⟩ := ensure_bind_ok.mp h
  exact ⟨hdevice, gptRead_ok hmbr ▸ hprotective⟩

lemma gptLoad_spec (h : gptLoad device disk = .ok (table, entries)) :
    table.Sound device.sectorCount ∧ PrimaryIs device disk table entries ∧
      BackupIs device disk table entries := by
  obtain ⟨-, h⟩ := ensure_bind_ok.mp h
  obtain ⟨mbr, -, h⟩ := except_bind_ok.mp h
  obtain ⟨primary, hprimary, h⟩ := except_bind_ok.mp h
  obtain ⟨backup, hbackup, h⟩ := except_bind_ok.mp h
  obtain ⟨-, h⟩ := ensure_bind_ok.mp h
  obtain ⟨-, h⟩ := ensure_bind_ok.mp h
  obtain ⟨-, h⟩ := ensure_bind_ok.mp h
  obtain ⟨p, hp, h⟩ := except_bind_ok.mp h
  obtain ⟨b, hb, h⟩ := except_bind_ok.mp h
  obtain ⟨hagree, h⟩ := ensure_bind_ok.mp h
  obtain ⟨primaryEntries, hpe, h⟩ := except_bind_ok.mp h
  obtain ⟨backupEntries, hbe, h⟩ := except_bind_ok.mp h
  obtain ⟨⟨hpcrc, hbcrc, hsame⟩, h⟩ := ensure_bind_ok.mp h
  obtain ⟨used, -, h⟩ := except_bind_ok.mp h
  cases h
  rw [orBadFormat_ok] at hp hb
  obtain rfl := gptRead_ok hprimary
  obtain rfl := gptRead_ok hbackup
  obtain rfl := gptRead_ok hpe
  obtain rfl := gptRead_ok hbe
  have htotal := device.sectorCount_le
  obtain ⟨hlength, hused, hpos, hle, hsize, harray⟩ := gptHeaderValid_some hp
  have hend := hagree.backup_end
  have hroom := hagree.backup_room
  have hbackup := hagree.backup_le
  have hlast := hagree.last ▸ hagree.backup_last
  rw [add64, Nat.mod_eq_of_lt (by omega)] at hend
  refine ⟨⟨hlength, hused, hpos, hle, hsize, harray, hagree.primary_ge, ?_, hagree.primary_first,
    hlast, ?_, htotal⟩, ⟨?_, fun _ _ => rfl⟩, ⟨?_, fun i hi => (hsame i hi).symm⟩⟩
  · have h1 := hagree.primary_le
    have h2 := hagree.primary_end
    show p.entriesLba + p.arraySectors ≤ p.first
    omega
  · show b.entriesLba + p.arraySectors + 1 = device.sectorCount
    omega
  · rw [hp, hpcrc]
  · rw [hb, hpcrc, hagree.count, hagree.size, hagree.first, hagree.last, hagree.arrayCrc,
      hagree.arraySectors, hagree.guid]

variable {disk' : Nat → Buf} {i : Nat}

lemma sectorsFrom_congr
    (h : disk (lba + i / sectorBytes) = disk' (lba + i / sectorBytes)) :
    sectorsFrom disk lba i = sectorsFrom disk' lba i := congrFun h _

lemma GptTable.Sound.sector_lt (h : table.Sound total)
    (hi : i < table.entryCount * table.entrySize) : i / sectorBytes < table.arraySectors := by
  rw [h.arraySectors, arraySectorsOf]
  unfold sectorBytes
  omega

lemma WholeCopy.congr {other entriesLba : Nat}
    (h : WholeCopy disk current other entriesLba total table entries) (hsound : table.Sound total)
    (hheader : disk' current = disk current)
    (harray : ∀ k < table.arraySectors, disk' (entriesLba + k) = disk (entriesLba + k)) :
    WholeCopy disk' current other entriesLba total table entries := by
  refine ⟨?_, fun i hi => ?_⟩
  · rw [← h.header]
    refine gptHeaderValid_congr fun i hi => sectorsFrom_congr ?_
    rwa [Nat.div_eq_of_lt hi]
  · rw [← h.array i hi]
    exact sectorsFrom_congr (harray _ (hsound.sector_lt hi))

lemma gptRead_of_le (hcount : count ≠ 0) (h : lba + count ≤ device.sectorCount) :
    gptRead device disk lba count = .ok (sectorsFrom disk lba) := if_neg (by omega)

lemma gptSignature_of_valid
    (hvalid : gptHeaderValid header current backup total = some h) : gptSignature header = true := by
  unfold gptHeaderValid at hvalid
  split at hvalid
  · next hv => exact hv.signature
  · cases hvalid

lemma gptLoad_of_copies
    {used : Nat} (hdevice : device.type ≠ .partition ∧ device.sectorSize = sectorBytes ∧
      minSectors ≤ device.sectorCount) (hmbr : mbrIsProtective (sectorsFrom disk 0) = true)
    (hsound : table.Sound device.sectorCount) (hp : PrimaryIs device disk table entries)
    (hb : BackupIs device disk table entries)
    (hvalid : gptEntriesValid (sectorsFrom disk table.primaryEntriesLba) table.entryCount
      table.firstUsable table.lastUsable = some used) :
    gptLoad device disk = .ok ({ table with partitionCount := used },
      sectorsFrom disk table.primaryEntriesLba) := by
  have hmax := u64Max_eq
  have htotal := hsound.total_le
  have hend := hsound.backup_end
  have hprimary := hsound.primary_le
  have hge := hsound.primary_ge
  have hfirst := hsound.first_le
  have hlast := hsound.last_lt
  have hpos := hsound.array_pos
  have hone : primaryHeaderLba = 1 := rfl
  unfold gptLoad
  rw [ensure_pos hdevice, ok_bind, gptRead_of_le (by decide) (by omega), ok_bind,
    gptRead_of_le (by decide) (by omega), ok_bind, gptRead_of_le (by decide) (by omega), ok_bind,
    ensure_pos (gptSignature_of_valid hp.header), ok_bind, ensure_pos hmbr, ok_bind,
    ensure_pos (gptSignature_of_valid hb.header), ok_bind, hp.header, hb.header]
  simp only [orBadFormat, ok_bind]
  rw [ensure_pos, ok_bind, gptRead_of_le (by omega) (by omega), ok_bind,
    gptRead_of_le (by omega) (by omega), ok_bind, ensure_pos, ok_bind, hvalid]
  · rfl
  · refine ⟨crc32_congr fun i hi _ => hp.array i hi, crc32_congr fun i hi _ => hb.array i hi, ?_⟩
    exact fun i hi => (hp.array i hi).trans (hb.array i hi).symm
  · refine ⟨rfl, rfl, rfl, rfl, rfl, rfl, rfl, hsound.primary_ge, ?_, ?_, ?_, ?_, ?_, hfirst, hfirst,
      hlast⟩
    all_goals dsimp only
    · omega
    · omega
    · omega
    · omega
    · rw [add64, Nat.mod_eq_of_lt (by omega)]
      omega

/-- How a request to the device ends: it is turned away, it is cut off by an
error or a power loss, or it completes. -/
inductive Answer where
  | refused
  | cut
  | done

/-- The medium, and how the requests to it will end. -/
structure Disk where
  media : Media Buf
  answers : Nat → Answer

abbrev DiskProg := Prog Disk Unit

def nextAnswer : DiskProg Answer := fun d =>
  (.ok (d.answers 0), { d with answers := fun n => d.answers (n + 1) })

def sectorOf (buffer : Buf) (k : Nat) : Buf := (buffer.skip (k * sectorBytes)).clip sectorBytes

/-- A write that is cut off has been issued, and any part of it may be on the
medium. -/
def blockWrite (lba count : Nat) (buffer : Buf) : DiskProg Unit := do
  match ← nextAnswer with
  | .refused => Prog.fail ()
  | .cut => do
    Prog.modify fun d => { d with media := d.media.write lba count (sectorOf buffer) }
    Prog.fail ()
  | .done => Prog.modify fun d => { d with media := d.media.write lba count (sectorOf buffer) }

def blockFlush : DiskProg Unit := do
  match ← nextAnswer with
  | .done => Prog.modify fun d => { d with media := d.media.flush }
  | _ => Prog.fail ()

def gptWrite (device : Device) (lba count : Nat) (buffer : Buf) : DiskProg Unit :=
  if count = 0 ∨ lba > device.sectorCount ∨ count > device.sectorCount - lba then Prog.fail ()
  else blockWrite lba count buffer

def blockDeviceIsLive : DiskProg Unit := do
  match ← nextAnswer with
  | .done => return ()
  | _ => Prog.fail ()

def updatedHeader (table : GptTable) (backup : Bool) (entries : Buf) : Buf :=
  gptMakeHeader table backup (crc32 entries (table.entryCount * table.entrySize) none)

def gptWriteUpdated (device : Device) (table : GptTable) (entries : Buf) : DiskProg Unit :=
  if table.entryCount > maxPartitionEntries ∨ table.entrySize ≠ partitionEntryBytes ∨
      table.arraySectors = 0 ∨ table.arraySectors > entryArraySectors then
    Prog.fail ()
  else do
    gptWrite device table.backupEntriesLba table.arraySectors entries
    gptWrite device (device.sectorCount - 1) 1 (updatedHeader table true entries)
    blockFlush
    gptWrite device table.primaryEntriesLba table.arraySectors entries
    gptWrite device primaryHeaderLba 1 (updatedHeader table false entries)
    blockFlush
    blockDeviceIsLive

section

variable {count : Nat} {buffer : Buf} {d : Disk}

variable {P : Media Buf → Prop}

lemma gptWrite_spec (h : P d.media) (hwrite : P (d.media.write lba count (sectorOf buffer))) :
    Prog.wp (gptWrite device lba count buffer)
      (fun _ d' => d'.media = d.media.write lba count (sectorOf buffer))
      (fun _ d' => P d'.media) d := by
  unfold gptWrite
  split
  · exact h
  · refine Prog.wp_bind.mpr ?_
    show Prog.wp (match d.answers 0 with
      | .refused => _
      | .cut => _
      | .done => _ : DiskProg Unit) _ _ _
    cases d.answers 0 with
    | refused => exact h
    | cut => exact hwrite
    | done => exact rfl

lemma blockFlush_spec (h : P d.media) :
    Prog.wp blockFlush (fun _ d' => d'.media = d.media.flush) (fun _ d' => P d'.media) d := by
  refine Prog.wp_bind.mpr ?_
  show Prog.wp (match d.answers 0 with
    | .done => _
    | _ => _ : DiskProg Unit) _ _ _
  cases d.answers 0 with
  | done => exact rfl
  | _ => exact h

lemma blockDeviceIsLive_spec (h : P d.media) :
    Prog.wp blockDeviceIsLive (fun _ d' => d'.media = d.media) (fun _ d' => P d'.media) d := by
  refine Prog.wp_bind.mpr ?_
  show Prog.wp (match d.answers 0 with
    | .done => _
    | _ => _ : DiskProg Unit) _ _ _
  cases d.answers 0 with
  | done => exact rfl
  | _ => exact h

end

section

variable {device : Device} {disk medium : Nat → Buf} {table : GptTable} {old new : Buf}
  {backup : Bool} {m : Media Buf}

def OldPrimary (disk : Nat → Buf) (table : GptTable) (m : Media Buf) : Prop :=
  ∀ s < table.backupEntriesLba, m.Holds s (disk s)

lemma OldPrimary.write {lba count : Nat} {sector : Nat → Buf} (h : OldPrimary disk table m)
    (hlba : table.backupEntriesLba ≤ lba) : OldPrimary disk table (m.write lba count sector) :=
  fun s hs => (h s hs).write (.inl (by omega))

lemma OldPrimary.whole (h : OldPrimary disk table m) (hsound : table.Sound device.sectorCount)
    (hold : PrimaryIs device disk table old) (hm : m.Survives medium) :
    PrimaryIs device medium table old := by
  have h1 := hsound.primary_ge
  have h2 := hsound.primary_le
  have h3 := hsound.first_le
  have h4 := hsound.last_lt
  unfold primaryEntriesLba at h1
  refine WholeCopy.congr hold hsound ?_ fun k hk => ?_
  · exact (h primaryHeaderLba (by unfold primaryHeaderLba; omega)).survives hm
  · exact (h _ (by omega)).survives hm

/-- A copy with the new entries, as `gpt_write_updated` writes it, is on the
medium for good. -/
structure NewCopy (table : GptTable) (new : Buf) (backup : Bool) (headerLba entriesLba : Nat)
    (m : Media Buf) : Prop where
  array : ∀ k < table.arraySectors, m.Holds (entriesLba + k) (sectorOf new k)
  header : m.Holds headerLba (sectorOf (updatedHeader table backup new) 0)

variable {headerLba entriesLba : Nat}

lemma newCopy_flush (h : headerLba < entriesLba ∨ entriesLba + table.arraySectors ≤ headerLba) :
    NewCopy table new backup headerLba entriesLba
      ((m.write entriesLba table.arraySectors (sectorOf new)).write headerLba 1
        (sectorOf (updatedHeader table backup new))).flush := by
  constructor
  · intro k hk
    have hread : ((m.write entriesLba table.arraySectors (sectorOf new)).write headerLba 1
        (sectorOf (updatedHeader table backup new))).contents (entriesLba + k) = sectorOf new k := by
      rw [Media.contents_write_of_not_mem (by omega),
        Media.contents_write_of_mem (by omega) (by omega), Nat.add_sub_cancel_left]
    exact hread ▸ Media.holds_flush
  · have hread : ((m.write entriesLba table.arraySectors (sectorOf new)).write headerLba 1
        (sectorOf (updatedHeader table backup new))).contents headerLba =
          sectorOf (updatedHeader table backup new) 0 := by
      rw [Media.contents_write_of_mem le_rfl (by omega), Nat.sub_self]
    exact hread ▸ Media.holds_flush

lemma NewCopy.flush (h : NewCopy table new backup headerLba entriesLba m) :
    NewCopy table new backup headerLba entriesLba m.flush :=
  ⟨fun k hk => (h.array k hk).flush, h.header.flush⟩

lemma NewCopy.write {lba count : Nat} {sector : Nat → Buf}
    (h : NewCopy table new true (device.sectorCount - 1) table.backupEntriesLba m)
    (hsound : table.Sound device.sectorCount) (hlba : lba + count ≤ table.backupEntriesLba) :
    NewCopy table new true (device.sectorCount - 1) table.backupEntriesLba
      (m.write lba count sector) := by
  have hend := hsound.backup_end
  exact ⟨fun k hk => (h.array k hk).write (.inr (by omega)), h.header.write (.inr (by omega))⟩

lemma sectorOf_apply {buffer : Buf} {k i : Nat} (hi : i < sectorBytes) :
    sectorOf buffer k i = buffer (k * sectorBytes + i) := by
  rw [sectorOf, Buf.clip_of_lt hi, Buf.skip_apply]

lemma NewCopy.whole {other : Nat} (h : NewCopy table new backup headerLba entriesLba m)
    (hsound : table.Sound device.sectorCount)
    (hheader : headerLba = if backup then device.sectorCount - 1 else primaryHeaderLba)
    (hother : other = if backup then primaryHeaderLba else device.sectorCount - 1)
    (hentries : entriesLba = if backup then table.backupEntriesLba else table.primaryEntriesLba)
    (hm : m.Survives medium) :
    WholeCopy medium headerLba other entriesLba device.sectorCount table new := by
  refine ⟨?_, fun i hi => ?_⟩
  · rw [hentries, ← gptHeaderValid_make hsound (crc32_lt new _ none), ← hheader, ← hother]
    refine gptHeaderValid_congr fun i hi => ?_
    rw [sectorsFrom, Nat.div_eq_of_lt hi, Nat.mod_eq_of_lt hi, Nat.add_zero, h.header.survives hm,
      sectorOf_apply hi, Nat.zero_mul, Nat.zero_add]
    rfl
  · have hmod : i % sectorBytes < sectorBytes := Nat.mod_lt _ (by decide)
    rw [sectorsFrom, (h.array _ (hsound.sector_lt hi)).survives hm, sectorOf_apply hmod,
      Nat.div_add_mod']

/-- What is on the medium at every point of an update: the old primary copy or
the new backup copy. -/
def OneCopy (device : Device) (disk : Nat → Buf) (table : GptTable) (new : Buf) (m : Media Buf) :
    Prop :=
  OldPrimary disk table m ∨
    NewCopy table new true (device.sectorCount - 1) table.backupEntriesLba m

lemma gptWriteUpdated_spec (hsound : table.Sound device.sectorCount) (answers : Nat → Answer) :
    Prog.wp (gptWriteUpdated device table new)
      (fun _ d => NewCopy table new true (device.sectorCount - 1) table.backupEntriesLba d.media ∧
        NewCopy table new false primaryHeaderLba table.primaryEntriesLba d.media)
      (fun _ d => OneCopy device disk table new d.media) ⟨⟨disk, []⟩, answers⟩ := by
  have h1 := hsound.primary_ge
  have h2 := hsound.primary_le
  have h3 := hsound.first_le
  have h4 := hsound.last_lt
  have hend := hsound.backup_end
  have hone : primaryHeaderLba = 1 := rfl
  unfold primaryEntriesLba at h1
  have h : OldPrimary disk table ⟨disk, []⟩ := fun s _ => ⟨rfl, by simp⟩
  unfold gptWriteUpdated
  split
  · exact .inl h
  -- The backup copy: the old primary is untouched until the flush succeeds.
  refine (gptWrite_spec (.inl h) (.inl (h.write le_rfl))).bind fun _ d1 hd1 => ?_
  replace h : OldPrimary disk table d1.media := hd1 ▸ h.write le_rfl
  refine (gptWrite_spec (.inl h) (.inl (h.write (by omega)))).bind fun _ d2 hd2 => ?_
  replace h : OldPrimary disk table d2.media := hd2 ▸ h.write (by omega)
  refine (blockFlush_spec (.inl h)).bind fun _ d3 hd3 => ?_
  -- The primary copy: the new backup is on the medium.
  have hnew : NewCopy table new true (device.sectorCount - 1) table.backupEntriesLba d3.media := by
    rw [hd3, hd2, hd1]
    exact newCopy_flush (.inr (by omega))
  refine (gptWrite_spec (.inr hnew) (.inr (hnew.write hsound (by omega)))).bind fun _ d4 hd4 => ?_
  replace hnew : NewCopy table new true (device.sectorCount - 1) table.backupEntriesLba d4.media :=
    hd4 ▸ hnew.write hsound (by omega)
  refine (gptWrite_spec (.inr hnew) (.inr (hnew.write hsound (by omega)))).bind fun _ d5 hd5 => ?_
  replace hnew : NewCopy table new true (device.sectorCount - 1) table.backupEntriesLba d5.media :=
    hd5 ▸ hnew.write hsound (by omega)
  refine (blockFlush_spec (.inr hnew)).bind fun _ d6 hd6 => ?_
  replace hnew : NewCopy table new true (device.sectorCount - 1) table.backupEntriesLba d6.media :=
    hd6 ▸ hnew.flush
  have hprimary : NewCopy table new false primaryHeaderLba table.primaryEntriesLba d6.media := by
    rw [hd6, hd5, hd4]
    exact newCopy_flush (.inl (by omega))
  refine (blockDeviceIsLive_spec (.inr hnew)).mono (fun _ d7 hd7 => ?_) fun _ _ h => h
  rw [hd7]
  exact ⟨hnew, hprimary⟩

/-- Wherever power is lost during an update of a table that loads, the medium
has the old table whole in its primary copy or the new one in its backup copy. -/
theorem gptWriteUpdated_keeps_copy {answers : Nat → Answer}
    (hload : gptLoad device disk = .ok (table, old))
    (hm : (gptWriteUpdated device table new ⟨⟨disk, []⟩, answers⟩).2.media.Survives medium) :
    PrimaryIs device medium table old ∨ BackupIs device medium table new := by
  obtain ⟨hsound, hold, -⟩ := gptLoad_spec hload
  have hspec : Prog.wp (gptWriteUpdated device table new)
      (fun _ d => OneCopy device disk table new d.media)
      (fun _ d => OneCopy device disk table new d.media) ⟨⟨disk, []⟩, answers⟩ :=
    (gptWriteUpdated_spec hsound answers).mono (fun _ _ h => .inr h.1) fun _ _ h => h
  rcases Prog.wp_state.mp hspec with h | h
  · exact .inl (h.whole hsound hold hm)
  · exact .inr (h.whole hsound rfl rfl rfl hm)

lemma gptLoad_of_new {used : Nat} (hdevice : device.type ≠ .partition ∧
      device.sectorSize = sectorBytes ∧ minSectors ≤ device.sectorCount)
    (hmbr : mbrIsProtective (sectorsFrom disk 0) = true) (hsound : table.Sound device.sectorCount)
    (hp : NewCopy table new false primaryHeaderLba table.primaryEntriesLba ⟨disk, []⟩)
    (hb : NewCopy table new true (device.sectorCount - 1) table.backupEntriesLba ⟨disk, []⟩)
    (hvalid : gptEntriesValid new table.entryCount table.firstUsable table.lastUsable = some used) :
    gptLoad device disk = .ok ({ table with partitionCount := used },
        sectorsFrom disk table.primaryEntriesLba) ∧
      ∀ i < table.entryCount * table.entrySize,
        sectorsFrom disk table.primaryEntriesLba i = new i := by
  have hdurable : (⟨disk, []⟩ : Media Buf).Survives disk := fun _ => .inl rfl
  have hprimary := hp.whole hsound rfl rfl rfl hdurable
  have hbackup := hb.whole hsound rfl rfl rfl hdurable
  refine ⟨gptLoad_of_copies hdevice hmbr hsound hprimary hbackup ?_, hprimary.array⟩
  rw [← hvalid]
  refine gptEntriesValid_congr fun i hi => hprimary.array i ?_
  rwa [hsound.entrySize]

end

def smallDevice : Device := ⟨.disk, sectorBytes, 68, by decide⟩

def emptyTable : GptTable where
  partitionCount := 0
  entryCount := 1
  entrySize := partitionEntryBytes
  firstUsable := 3
  lastUsable := 65
  primaryEntriesLba := 2
  backupEntriesLba := 66
  arraySectors := 1
  diskGuid := List.replicate guidBytes 7

def emptyDisk (s : Nat) : Buf :=
  if s = 0 then fun i => if i = 510 then 0x55 else if i = 511 then 0xaa else if i = 450 then 0xee else 0
  else if s = 1 then sectorOf (updatedHeader emptyTable false Buf.zero) 0
  else if s = 67 then sectorOf (updatedHeader emptyTable true Buf.zero) 0
  else Buf.zero

lemma emptyTable_sound : emptyTable.Sound smallDevice.sectorCount := by
  refine ⟨by decide, ⟨7, by decide, by decide⟩, ?_, ?_, ?_, ?_, ?_, ?_, ?_, ?_, ?_, ?_⟩ <;> decide

lemma gptLoad_emptyDisk :
    gptLoad smallDevice emptyDisk = .ok (emptyTable, sectorsFrom emptyDisk 2) := by
  have hzero : sectorOf Buf.zero 0 = Buf.zero := by
    funext i
    simp [sectorOf, Buf.clip, Buf.skip, Buf.zero]
  have hp : NewCopy emptyTable Buf.zero false 1 2 ⟨emptyDisk, []⟩ := by
    refine ⟨fun k hk => ?_, rfl, by simp⟩
    obtain rfl : k = 0 := by simpa [emptyTable] using hk
    exact ⟨hzero.symm, by simp⟩
  have hb : NewCopy emptyTable Buf.zero true 67 66 ⟨emptyDisk, []⟩ := by
    refine ⟨fun k hk => ?_, rfl, by simp⟩
    obtain rfl : k = 0 := by simpa [emptyTable] using hk
    exact ⟨hzero.symm, by simp⟩
  exact (gptLoad_of_new (by decide) (by decide) emptyTable_sound hp hb (by decide)).1

/-- Power is lost while the new backup array is on the medium and nothing else. -/
theorem gptWriteUpdated_keeps_copy_torn :
    PrimaryIs smallDevice (Function.update emptyDisk 66 (sectorOf (fun _ => 1) 0)) emptyTable
        (sectorsFrom emptyDisk 2) ∨
      BackupIs smallDevice (Function.update emptyDisk 66 (sectorOf (fun _ => 1) 0)) emptyTable
        fun _ => 1 := by
  have hm : (gptWriteUpdated smallDevice emptyTable (fun _ => 1)
      ⟨⟨emptyDisk, []⟩, fun _ => .cut⟩).2.media.Survives
        (Function.update emptyDisk 66 (sectorOf (fun _ => 1) 0)) := by
    intro s
    by_cases hs : s = 66
    · subst hs
      rw [Function.update_self]
      exact .inr List.mem_cons_self
    · exact .inl (Function.update_of_ne hs _ _)
  exact gptWriteUpdated_keeps_copy gptLoad_emptyDisk hm

end Mangrove.Gpt
