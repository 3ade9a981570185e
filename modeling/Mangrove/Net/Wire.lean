import Mathlib

/-! TCP segments on the wire, and the internet checksum as a residue: up to the two forms
of zero it is the sum of the big-endian words modulo 65535. -/

namespace Mangrove.Net.Tcp

abbrev Seq := BitVec 32

def seqBefore (left right : Seq) : Bool := (left - right).msb

lemma seqBefore_iff {left right : Seq} :
    seqBefore left right = true ↔ 2 ^ 31 ≤ (left - right).toNat := by
  simp [seqBefore, BitVec.msb_eq_decide]

structure Ipv4 where
  octet0 : UInt8
  octet1 : UInt8
  octet2 : UInt8
  octet3 : UInt8
deriving DecidableEq

def Ipv4.octets (a : Ipv4) : List UInt8 := [a.octet0, a.octet1, a.octet2, a.octet3]

/-- A segment without its checksum and options. -/
structure Segment where
  sourcePort : BitVec 16
  destinationPort : BitVec 16
  sequence : Seq
  acknowledgment : Seq
  flags : BitVec 8
  window : BitVec 16
  payload : List UInt8
deriving DecidableEq

def headerMinSize : Nat := 20

def mss : Nat := 1460

def ethernetPayloadMax : Nat := 1500

def protocol : UInt8 := 6

def flagFin : BitVec 8 := 0x01#8
def flagSyn : BitVec 8 := 0x02#8
def flagRst : BitVec 8 := 0x04#8
def flagPsh : BitVec 8 := 0x08#8
def flagAck : BitVec 8 := 0x10#8

def hasFlag (flags flag : BitVec 8) : Bool := flags &&& flag ≠ 0#8

def read16 (p : List UInt8) (i : Nat) : BitVec 16 :=
  (p.getD i 0).toBitVec ++ (p.getD (i + 1) 0).toBitVec

def read32 (p : List UInt8) (i : Nat) : BitVec 32 := read16 p i ++ read16 p (i + 2)

def write16 (value : BitVec 16) : List UInt8 :=
  [UInt8.ofBitVec (value.extractLsb' 8 8), UInt8.ofBitVec (value.extractLsb' 0 8)]

def write32 (value : BitVec 32) : List UInt8 :=
  write16 (value.extractLsb' 16 16) ++ write16 (value.extractLsb' 0 16)

/-- The sum stays below `2 ^ 17`, so the 32 bits of the source are never exceeded. -/
def checksumSum : List UInt8 → Nat → Nat
  | a :: b :: rest, sum =>
    checksumSum rest
      ((sum + (a.toNat * 256 + b.toNat)) % 65536 + (sum + (a.toNat * 256 + b.toNat)) / 65536)
  | [a], sum => sum + a.toNat * 256
  | [], sum => sum

def foldCarry : Nat → Nat → Nat
  | 0, sum => sum
  | fuel + 1, sum => if sum / 65536 = 0 then sum else foldCarry fuel (sum % 65536 + sum / 65536)

def netChecksum (data : List UInt8) : BitVec 16 :=
  ~~~ BitVec.ofNat 16 (foldCarry 2 (checksumSum data 0))

variable (data : List UInt8) {sum : Nat}

lemma checksumSum_lt (h : sum ≤ 65536) : checksumSum data sum < 2 ^ 17 := by
  induction data, sum using checksumSum.induct with
  | case1 a b rest sum ih =>
    have ha := a.toNat_lt
    have hb := b.toNat_lt
    rw [checksumSum]
    exact ih (by omega)
  | case2 a sum =>
    have ha := a.toNat_lt
    rw [checksumSum]
    omega
  | case3 sum =>
    rw [checksumSum]
    omega

lemma foldCarry_checksumSum : foldCarry 2 (checksumSum data 0) < 65536 := by
  have hsum := checksumSum_lt data (Nat.zero_le 65536)
  generalize checksumSum data 0 = sum at hsum
  simp only [foldCarry]
  split
  · omega
  split
  · omega
  omega

def clearChecksum (segment : List UInt8) : List UInt8 := (segment.set 16 0).set 17 0

def tcpChecksum (source destination : Ipv4) (segment : List UInt8) : BitVec 16 :=
  if segment.length < headerMinSize ∨ ethernetPayloadMax < segment.length then 0#16
  else netChecksum (source.octets ++ destination.octets ++ [0, protocol] ++
    write16 (BitVec.ofNat 16 segment.length) ++ clearChecksum segment)

def parseSegment (packet : List UInt8) : Option Segment :=
  let headerLength := (packet.getD 12 0).toNat / 16 * 4
  if packet.length < headerMinSize then none
  else if headerLength < headerMinSize ∨ packet.length < headerLength then none
  else some {
    sourcePort := read16 packet 0
    destinationPort := read16 packet 2
    sequence := read32 packet 4
    acknowledgment := read32 packet 8
    flags := (packet.getD 13 0).toBitVec
    window := read16 packet 14
    payload := packet.drop headerLength }

def segmentBytes (s : Segment) : List UInt8 :=
  write16 s.sourcePort ++ write16 s.destinationPort ++ write32 s.sequence ++
    write32 s.acknowledgment ++ [0x50, UInt8.ofBitVec s.flags] ++ write16 s.window ++
    [0, 0, 0, 0] ++ s.payload

def buildPacket (source destination : Ipv4) (s : Segment) : List UInt8 :=
  let checksum := tcpChecksum source destination (segmentBytes s)
  match write16 checksum with
  | [high, low] => ((segmentBytes s).set 16 high).set 17 low
  | _ => segmentBytes s

lemma append_halves (n : Nat) (value : BitVec (n + n)) :
    value.extractLsb' n n ++ value.extractLsb' 0 n = value := by
  ext i hi
  simp only [BitVec.getElem_append, BitVec.getElem_extractLsb']
  split
  · rw [Nat.zero_add]
    exact BitVec.getLsbD_eq_getElem hi
  · rw [show n + (i - n) = i by omega]
    exact BitVec.getLsbD_eq_getElem hi

variable (source destination : Ipv4) (s : Segment)

lemma parseSegment_buildPacket : parseSegment (buildPacket source destination s) = some s := by
  simp only [buildPacket, write16, segmentBytes, write32, List.cons_append, List.nil_append,
    List.set_cons_succ, List.set_cons_zero, parseSegment, read16, read32,
    List.getD_cons_succ, List.getD_cons_zero, List.length_cons, UInt8.toBitVec_ofBitVec,
    append_halves 8]
  rw [if_neg (by simp [headerMinSize]), if_neg (by simp [headerMinSize])]
  simp only [append_halves 16]
  simp

lemma tcpChecksum_buildPacket :
    tcpChecksum source destination (buildPacket source destination s) =
      read16 (buildPacket source destination s) 16 := by
  have hclear : clearChecksum (buildPacket source destination s) =
      clearChecksum (segmentBytes s) := by
    simp [clearChecksum, buildPacket, write16, segmentBytes, write32]
  have hlength : (buildPacket source destination s).length = (segmentBytes s).length := by
    simp [buildPacket, write16]
  have hread : read16 (buildPacket source destination s) 16 =
      tcpChecksum source destination (segmentBytes s) := by
    simp only [buildPacket, write16, segmentBytes, write32, List.cons_append, List.nil_append,
      List.set_cons_succ, List.set_cons_zero, read16,
      List.getD_cons_succ, List.getD_cons_zero, UInt8.toBitVec_ofBitVec, append_halves 8]
  rw [hread, tcpChecksum, tcpChecksum, hclear, hlength]

def weight (i : Nat) : Nat := if i % 2 = 0 then 256 else 1

def wordSum (data : List UInt8) : Nat :=
  ∑ i ∈ Finset.range data.length, weight i * (data.getD i 0).toNat

lemma weight_add_even (i : Nat) {n : Nat} (hn : n % 2 = 0) : weight (n + i) = weight i := by
  unfold weight
  rw [Nat.add_mod, hn, Nat.zero_add, Nat.mod_mod]

@[simp] lemma wordSum_nil : wordSum [] = 0 := rfl

lemma wordSum_append {l : List UInt8} (hl : l.length % 2 = 0) (m : List UInt8) :
    wordSum (l ++ m) = wordSum l + wordSum m := by
  unfold wordSum
  rw [List.length_append, Finset.sum_range_add]
  congr 1
  · apply Finset.sum_congr rfl
    intro i hi
    rw [List.getD_append _ _ _ _ (Finset.mem_range.mp hi)]
  · apply Finset.sum_congr rfl
    intro i hi
    rw [weight_add_even i hl, List.getD_append_right _ _ _ _ (Nat.le_add_right _ _),
      Nat.add_sub_cancel_left]

lemma wordSum_pair (a b : UInt8) : wordSum [a, b] = a.toNat * 256 + b.toNat := by
  simp [wordSum, Finset.sum_range_succ, weight]
  omega

lemma wordSum_cons_cons (a b : UInt8) (rest : List UInt8) :
    wordSum (a :: b :: rest) = a.toNat * 256 + b.toNat + wordSum rest := by
  rw [← wordSum_pair]
  exact wordSum_append (l := [a, b]) (by simp) rest

lemma wordSum_set {l : List UInt8} {i : Nat} (hi : i < l.length) (b : UInt8) :
    wordSum (l.set i b) + weight i * (l.getD i 0).toNat = wordSum l + weight i * b.toNat := by
  have hmem := Finset.mem_range.mpr hi
  unfold wordSum
  rw [List.length_set, ← Finset.add_sum_erase _ _ hmem,
    ← Finset.add_sum_erase _ (fun j => weight j * (l.getD j 0).toNat) hmem]
  have hrest : ∑ j ∈ (Finset.range l.length).erase i, weight j * ((l.set i b).getD j 0).toNat =
      ∑ j ∈ (Finset.range l.length).erase i, weight j * (l.getD j 0).toNat := by
    apply Finset.sum_congr rfl
    intro j hj
    have hne : i ≠ j := fun h => Finset.ne_of_mem_erase hj h.symm
    rw [List.getD_eq_getElem?_getD, List.getD_eq_getElem?_getD, List.getElem?_set_ne hne]
  have hhere : (l.set i b).getD i 0 = b := by
    rw [List.getD_eq_getElem?_getD, List.getElem?_set_self hi, Option.getD_some]
  rw [hrest, hhere]
  omega

def tailSum (data : List UInt8) (n : Nat) : Nat :=
  ∑ i ∈ Finset.Ico n data.length, weight i * (data.getD i 0).toNat

lemma wordSum_take {l : List UInt8} {n : Nat} (hn : n ≤ l.length) :
    wordSum (l.take n) + tailSum l n = wordSum l := by
  unfold wordSum tailSum
  rw [List.length_take, Nat.min_eq_left hn, ← Finset.sum_range_add_sum_Ico _ hn]
  congr 1
  apply Finset.sum_congr rfl
  intro i hi
  rw [List.getD_eq_getElem?_getD, List.getD_eq_getElem?_getD,
    List.getElem?_take_of_lt (Finset.mem_range.mp hi)]

def residue (sum : Nat) : Nat := if sum % 65535 = 0 then 65535 else sum % 65535

lemma residue_eq_iff {s t : Nat} : residue s = residue t ↔ s % 65535 = t % 65535 := by
  unfold residue
  split
  · split <;> omega
  · split <;> omega

lemma checksumSum_spec (sum : Nat) :
    checksumSum data sum % 65535 = (sum + wordSum data) % 65535 ∧
      (0 < sum + wordSum data → 0 < checksumSum data sum) := by
  induction data, sum using checksumSum.induct with
  | case1 a b rest sum ih =>
    rw [checksumSum, wordSum_cons_cons]
    omega
  | case2 a sum =>
    have hone : wordSum [a] = a.toNat * 256 := by
      simp [wordSum, weight]
      omega
    rw [checksumSum, hone]
    exact ⟨rfl, id⟩
  | case3 sum =>
    rw [checksumSum, wordSum_nil]
    exact ⟨rfl, id⟩

lemma foldCarry_eq (hpos : 0 < sum) (hlt : sum < 2 ^ 17) : foldCarry 2 sum = residue sum := by
  simp only [foldCarry, residue]
  split <;> split <;> (try split) <;> omega

lemma netChecksum_eq {data : List UInt8} (hpos : 0 < wordSum data) :
    (netChecksum data).toNat = 65535 - residue (wordSum data) := by
  obtain ⟨hmod, hnonzero⟩ := checksumSum_spec data 0
  rw [Nat.zero_add] at hmod hnonzero
  have hfold := foldCarry_eq (hnonzero hpos) (checksumSum_lt data (Nat.zero_le 65536))
  have hlt := foldCarry_checksumSum data
  rw [netChecksum, BitVec.toNat_not, BitVec.toNat_ofNat, Nat.mod_eq_of_lt hlt, hfold,
    residue_eq_iff.mpr hmod]

lemma netChecksum_eq_iff {data data' : List UInt8} (hpos : 0 < wordSum data)
    (hpos' : 0 < wordSum data') :
    netChecksum data = netChecksum data' ↔ wordSum data % 65535 = wordSum data' % 65535 := by
  have hle (s : Nat) : residue s ≤ 65535 := by
    unfold residue
    split <;> omega
  rw [← BitVec.toNat_inj, netChecksum_eq hpos, netChecksum_eq hpos', ← residue_eq_iff]
  have h := hle (wordSum data)
  have h' := hle (wordSum data')
  omega

end Mangrove.Net.Tcp
