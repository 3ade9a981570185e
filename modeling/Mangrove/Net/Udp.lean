import Mangrove.Net.Wire

/-! UDP datagrams. An inverted bit of the ports, the payload or the checksum is always
noticed; a bit cleared in the length field may not be. -/

namespace Mangrove.Net.Udp

open Tcp

def headerSize : Nat := 8

def protocol : UInt8 := 17

def clearChecksum (packet : List UInt8) : List UInt8 := (packet.set 6 0).set 7 0

def summed (source destination : Ipv4) (packet : List UInt8) : List UInt8 :=
  source.octets ++ destination.octets ++ [0, protocol] ++
    write16 (BitVec.ofNat 16 packet.length) ++ clearChecksum packet

def udpChecksum (source destination : Ipv4) (packet : List UInt8) : BitVec 16 :=
  if packet.length < headerSize ∨ ethernetPayloadMax < packet.length then 0#16
  else netChecksum (summed source destination packet)

section

variable {η : Type}

abbrev Endpoints (η : Type) := Fin 8 → Option (BitVec 16 × η)

def endpointOf (endpoints : Endpoints η) (port : BitVec 16) : Option η :=
  (List.finRange 8).findSome? fun i =>
    (endpoints i).bind fun e => if e.1 = port then some e.2 else none

/-- A call of a handler. -/
structure Delivery (η : Type) where
  handler : η
  source : Ipv4
  sourcePort : BitVec 16
  destination : Ipv4
  destinationPort : BitVec 16
  payload : List UInt8
deriving DecidableEq

def packetLength (packet : List UInt8) : Nat := (read16 packet 4).toNat

def accepts (source destination : Ipv4) (packet : List UInt8) : Bool :=
  if packet.length < headerSize then false
  else if packetLength packet < headerSize ∨ packet.length < packetLength packet then false
  else if read16 packet 6 = 0 then true
  else if ethernetPayloadMax < packetLength packet then false
  else udpChecksum source destination (clearChecksum (packet.take (packetLength packet))) =
    read16 packet 6

def udpReceive (endpoints : Endpoints η) (source destination : Ipv4) (packet : List UInt8) :
    Option (Delivery η) :=
  if accepts source destination packet then
    (endpointOf endpoints (read16 packet 2)).map fun handler =>
      { handler := handler
        source := source
        sourcePort := read16 packet 0
        destination := destination
        destinationPort := read16 packet 2
        payload := (packet.drop headerSize).take (packetLength packet - headerSize) }
  else none

end

def datagram (sourcePort destinationPort checksum : BitVec 16) (payload : List UInt8) :
    List UInt8 :=
  write16 sourcePort ++ write16 destinationPort ++
    write16 (BitVec.ofNat 16 (headerSize + payload.length)) ++ write16 checksum ++ payload

def udpTransmit (source destination : Ipv4) (sourcePort destinationPort : BitVec 16)
    (payload : List UInt8) : Option (List UInt8) :=
  if sourcePort = 0 ∨ destinationPort = 0 ∨ ethernetPayloadMax - headerSize < payload.length then
    none
  else
    let sum := udpChecksum source destination (datagram sourcePort destinationPort 0 payload)
    some (datagram sourcePort destinationPort (if sum = 0 then 0xffff else sum) payload)

section

variable {sourcePort destinationPort checksum : BitVec 16} {payload : List UInt8}
  (value : BitVec 16)

lemma write16_length : (write16 value).length = 2 := rfl

variable (rest : List UInt8)

lemma read16_write16 : read16 (write16 value ++ rest) 0 = value := by
  simp only [write16, read16, List.cons_append, List.nil_append, List.getD_cons_succ,
    List.getD_cons_zero, UInt8.toBitVec_ofBitVec, append_halves 8]

lemma read16_write16_add (i : Nat) : read16 (write16 value ++ rest) (i + 2) = read16 rest i := by
  simp only [write16, read16, List.cons_append, List.nil_append, List.getD_cons_succ]

@[simp] lemma datagram_length : (datagram sourcePort destinationPort checksum payload).length =
      headerSize + payload.length := by
  simp only [datagram, List.length_append, write16_length, headerSize]

lemma read16_datagram_source :
    read16 (datagram sourcePort destinationPort checksum payload) 0 = sourcePort := by
  simp only [datagram, List.append_assoc, read16_write16]

lemma read16_datagram_destination :
    read16 (datagram sourcePort destinationPort checksum payload) 2 = destinationPort := by
  simp only [datagram, List.append_assoc, read16_write16_add _ _ 0, read16_write16]

lemma packetLength_datagram (h : payload.length ≤ ethernetPayloadMax - headerSize) :
    packetLength (datagram sourcePort destinationPort checksum payload) =
      headerSize + payload.length := by
  have hlt : headerSize + payload.length < 2 ^ 16 := by
    simp only [ethernetPayloadMax, headerSize] at h ⊢
    omega
  simp only [packetLength, datagram, List.append_assoc, read16_write16_add _ _ 2,
    read16_write16_add _ _ 0, read16_write16, BitVec.toNat_ofNat, Nat.mod_eq_of_lt hlt]

lemma read16_datagram_checksum :
    read16 (datagram sourcePort destinationPort checksum payload) 6 = checksum := by
  simp only [datagram, List.append_assoc, read16_write16_add _ _ 4, read16_write16_add _ _ 2,
    read16_write16_add _ _ 0, read16_write16]

lemma datagram_drop :
    (datagram sourcePort destinationPort checksum payload).drop headerSize = payload := by
  simp [datagram, write16, headerSize]

lemma clearChecksum_datagram (checksum' : BitVec 16) :
    clearChecksum (datagram sourcePort destinationPort checksum payload) =
      clearChecksum (datagram sourcePort destinationPort checksum' payload) := by
  simp [datagram, write16, clearChecksum]

end

variable (packet : List UInt8)

lemma clearChecksum_length : (clearChecksum packet).length = packet.length := by
  simp [clearChecksum]

lemma clearChecksum_clearChecksum :
    clearChecksum (clearChecksum packet) = clearChecksum packet := by
  unfold clearChecksum
  rw [List.set_comm _ _ (by decide : 7 ≠ 6), List.set_set, List.set_set]

variable (source destination : Ipv4)

lemma udpChecksum_clearChecksum (packet : List UInt8) :
    udpChecksum source destination (clearChecksum packet) =
      udpChecksum source destination packet := by
  rw [udpChecksum, udpChecksum, summed, summed, clearChecksum_clearChecksum,
    clearChecksum_length]

lemma accepts_iff {source destination : Ipv4} {packet : List UInt8}
    (hlength : packet.length ≤ ethernetPayloadMax) (hchecksum : read16 packet 6 ≠ 0) :
    accepts source destination packet = true ↔
      headerSize ≤ packetLength packet ∧ packetLength packet ≤ packet.length ∧
        udpChecksum source destination (packet.take (packetLength packet)) = read16 packet 6 := by
  unfold accepts
  rw [udpChecksum_clearChecksum, if_neg hchecksum]
  split
  · exact iff_of_false Bool.false_ne_true (by omega)
  split
  · exact iff_of_false Bool.false_ne_true (by omega)
  rw [if_neg (by omega), decide_eq_true_iff]
  constructor
  · intro h
    exact ⟨by omega, by omega, h⟩
  · intro h
    exact h.2.2

def udpSum (source destination : Ipv4) (packet : List UInt8) : Nat :=
  wordSum (source.octets ++ destination.octets) + 17 + packet.length +
    wordSum (clearChecksum packet)

lemma wordSum_summed {packet : List UInt8} (h : packet.length ≤ ethernetPayloadMax) :
    wordSum (summed source destination packet) = udpSum source destination packet := by
  have hlt : packet.length < 2 ^ 16 := by
    unfold ethernetPayloadMax at h
    omega
  have hfield : wordSum (write16 (BitVec.ofNat 16 packet.length)) = packet.length := by
    rw [write16, wordSum_pair]
    simp only [UInt8.toNat_ofBitVec, BitVec.extractLsb'_toNat, BitVec.toNat_ofNat,
      Nat.mod_eq_of_lt hlt, Nat.shiftRight_eq_div_pow]
    omega
  have hprotocol : wordSum [0, protocol] = 17 := by
    rw [wordSum_pair]
    rfl
  unfold summed udpSum
  rw [wordSum_append (by simp [Ipv4.octets, write16]), wordSum_append (by simp [Ipv4.octets]),
    wordSum_append (by simp [Ipv4.octets]), hfield, hprotocol]

lemma udpSum_pos (packet : List UInt8) : 0 < udpSum source destination packet := by
  unfold udpSum
  omega

section

variable {source destination : Ipv4} {packet packet' : List UInt8}

lemma udpChecksum_eq (h : headerSize ≤ packet.length) (h' : packet.length ≤ ethernetPayloadMax) :
    udpChecksum source destination packet = netChecksum (summed source destination packet) := by
  rw [udpChecksum, if_neg (by omega)]

lemma udpChecksum_eq_iff (h : headerSize ≤ packet.length)
    (hmax : packet.length ≤ ethernetPayloadMax) (h' : headerSize ≤ packet'.length)
    (hmax' : packet'.length ≤ ethernetPayloadMax) :
    udpChecksum source destination packet = udpChecksum source destination packet' ↔
      udpSum source destination packet % 65535 = udpSum source destination packet' % 65535 := by
  rw [udpChecksum_eq h hmax, udpChecksum_eq h' hmax', netChecksum_eq_iff, wordSum_summed _ _ hmax,
    wordSum_summed _ _ hmax']
  · rw [wordSum_summed _ _ hmax]
    exact udpSum_pos _ _ _
  · rw [wordSum_summed _ _ hmax']
    exact udpSum_pos _ _ _

lemma udpChecksum_eq_zero_iff (h : headerSize ≤ packet.length)
    (hmax : packet.length ≤ ethernetPayloadMax) :
    udpChecksum source destination packet = 0 ↔ 65535 ∣ udpSum source destination packet := by
  have hpos := udpSum_pos source destination packet
  rw [← wordSum_summed _ _ hmax] at hpos ⊢
  rw [udpChecksum_eq h hmax, ← BitVec.toNat_inj, netChecksum_eq hpos, residue]
  simp only [BitVec.ofNat_eq_ofNat, BitVec.toNat_ofNat, Nat.zero_mod]
  split <;> omega

end

def flipBit (packet : List UInt8) (k : Nat) : List UInt8 :=
  packet.set (k / 8)
    (UInt8.ofBitVec ((packet.getD (k / 8) 0).toBitVec ^^^ BitVec.twoPow 8 (k % 8)))

def bitWeight (k : Nat) : Nat := weight (k / 8) * 2 ^ (k % 8)

def bitSet (packet : List UInt8) (k : Nat) : Bool := (packet.getD (k / 8) 0).toNat.testBit (k % 8)

lemma xor_bit : ∀ b : Fin 256, ∀ j : Fin 8,
    if b.val.testBit j then (b.val ^^^ 2 ^ j.val) + 2 ^ j.val = b.val
    else b.val ^^^ 2 ^ j.val = b.val + 2 ^ j.val := by
  decide +kernel

lemma bitWeight_pos (k : Nat) : 0 < bitWeight k := by
  unfold bitWeight weight
  split <;> simp

lemma bitWeight_lt (k : Nat) : bitWeight k < 65535 := by
  have hpow : 2 ^ (k % 8) ≤ 2 ^ 7 := Nat.pow_le_pow_right (by decide) (by omega)
  unfold bitWeight weight
  split <;> omega

section

variable {packet : List UInt8} {k : Nat}

lemma flipped_byte (packet : List UInt8) (k : Nat) : if bitSet packet k then
      weight (k / 8) * (UInt8.ofBitVec ((packet.getD (k / 8) 0).toBitVec ^^^
        BitVec.twoPow 8 (k % 8))).toNat + bitWeight k = weight (k / 8) * (packet.getD (k / 8) 0).toNat
    else
      weight (k / 8) * (UInt8.ofBitVec ((packet.getD (k / 8) 0).toBitVec ^^^
        BitVec.twoPow 8 (k % 8))).toNat = weight (k / 8) * (packet.getD (k / 8) 0).toNat + bitWeight k := by
  have hk : k % 8 < 8 := Nat.mod_lt _ (by decide)
  have hbit := xor_bit ⟨(packet.getD (k / 8) 0).toNat, UInt8.toNat_lt _⟩ ⟨k % 8, hk⟩
  have hpow : 2 ^ (k % 8) < 2 ^ 8 := Nat.pow_lt_pow_right (by decide) hk
  have hxor : (UInt8.ofBitVec ((packet.getD (k / 8) 0).toBitVec ^^^
      BitVec.twoPow 8 (k % 8))).toNat = (packet.getD (k / 8) 0).toNat ^^^ 2 ^ (k % 8) := by
    rw [UInt8.toNat_ofBitVec, BitVec.toNat_xor, BitVec.toNat_twoPow, Nat.mod_eq_of_lt hpow]
    rfl
  rw [hxor]
  unfold bitSet bitWeight
  split at hbit
  · next hset =>
    rw [if_pos hset, ← Nat.mul_add]
    exact congrArg _ hbit
  · next hset =>
    rw [if_neg hset, ← Nat.mul_add]
    exact congrArg _ hbit

lemma flipBit_length : (flipBit packet k).length = packet.length := List.length_set

variable {i : Nat}

lemma getD_flipBit (hi : i ≠ k / 8) : (flipBit packet k).getD i 0 = packet.getD i 0 := by
  rw [flipBit, List.getD_eq_getElem?_getD, List.getElem?_set_ne (Ne.symm hi),
    List.getD_eq_getElem?_getD]

lemma getD_flipBit_self (hk : k / 8 < packet.length) : (flipBit packet k).getD (k / 8) 0 =
      UInt8.ofBitVec ((packet.getD (k / 8) 0).toBitVec ^^^ BitVec.twoPow 8 (k % 8)) := by
  rw [flipBit, List.getD_eq_getElem?_getD, List.getElem?_set_self hk, Option.getD_some]

lemma read16_toNat (p : List UInt8) (i : Nat) :
    (read16 p i).toNat = (p.getD i 0).toNat * 256 + (p.getD (i + 1) 0).toNat := by
  have hlt := (p.getD (i + 1) 0).toNat_lt
  rw [read16, BitVec.toNat_append, UInt8.toNat_toBitVec, UInt8.toNat_toBitVec,
    ← Nat.shiftLeft_add_eq_or_of_lt hlt, Nat.shiftLeft_eq]

lemma read16_flipBit (h : i ≠ k / 8) (h' : i + 1 ≠ k / 8) :
    read16 (flipBit packet k) i = read16 packet i := by
  rw [read16, read16, getD_flipBit h, getD_flipBit h']

lemma read16_flipBit_moved {i : Nat} (hi : i % 2 = 0) (hk : k / 8 = i ∨ k / 8 = i + 1)
    (hlength : k / 8 < packet.length) : if bitSet packet k then
      (read16 (flipBit packet k) i).toNat + bitWeight k = (read16 packet i).toNat
    else (read16 (flipBit packet k) i).toNat = (read16 packet i).toNat + bitWeight k := by
  have hbyte := flipped_byte packet k
  rw [← getD_flipBit_self hlength] at hbyte
  rw [read16_toNat, read16_toNat]
  rcases hk with hk | hk
  · rw [getD_flipBit (show i + 1 ≠ k / 8 by omega)]
    rw [hk, weight, if_pos hi] at hbyte
    split at hbyte
    · next hset =>
      rw [if_pos hset]
      omega
    · next hset =>
      rw [if_neg hset]
      omega
  · have hodd : weight (i + 1) = 1 := if_neg (by omega)
    rw [getD_flipBit (show i ≠ k / 8 by omega)]
    rw [hk, hodd] at hbyte
    split at hbyte
    · next hset =>
      rw [if_pos hset]
      omega
    · next hset =>
      rw [if_neg hset]
      omega

lemma clearChecksum_flipBit (h : k / 8 ≠ 6) (h' : k / 8 ≠ 7) :
    clearChecksum (flipBit packet k) = (clearChecksum packet).set (k / 8)
      (UInt8.ofBitVec ((packet.getD (k / 8) 0).toBitVec ^^^ BitVec.twoPow 8 (k % 8))) := by
  rw [clearChecksum, clearChecksum, flipBit, List.set_comm _ _ h, List.set_comm _ _ h']

lemma clearChecksum_flipBit_of_checksum (h : k / 8 = 6 ∨ k / 8 = 7) :
    clearChecksum (flipBit packet k) = clearChecksum packet := by
  rw [clearChecksum, clearChecksum, flipBit]
  rcases h with h | h
  · rw [h, List.set_set]
  · rw [h, List.set_comm _ _ (by decide : 7 ≠ 6), List.set_set]

lemma getD_clearChecksum (h : i ≠ 6) (h' : i ≠ 7) :
    (clearChecksum packet).getD i 0 = packet.getD i 0 := by
  rw [clearChecksum, List.getD_eq_getElem?_getD, List.getElem?_set_ne (Ne.symm h'),
    List.getElem?_set_ne (Ne.symm h), List.getD_eq_getElem?_getD]

lemma wordSum_flipBit (h : k / 8 ≠ 6) (h' : k / 8 ≠ 7) (hk : k / 8 < packet.length) :
    if bitSet packet k then
      wordSum (clearChecksum (flipBit packet k)) + bitWeight k = wordSum (clearChecksum packet)
    else
      wordSum (clearChecksum (flipBit packet k)) =
        wordSum (clearChecksum packet) + bitWeight k := by
  have hset := @wordSum_set (clearChecksum packet) (k / 8)
    (by rw [clearChecksum_length]; exact hk)
    (UInt8.ofBitVec ((packet.getD (k / 8) 0).toBitVec ^^^ BitVec.twoPow 8 (k % 8)))
  rw [← clearChecksum_flipBit h h', getD_clearChecksum h h'] at hset
  have hbyte := flipped_byte packet k
  split at hbyte
  · next hbit =>
    rw [if_pos hbit]
    omega
  · next hbit =>
    rw [if_neg hbit]
    omega

lemma take_clearChecksum (packet : List UInt8) (n : Nat) :
    clearChecksum (packet.take n) = (clearChecksum packet).take n := by
  simp only [clearChecksum, List.take_set]

lemma udpSum_shortened (source destination : Ipv4) (hk : k / 8 = 4 ∨ k / 8 = 5)
    (hset : bitSet packet k = true) (hlong : headerSize + bitWeight k ≤ packet.length) :
    udpSum source destination ((flipBit packet k).take (packet.length - bitWeight k)) +
      (2 * bitWeight k + tailSum packet (packet.length - bitWeight k)) =
        udpSum source destination packet := by
  have hheader : headerSize = 8 := rfl
  have hmoved := @wordSum_flipBit packet k (by omega) (by omega) (by omega)
  rw [if_pos hset] at hmoved
  have htake := @wordSum_take (clearChecksum (flipBit packet k)) (packet.length - bitWeight k)
    (by rw [clearChecksum_length, flipBit_length]; omega)
  have htail : tailSum (clearChecksum (flipBit packet k)) (packet.length - bitWeight k) =
      tailSum packet (packet.length - bitWeight k) := by
    unfold tailSum
    rw [clearChecksum_length, flipBit_length]
    apply Finset.sum_congr rfl
    intro i hi
    have hge := (Finset.mem_Ico.mp hi).1
    rw [getD_clearChecksum (by omega) (by omega), getD_flipBit (by omega)]
  rw [htail] at htake
  have hlen : ((flipBit packet k).take (packet.length - bitWeight k)).length =
      packet.length - bitWeight k := by
    rw [List.length_take, flipBit_length]
    omega
  unfold udpSum
  rw [hlen, take_clearChecksum]
  omega

end

/-- A datagram with the length and the checksum that the receiver expects. -/
structure Sealed (source destination : Ipv4) (packet : List UInt8) : Prop where
  header : headerSize ≤ packet.length
  short : packet.length ≤ ethernetPayloadMax
  length : packetLength packet = packet.length
  checksum : udpChecksum source destination packet = read16 packet 6
  used : read16 packet 6 ≠ 0

namespace Sealed

variable {source destination : Ipv4} {packet : List UInt8} {k : Nat}

section

variable (h : Sealed source destination packet)

include h

lemma accepts : accepts source destination packet = true := by
  refine (accepts_iff h.short h.used).mpr ⟨h.length ▸ h.header, h.length.le, ?_⟩
  rw [h.length, List.take_length]
  exact h.checksum

lemma accepts_shortened (hk : k / 8 = 4 ∨ k / 8 = 5)
    (hset : bitSet packet k = true) : Udp.accepts source destination (flipBit packet k) = true ↔
      headerSize + bitWeight k ≤ packet.length ∧
        65535 ∣ 2 * bitWeight k + tailSum packet (packet.length - bitWeight k) := by
  have hheader : headerSize = 8 := rfl
  have hlength := h.header
  have hfield : read16 (flipBit packet k) 6 = read16 packet 6 :=
    read16_flipBit (by omega) (by omega)
  have hmoved := @read16_flipBit_moved packet k 4 rfl hk (by omega)
  rw [if_pos hset] at hmoved
  have hshort : packetLength (flipBit packet k) = packet.length - bitWeight k := by
    rw [← h.length, packetLength, packetLength, ← hmoved, Nat.add_sub_cancel]
  rw [accepts_iff (by rw [flipBit_length]; exact h.short) (hfield ▸ h.used), hshort, hfield,
    flipBit_length, ← h.checksum]
  by_cases hlong : headerSize + bitWeight k ≤ packet.length
  · have hsum := udpSum_shortened source destination hk hset hlong
    have hlen : ((flipBit packet k).take (packet.length - bitWeight k)).length =
        packet.length - bitWeight k := by
      rw [List.length_take, flipBit_length]
      omega
    have hmax := h.short
    rw [udpChecksum_eq_iff (by omega) (by omega) h.header h.short]
    omega
  · exact iff_of_false (by omega) (by omega)

lemma not_accepts_flipBit (hk : k / 8 < packet.length) (hfield : read16 (flipBit packet k) 6 ≠ 0)
    (hother : ¬ ((k / 8 = 4 ∨ k / 8 = 5) ∧ bitSet packet k = true)) :
    Udp.accepts source destination (flipBit packet k) = false := by
  have hpos := bitWeight_pos k
  have hlt := bitWeight_lt k
  rw [← Bool.not_eq_true, accepts_iff (by rw [flipBit_length]; exact h.short) hfield,
    flipBit_length]
  rintro ⟨-, hle, hsum⟩
  by_cases hlength : k / 8 = 4 ∨ k / 8 = 5
  · have hmoved := read16_flipBit_moved (i := 4) rfl hlength hk
    rw [if_neg fun hset => hother ⟨hlength, hset⟩] at hmoved
    have hlen := h.length
    unfold packetLength at hle hlen
    omega
  have hlen : packetLength (flipBit packet k) = packet.length := by
    rw [packetLength, read16_flipBit (by omega) (by omega)]
    exact h.length
  rw [hlen, ← flipBit_length, List.take_length] at hsum
  by_cases hchecksum : k / 8 = 6 ∨ k / 8 = 7
  · have hmoved := read16_flipBit_moved (i := 6) rfl hchecksum hk
    have hsame : udpChecksum source destination (flipBit packet k) =
        udpChecksum source destination packet := by
      rw [← udpChecksum_clearChecksum, clearChecksum_flipBit_of_checksum hchecksum,
        udpChecksum_clearChecksum]
    rw [← hsum, hsame, h.checksum] at hmoved
    split at hmoved <;> omega
  · have hmoved := @wordSum_flipBit packet k (by omega) (by omega) hk
    rw [read16_flipBit (by omega) (by omega), ← h.checksum, udpChecksum_eq_iff
      (by rw [flipBit_length]; exact h.header) (by rw [flipBit_length]; exact h.short) h.header
      h.short, udpSum, udpSum, flipBit_length] at hsum
    split at hmoved <;> omega

end

end Sealed

def lengthBit (k : Nat) : Nat := if k / 8 = 4 then 8 + k % 8 else k % 8

lemma bitWeight_eq {k : Nat} (hk : k / 8 = 4 ∨ k / 8 = 5) : bitWeight k = 2 ^ lengthBit k := by
  unfold bitWeight lengthBit weight
  rcases hk with hk | hk
  · rw [hk, if_pos rfl, if_pos rfl, Nat.pow_add]
  · rw [hk, if_neg (by decide), if_neg (by decide), Nat.one_mul]

lemma bitSet_eq {packet : List UInt8} {k : Nat} (hk : k / 8 = 4 ∨ k / 8 = 5) :
    bitSet packet k = (packetLength packet).testBit (lengthBit k) := by
  have hlow := (packet.getD 5 0).toNat_lt
  rw [packetLength, read16_toNat, show 4 + 1 = 5 from rfl]
  unfold bitSet lengthBit
  rcases hk with hk | hk
  · rw [hk, if_pos rfl, Nat.add_comm 8, ← Nat.testBit_div_two_pow]
    congr 1
    omega
  · have hbit : k % 8 < 8 := Nat.mod_lt _ (by decide)
    have hmod := Nat.testBit_mod_two_pow ((packet.getD 4 0).toNat * 256 + (packet.getD 5 0).toNat)
      8 (k % 8)
    rw [hk, if_neg (by decide)]
    rw [decide_eq_true hbit, Bool.true_and] at hmod
    rw [← hmod]
    congr 1
    omega

def Compensated (payload : List UInt8) (c : Nat) : Prop :=
  (headerSize + payload.length).testBit c = true ∧ 2 ^ c ≤ payload.length ∧
    65535 ∣ 2 * 2 ^ c + tailSum payload (payload.length - 2 ^ c)

/-- The datagram reaches the handler of its port with the payload it was built
for, and with one bit inverted it is accepted only without a checksum. -/
structure Agrees (source destination : Ipv4) (sourcePort destinationPort : BitVec 16)
    (payload packet : List UInt8) : Prop where
  delivered : ∀ (η : Type) (endpoints : Endpoints η) (handler : η),
    endpointOf endpoints destinationPort = some handler →
      udpReceive endpoints source destination packet =
        some ⟨handler, source, sourcePort, destination, destinationPort, payload⟩
  corrupted : ∀ k < 8 * packet.length, read16 (flipBit packet k) 6 ≠ 0 →
    accepts source destination (flipBit packet k) = false

section

variable {source destination : Ipv4} {sourcePort destinationPort : BitVec 16}
  {payload packet : List UInt8}

lemma tailSum_datagram (checksum : BitVec 16) (n : Nat) :
    tailSum (datagram sourcePort destinationPort checksum payload) (headerSize + n) =
      tailSum payload n := by
  have hbyte (i : Nat) : (datagram sourcePort destinationPort checksum payload).getD
      (headerSize + i) 0 = payload.getD i 0 := by
    have hdrop := @datagram_drop sourcePort destinationPort checksum payload
    conv_rhs => rw [← hdrop]
    rw [List.getD_eq_getElem?_getD, List.getD_eq_getElem?_getD, List.getElem?_drop]
  unfold tailSum
  rw [datagram_length, Nat.add_comm headerSize n, Nat.add_comm headerSize payload.length,
    ← Finset.sum_Ico_add]
  apply Finset.sum_congr rfl
  intro i _
  rw [weight_add_even i rfl, hbyte]

lemma udpTransmit_some (h : udpTransmit source destination sourcePort destinationPort payload =
      some packet) : payload.length ≤ ethernetPayloadMax - headerSize ∧
      packet = datagram sourcePort destinationPort
        (if udpChecksum source destination (datagram sourcePort destinationPort 0 payload) = 0
          then 0xffff
          else udpChecksum source destination (datagram sourcePort destinationPort 0 payload))
        payload := by
  unfold udpTransmit at h
  split at h
  · cases h
  · exact ⟨by omega, (Option.some.inj h).symm⟩

lemma udpChecksum_datagram (checksum checksum' : BitVec 16) :
    udpChecksum source destination (datagram sourcePort destinationPort checksum payload) =
      udpChecksum source destination (datagram sourcePort destinationPort checksum' payload) := by
  rw [← udpChecksum_clearChecksum, clearChecksum_datagram checksum', udpChecksum_clearChecksum]

section

variable (h : udpTransmit source destination sourcePort destinationPort payload = some packet)

include h

lemma sealed_of_transmit
    (hsum : udpChecksum source destination (datagram sourcePort destinationPort 0 payload) ≠ 0) :
    Sealed source destination packet := by
  obtain ⟨hlength, rfl⟩ := udpTransmit_some h
  have hmax : ethernetPayloadMax = 1500 := rfl
  have hheader : headerSize = 8 := rfl
  rw [if_neg hsum]
  refine ⟨?_, ?_, ?_, ?_, ?_⟩
  · rw [datagram_length]
    omega
  · rw [datagram_length]
    omega
  · rw [packetLength_datagram hlength, datagram_length]
  · rw [read16_datagram_checksum, udpChecksum_datagram _ 0]
  · rw [read16_datagram_checksum]
    exact hsum

lemma not_accepts_of_zero
    (hsum : udpChecksum source destination (datagram sourcePort destinationPort 0 payload) = 0) :
    accepts source destination packet = false := by
  obtain ⟨hlength, rfl⟩ := udpTransmit_some h
  have hmax : ethernetPayloadMax = 1500 := rfl
  have hheader : headerSize = 8 := rfl
  rw [if_pos hsum, ← Bool.not_eq_true, accepts_iff (by rw [datagram_length]; omega)
    (by rw [read16_datagram_checksum]; decide)]
  rintro ⟨-, -, hchecksum⟩
  rw [packetLength_datagram hlength, ← @datagram_length sourcePort destinationPort 0xffff payload,
    List.take_length, read16_datagram_checksum, udpChecksum_datagram _ 0, hsum] at hchecksum
  cases hchecksum

end

lemma delivered_of_sealed {checksum : BitVec 16}
    (hlength : payload.length ≤ ethernetPayloadMax - headerSize)
    (h : Sealed source destination (datagram sourcePort destinationPort checksum payload))
    {η : Type} {endpoints : Endpoints η} {handler : η}
    (hbound : endpointOf endpoints destinationPort = some handler) :
    udpReceive endpoints source destination (datagram sourcePort destinationPort checksum payload) =
      some ⟨handler, source, sourcePort, destination, destinationPort, payload⟩ := by
  rw [udpReceive, if_pos h.accepts, read16_datagram_destination, hbound, Option.map_some,
    read16_datagram_source, packetLength_datagram hlength, datagram_drop, Nat.add_sub_cancel_left,
    List.take_length]

lemma exists_lengthBit {c : Nat} (hc : c < 16) :
    ∃ k, (k / 8 = 4 ∨ k / 8 = 5) ∧ lengthBit k = c := by
  by_cases hlow : c < 8
  · refine ⟨40 + c, by omega, ?_⟩
    rw [lengthBit, if_neg (by omega)]
    omega
  · refine ⟨24 + c, by omega, ?_⟩
    rw [lengthBit, if_pos (by omega)]
    omega

/-- What is sent agrees with what is received exactly if the words of the datagram and its
pseudo-header do not add up to a multiple of 65535, whose checksum is zero, and no cleared bit of
the length is made up for. -/
theorem agrees_iff (h : udpTransmit source destination sourcePort destinationPort payload =
      some packet) : Agrees source destination sourcePort destinationPort payload packet ↔
      ¬ 65535 ∣ udpSum source destination (datagram sourcePort destinationPort 0 payload) ∧
        ∀ c, ¬ Compensated payload c := by
  obtain ⟨hlength, hpacket⟩ := udpTransmit_some h
  have hmax : ethernetPayloadMax = 1500 := rfl
  have hheader : headerSize = 8 := rfl
  rw [← udpChecksum_eq_zero_iff (by rw [datagram_length]; omega) (by rw [datagram_length]; omega)]
  by_cases hsum :
      udpChecksum source destination (datagram sourcePort destinationPort 0 payload) = 0
  · refine iff_of_false (fun hagrees => ?_) fun hcond => hcond.1 hsum
    have hdelivered := hagrees.delivered Unit (fun _ => some (destinationPort, ())) () (by
      simp [endpointOf, List.finRange])
    rw [udpReceive, not_accepts_of_zero h hsum] at hdelivered
    cases hdelivered
  have hsealed := sealed_of_transmit h hsum
  have hsize : packet.length = headerSize + payload.length := by rw [hpacket, datagram_length]
  have htail {c : Nat} (hc : 2 ^ c ≤ payload.length) :
      tailSum packet (packet.length - 2 ^ c) = tailSum payload (payload.length - 2 ^ c) := by
    rw [hsize, Nat.add_sub_assoc hc, hpacket, tailSum_datagram]
  have hoverlooked {k : Nat} (hk : k / 8 = 4 ∨ k / 8 = 5) :
      (bitSet packet k = true ∧ accepts source destination (flipBit packet k) = true) ↔
        Compensated payload (lengthBit k) := by
    rw [bitSet_eq hk, hsealed.length, hsize, Compensated]
    refine and_congr_right fun hset => ?_
    rw [hsealed.accepts_shortened hk (by rw [bitSet_eq hk, hsealed.length, hsize]; exact hset),
      bitWeight_eq hk, hsize, Nat.add_le_add_iff_left]
    refine and_congr_right fun hle => ?_
    rw [← hsize, htail hle]
  constructor
  · intro hagrees
    refine ⟨hsum, fun c hc => ?_⟩
    have hlt : c < 16 := by
      have hpow : 2 ^ c < 2 ^ 16 := by
        have := hc.2.1
        omega
      exact (Nat.pow_lt_pow_iff_right (by decide)).mp hpow
    obtain ⟨k, hk, rfl⟩ := exists_lengthBit hlt
    have haccepted := ((hoverlooked hk).mpr hc).2
    rw [hagrees.corrupted k (by omega)] at haccepted
    · cases haccepted
    · rw [read16_flipBit (by omega) (by omega)]
      exact hsealed.used
  · rintro ⟨-, hcond⟩
    refine ⟨fun η endpoints handler hbound => ?_, fun k hk hfield => ?_⟩
    · rw [hpacket] at hsealed ⊢
      exact delivered_of_sealed hlength hsealed hbound
    · by_cases hother : (k / 8 = 4 ∨ k / 8 = 5) ∧ bitSet packet k = true
      · rw [← Bool.not_eq_true]
        intro haccepted
        exact hcond _ ((hoverlooked hother.1).mp ⟨hother.2, haccepted⟩)
      · exact hsealed.not_accepts_flipBit (by omega) hfield hother

end

def guest : Ipv4 := ⟨10, 0, 2, 15⟩

def server : Ipv4 := ⟨10, 0, 2, 3⟩

/-- Two letters to a name server. -/
theorem agrees_greeting : Agrees guest server 53000 53 [0x68, 0x69]
      [0xcf, 0x08, 0x00, 0x35, 0x00, 0x0a, 0xb0, 0x21, 0x68, 0x69] := by
  refine (agrees_iff (by decide +kernel)).mpr ⟨by decide +kernel, fun c hc => ?_⟩
  have hlt : c < 2 := by
    by_contra hge
    have hpow : 2 ^ 2 ≤ 2 ^ c := Nat.pow_le_pow_right (by decide) (by omega)
    exact absurd hc.2.1 (by simp; omega)
  obtain ⟨hset, -, hdvd⟩ := hc
  interval_cases c
  · exact absurd hset (by decide)
  · revert hdvd
    decide

/-- The words of this datagram sum to zero. -/
theorem zero_checksum_refused : udpTransmit guest server 53000 53 [0x18, 0x8b] =
        some (datagram 53000 53 0xffff [0x18, 0x8b]) ∧
      udpReceive (fun _ => some (53, ())) guest server
        (datagram 53000 53 0xffff [0x18, 0x8b]) = none ∧
      ¬ Agrees guest server 53000 53 [0x18, 0x8b] (datagram 53000 53 0xffff [0x18, 0x8b]) := by
  have hrefused : udpReceive (fun _ => some (53, ())) guest server
      (datagram 53000 53 0xffff [0x18, 0x8b]) = none := by decide +kernel
  refine ⟨by decide +kernel, hrefused, fun hagrees => ?_⟩
  have hdelivered := hagrees.delivered Unit (fun _ => some (53, ())) () (by decide +kernel)
  rw [hrefused] at hdelivered
  cases hdelivered

end Mangrove.Net.Udp
