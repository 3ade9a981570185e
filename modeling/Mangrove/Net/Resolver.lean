import Mangrove.Net.Udp
import Mangrove.Bytes
import Mangrove.Lib.Steps

/-! Names and responses of the domain name system, and the resolver: its handler runs between
any two steps of `dns_resolve_a`, and what passes the filter is taken for the answer. -/

namespace Mangrove.Net.Dns

open Tcp

def closeLabel (capacity : Nat) (label out : List UInt8) : Option (List UInt8) :=
  if label.length = 0 ∨ 63 < label.length ∨ capacity < out.length + label.length + 2 then none
  else some (out ++ UInt8.ofNat label.length :: label)

def encodeFrom (capacity : Nat) : List UInt8 → Nat → List UInt8 → List UInt8 → Option (List UInt8)
  | [], _, label, out =>
    (closeLabel capacity label out).bind fun out =>
      if capacity ≤ out.length ∨ 255 < out.length + 1 then none else some (out ++ [0])
  | c :: rest, index, label, out =>
    if c = 0x2e then
      (closeLabel capacity label out).bind fun out => encodeFrom capacity rest (index + 1) [] out
    else if c < 0x21 ∨ 0x7e < c ∨ 253 < index + 1 then none
    else encodeFrom capacity rest (index + 1) (label ++ [c]) out

def dnsEncodeHostname (hostname : List UInt8) (capacity : Nat) : Option (List UInt8) :=
  if capacity = 0 then none else encodeFrom capacity hostname 0 [] []

/-- The walk over a name: where the name ends in the stream. `next` is known
once a pointer has been followed. -/
def nameFrom (packet : List UInt8) (length : Nat) : Nat → Nat → Option Nat → Option Nat
  | 0, _, _ => none
  | left + 1, position, next =>
    let size := packet.getD position 0
    if length ≤ position then none
    else if size = 0 then some (next.getD (position + 1))
    else if size &&& 0xc0 = 0xc0 then
      let pointer := (size &&& 0x3f).toNat * 256 + (packet.getD (position + 1) 0).toNat
      if length ≤ position + 1 ∨ length ≤ pointer then none
      else nameFrom packet length left pointer (some (next.getD (position + 2)))
    else if size &&& 0xc0 ≠ 0 ∨ 63 < size ∨ length < position + 1 + size.toNat then none
    else nameFrom packet length left (position + 1 + size.toNat) next

def walkLimit : Nat := 33

def dnsName (packet : List UInt8) (length offset : Nat) : Option Nat :=
  nameFrom packet length walkLimit offset none

def dnsQuestion (packet : List UInt8) (offset : Nat) : Option Nat :=
  (dnsName packet packet.length offset).bind fun offset =>
    if packet.length < offset + 4 then none else some (offset + 4)

def addressAt (packet : List UInt8) (i : Nat) : Ipv4 :=
  ⟨packet.getD i 0, packet.getD (i + 1) 0, packet.getD (i + 2) 0, packet.getD (i + 3) 0⟩

def dnsRr (packet : List UInt8) (offset : Nat) : Option (Nat × Option Ipv4) :=
  (dnsName packet packet.length offset).bind fun offset =>
    if packet.length < offset + 10 then none
    else
      let type := read16 packet offset
      let classCode := read16 packet (offset + 2)
      let dataLength := (read16 packet (offset + 8)).toNat
      if packet.length < offset + 10 + dataLength then none
      else if type = 5 ∧ classCode = 1 ∧
          (dnsName packet (offset + 10 + dataLength) (offset + 10)).all
            (offset + 10 + dataLength < ·) then none
      else some (offset + 10 + dataLength,
        if type = 1 ∧ classCode = 1 ∧ dataLength = 4 then some (addressAt packet (offset + 10))
        else none)

inductive Status where
  | success
  | timeout
  | nxdomain
  | servfail
  | noAnswer
  | invalid
  | unconfigured
deriving DecidableEq

/-- What a response says. -/
structure Parsed where
  status : Status
  address : Option Ipv4
  answers : Nat
deriving DecidableEq

def Parsed.failed (status : Status) : Parsed := ⟨status, none, 0⟩

def skipQuestions (packet : List UInt8) : Nat → Nat → Option Nat
  | 0, offset => some offset
  | n + 1, offset => (dnsQuestion packet offset).bind (skipQuestions packet n)

def readRecords (packet : List UInt8) : Nat → Nat → Option (Nat × List Ipv4)
  | 0, offset => some (offset, [])
  | n + 1, offset =>
    (dnsRr packet offset).bind fun r =>
      (readRecords packet n r.1).map fun rest => (rest.1, r.2.toList ++ rest.2)

def dnsParseResponse (packet : List UInt8) (queryId : BitVec 16) : Parsed :=
  let flags := read16 packet 2
  if packet.length < 12 ∨ read16 packet 0 ≠ queryId then .failed .invalid
  else if flags &&& 0x8000 = 0 ∨ (flags >>> 11) &&& 0xf ≠ 0 then .failed .invalid
  else if flags &&& 0xf = 3 then .failed .nxdomain
  else if flags &&& 0xf = 2 then .failed .servfail
  else if flags &&& 0xf ≠ 0 then .failed .invalid
  else if read16 packet 4 = 0 then .failed .invalid
  else
    let found := do
      let offset ← skipQuestions packet (read16 packet 4).toNat 12
      let answers ← readRecords packet (read16 packet 6).toNat offset
      let authority ← readRecords packet (read16 packet 8).toNat answers.1
      let _ ← readRecords packet (read16 packet 10).toNat authority.1
      return answers.2
    match found with
    | none => .failed .invalid
    | some [] => .failed .noAnswer
    | some (first :: rest) => ⟨.success, some first, rest.length + 1⟩

def wireLabels : List (List UInt8) → List UInt8
  | [] => []
  | label :: rest => UInt8.ofNat label.length :: label ++ wireLabels rest

def wireName (labels : List (List UInt8)) : List UInt8 := wireLabels labels ++ [0]

def LabelOk (label : List UInt8) : Prop := 0 < label.length ∧ label.length ≤ 63

variable {capacity : Nat}

lemma closeLabel_some {label out out' : List UInt8}
    (h : closeLabel capacity label out = some out') :
    LabelOk label ∧ out' = out ++ UInt8.ofNat label.length :: label := by
  unfold closeLabel at h
  split at h
  · cases h
  · exact ⟨by unfold LabelOk; omega, (Option.some.inj h).symm⟩

lemma encodeFrom_some {index : Nat} {text label out encoded : List UInt8}
    (h : encodeFrom capacity text index label out = some encoded) :
    ∃ labels, encoded = out ++ wireName labels ∧ labels.length = text.count 0x2e + 1 ∧
      (∀ l ∈ labels, LabelOk l) ∧ encoded.length ≤ 255 := by
  induction text generalizing index label out with
  | nil =>
    obtain ⟨out', hclose, hend⟩ := Option.bind_eq_some_iff.mp h
    obtain ⟨hlabel, rfl⟩ := closeLabel_some hclose
    split at hend
    · cases hend
    · next hroom =>
      obtain rfl := Option.some.inj hend
      refine ⟨[label], by simp [wireName, wireLabels], rfl, by simpa using hlabel, ?_⟩
      simp only [List.length_append, List.length_singleton] at hroom ⊢
      omega
  | cons c rest ih =>
    rw [encodeFrom] at h
    split at h
    · next hdot =>
      obtain ⟨out', hclose, hrest⟩ := Option.bind_eq_some_iff.mp h
      obtain ⟨hlabel, rfl⟩ := closeLabel_some hclose
      obtain ⟨labels, rfl, hcount, hlabels, hlength⟩ := ih hrest
      refine ⟨label :: labels, by simp [wireName, wireLabels], ?_, ?_, hlength⟩
      · simp [hdot, hcount]
      · rw [List.forall_mem_cons]
        exact ⟨hlabel, hlabels⟩
    · next hdot =>
      split at h
      · cases h
      · obtain ⟨labels, hencoded, hcount, hlabels, hlength⟩ := ih h
        refine ⟨labels, hencoded, ?_, hlabels, hlength⟩
        rw [hcount, List.count_cons_of_ne hdot]

lemma dnsEncodeHostname_some {hostname encoded : List UInt8}
    (h : dnsEncodeHostname hostname capacity = some encoded) :
    ∃ labels, encoded = wireName labels ∧ labels.length = hostname.count 0x2e + 1 ∧
      (∀ l ∈ labels, LabelOk l) ∧ encoded.length ≤ 255 := by
  unfold dnsEncodeHostname at h
  split at h
  · cases h
  · exact encodeFrom_some h

lemma size_bits {n : Nat} (h : 0 < n) (h' : n ≤ 63) :
    UInt8.ofNat n ≠ 0 ∧ UInt8.ofNat n &&& 0xc0 = 0 ∧ (UInt8.ofNat n).toNat = n ∧
      ¬ 63 < UInt8.ofNat n := by
  interval_cases n <;> decide

variable {packet rest : List UInt8} {position : Nat} {c : UInt8}

lemma getD_of_drop (h : packet.drop position = c :: rest) : packet.getD position 0 = c := by
  have hget := congrArg (fun l => l.getD 0 0) h
  rw [List.getD_eq_getElem?_getD, List.getElem?_drop] at hget
  rw [List.getD_eq_getElem?_getD]
  exact hget

lemma lt_of_drop (h : packet.drop position = c :: rest) : position < packet.length := by
  have hlength := congrArg List.length h
  rw [List.length_drop, List.length_cons] at hlength
  omega

lemma drop_add {l m : List UInt8} (h : packet.drop position = l ++ m) :
    packet.drop (position + l.length) = m := by
  rw [← List.drop_drop, h, List.drop_left]

lemma nameFrom_wireName {labels : List (List UInt8)} {left : Nat}
    {next : Option Nat} (hlabels : ∀ l ∈ labels, LabelOk l)
    (h : packet.drop position = wireName labels ++ rest) :
    nameFrom packet packet.length left position next =
      if labels.length < left then some (next.getD (position + (wireName labels).length))
      else none := by
  induction labels generalizing left position with
  | nil =>
    have hend : packet.drop position = 0 :: rest := h
    cases left with
    | zero => rfl
    | succ left =>
      rw [nameFrom, getD_of_drop hend, if_neg (Nat.not_le_of_lt (lt_of_drop hend)), if_pos rfl,
        if_pos (by simp)]
      rfl
  | cons label labels ih =>
    rw [List.forall_mem_cons] at hlabels
    obtain ⟨hnonzero, hbits, hsize, hmax⟩ := size_bits hlabels.1.1 hlabels.1.2
    have hhead : packet.drop position =
        (UInt8.ofNat label.length :: label) ++ (wireName labels ++ rest) := by
      rw [h]
      simp [wireName, wireLabels]
    have hnext := drop_add hhead
    rw [List.length_cons] at hnext
    have hlength := congrArg List.length hhead
    simp only [List.length_drop, List.length_append, List.length_cons] at hlength
    have hwhole : (wireName (label :: labels)).length =
        label.length + 1 + (wireName labels).length := by
      simp only [wireName, wireLabels, List.length_append, List.length_cons, Nat.add_assoc]
    cases left with
    | zero => rfl
    | succ left =>
      rw [nameFrom, getD_of_drop hhead, if_neg (by omega), if_neg hnonzero,
        if_neg (by rw [hbits]; decide), if_neg (by rw [hsize]; simp only [hbits, hmax]; simp; omega),
        hsize, Nat.add_assoc, Nat.add_comm 1, ih hlabels.2 hnext, hwhole]
      simp only [List.length_cons, Nat.add_lt_add_iff_right, Nat.add_assoc]

inductive OwnerForm where
  | full
  | pointer

def OwnerForm.bytes (question : List UInt8) : OwnerForm → List UInt8
  | .full => question
  | .pointer => [0xc0, 0x0c]

def OwnerForm.limit : OwnerForm → Nat
  | .full => 32
  | .pointer => 31

def record (ttl : BitVec 32) (address : Ipv4) : List UInt8 :=
  write16 1 ++ write16 1 ++ write32 ttl ++ write16 4 ++ address.octets

def response (id flags : BitVec 16) (question : List UInt8) (form : OwnerForm) (ttl : BitVec 32)
    (address : Ipv4) : List UInt8 :=
  (write16 id ++ write16 flags ++ write16 1 ++ write16 1 ++ write16 0 ++ write16 0) ++
    (question ++ (write16 1 ++ write16 1 ++ (form.bytes question ++ record ttl address)))

def AnswerFlags (flags : BitVec 16) : Prop :=
  flags &&& 0x8000 ≠ 0 ∧ (flags >>> 11) &&& 0xf = 0 ∧ flags &&& 0xf = 0

instance (flags : BitVec 16) : Decidable (AnswerFlags flags) := inferInstanceAs (Decidable (_ ∧ _))

section

variable {offset : Nat} {labels : List (List UInt8)} {id flags : BitVec 16} {ttl : BitVec 32}
  {address : Ipv4} {form : OwnerForm}

lemma read16_drop (packet : List UInt8) (i j : Nat) :
    read16 (packet.drop i) j = read16 packet (i + j) := by
  simp only [read16, List.getD_eq_getElem?_getD, List.getElem?_drop, Nat.add_assoc]

lemma addressAt_drop (packet : List UInt8) (i j : Nat) :
    addressAt (packet.drop i) j = addressAt packet (i + j) := by
  simp only [addressAt, List.getD_eq_getElem?_getD, List.getElem?_drop, Nat.add_assoc]

lemma length_of_drop {l : List UInt8} (h : packet.drop offset = l) (hl : l ≠ []) :
    packet.length = offset + l.length := by
  have hlength := congrArg List.length h
  have hpos := List.length_pos_iff.mpr hl
  rw [List.length_drop] at hlength
  omega

lemma dnsName_wireName (hlabels : ∀ l ∈ labels, LabelOk l)
    (h : packet.drop offset = wireName labels ++ rest) : dnsName packet packet.length offset =
      if labels.length ≤ 32 then some (offset + (wireName labels).length) else none := by
  rw [dnsName, nameFrom_wireName hlabels h]
  simp only [walkLimit, Nat.lt_succ_iff, Option.getD_none]

lemma dnsName_pointer {rest' : List UInt8} (hlabels : ∀ l ∈ labels, LabelOk l)
    (h : packet.drop offset = 0xc0 :: 0x0c :: rest)
    (hname : packet.drop 12 = wireName labels ++ rest') : dnsName packet packet.length offset =
      if labels.length ≤ 31 then some (offset + 2) else none := by
  have hlength := length_of_drop h (List.cons_ne_nil _ _)
  have hnext : packet.getD (offset + 1) 0 = 0x0c := by
    have hdrop : packet.drop (offset + 1) = 0x0c :: rest := by
      rw [← List.drop_drop, h, List.drop_one, List.tail_cons]
    exact getD_of_drop hdrop
  have hstart : 12 < packet.length := by
    apply lt_of_not_ge
    intro hge
    rw [List.drop_of_length_le hge] at hname
    simp [wireName] at hname
  rw [List.length_cons, List.length_cons] at hlength
  rw [dnsName, walkLimit, nameFrom, getD_of_drop h, hnext, if_neg (by omega), if_neg (by decide),
    if_pos (by decide), if_neg (by simp; omega), show (0xc0 &&& 0x3f : UInt8).toNat * 256 +
      (0x0c : UInt8).toNat = 12 from rfl, nameFrom_wireName hlabels hname]
  simp only [Nat.lt_succ_iff, Option.getD_some, Option.getD_none]

lemma dnsRr_record {next : Nat} (hname : dnsName packet packet.length offset = some next)
    (h : packet.drop next = record ttl address) :
    dnsRr packet offset = some (next + 14, some address) := by
  have hlength := length_of_drop h (by simp [record, write16])
  have hsize : (record ttl address).length = 14 := rfl
  have hfield (j : Nat) : read16 packet (next + j) = read16 (record ttl address) j := by
    rw [← h, read16_drop]
  have htype : read16 packet next = 1 := by
    rw [← Nat.add_zero next, hfield]
    simp only [record, List.append_assoc, Udp.read16_write16]
  have hclass : read16 packet (next + 2) = 1 := by
    rw [hfield]
    simp only [record, List.append_assoc, Udp.read16_write16_add _ _ 0, Udp.read16_write16]
  have hdata : read16 packet (next + 8) = 4 := by
    rw [hfield]
    simp only [record, write32, List.append_assoc, Udp.read16_write16_add _ _ 6,
      Udp.read16_write16_add _ _ 4, Udp.read16_write16_add _ _ 2, Udp.read16_write16_add _ _ 0,
      Udp.read16_write16]
  have haddress : addressAt packet (next + 10) = address := by
    rw [← addressAt_drop, h]
    rfl
  rw [dnsRr, hname, Option.bind_some, if_neg (by omega), htype, hclass, hdata, haddress]
  rw [if_neg (by simp; omega), if_neg (fun h => absurd h.1 (by decide)), if_pos (by decide)]
  rfl

lemma response_drop (question : List UInt8) :
    (response id flags question form ttl address).drop 12 = question ++
      (write16 1 ++ write16 1 ++ (form.bytes question ++ record ttl address)) := rfl

lemma dnsParseResponse_eq (hflags : AnswerFlags flags) (question : List UInt8) :
    dnsParseResponse (response id flags question form ttl address) id =
      match (dnsQuestion (response id flags question form ttl address) 12).bind
        (dnsRr (response id flags question form ttl address)) with
      | none => .failed .invalid
      | some (_, none) => .failed .noAnswer
      | some (_, some first) => ⟨.success, some first, 1⟩ := by
  have hlength : ¬ (response id flags question form ttl address).length < 12 := by
    simp [response, write16]
  have hid : read16 (response id flags question form ttl address) 0 = id := by
    simp only [response, List.append_assoc, Udp.read16_write16]
  have hflags' : read16 (response id flags question form ttl address) 2 = flags := by
    simp only [response, List.append_assoc, Udp.read16_write16_add _ _ 0, Udp.read16_write16]
  have hquestions : read16 (response id flags question form ttl address) 4 = 1 := by
    simp only [response, List.append_assoc, Udp.read16_write16_add _ _ 2,
      Udp.read16_write16_add _ _ 0, Udp.read16_write16]
  have hanswers : read16 (response id flags question form ttl address) 6 = 1 := by
    simp only [response, List.append_assoc, Udp.read16_write16_add _ _ 4,
      Udp.read16_write16_add _ _ 2, Udp.read16_write16_add _ _ 0, Udp.read16_write16]
  have hauthority : read16 (response id flags question form ttl address) 8 = 0 := by
    simp only [response, List.append_assoc, Udp.read16_write16_add _ _ 6,
      Udp.read16_write16_add _ _ 4, Udp.read16_write16_add _ _ 2, Udp.read16_write16_add _ _ 0,
      Udp.read16_write16]
  have hadditional : read16 (response id flags question form ttl address) 10 = 0 := by
    simp only [response, List.append_assoc, Udp.read16_write16_add _ _ 8,
      Udp.read16_write16_add _ _ 6, Udp.read16_write16_add _ _ 4, Udp.read16_write16_add _ _ 2,
      Udp.read16_write16_add _ _ 0, Udp.read16_write16]
  obtain ⟨hresponse, hopcode, hcode⟩ := hflags
  unfold dnsParseResponse
  simp only [hlength, hid, hflags', hquestions, hanswers, hauthority, hadditional, hresponse,
    hopcode, hcode]
  cases hquestion : dnsQuestion (response id flags question form ttl address) 12 with
  | none => simp [skipQuestions, hquestion]
  | some next =>
    cases hrr : dnsRr (response id flags question form ttl address) next with
    | none => simp [skipQuestions, hquestion, readRecords, hrr]
    | some r =>
      obtain ⟨last, found⟩ := r
      cases found with
      | none | some => simp [skipQuestions, hquestion, readRecords, hrr]

lemma dnsQuestion_response (hlabels : ∀ l ∈ labels, LabelOk l) :
    dnsQuestion (response id flags (wireName labels) form ttl address) 12 =
      if labels.length ≤ 32 then some (12 + (wireName labels).length + 4) else none := by
  have hdrop := @response_drop id flags ttl address form (wireName labels)
  have hlength := length_of_drop hdrop (by simp [record, write16])
  rw [List.length_append, List.length_append] at hlength
  have hfour : (write16 1 ++ write16 1).length = 4 := rfl
  rw [dnsQuestion, dnsName_wireName hlabels hdrop]
  split
  · rw [Option.bind_some, if_neg (by omega)]
  · rfl

lemma dnsRr_response (hlabels : ∀ l ∈ labels, LabelOk l) :
    (dnsRr (response id flags (wireName labels) form ttl address)
        (12 + (wireName labels).length + 4)).map Prod.snd =
      if labels.length ≤ form.limit then some (some address) else none := by
  have hdrop := @response_drop id flags ttl address form (wireName labels)
  have howner : (response id flags (wireName labels) form ttl address).drop
      (12 + (wireName labels).length + 4) = form.bytes (wireName labels) ++ record ttl address :=
    drop_add (l := write16 1 ++ write16 1) (drop_add hdrop)
  have hrecord := drop_add howner
  cases form with
  | full =>
    have hname := dnsName_wireName hlabels howner
    by_cases hle : labels.length ≤ 32
    · rw [if_pos hle] at hname
      rw [dnsRr_record hname hrecord, OwnerForm.limit, if_pos hle]
      rfl
    · rw [if_neg hle] at hname
      rw [dnsRr, hname, OwnerForm.limit, if_neg hle]
      rfl
  | pointer =>
    have hname := dnsName_pointer hlabels howner hdrop
    by_cases hle : labels.length ≤ 31
    · rw [if_pos hle] at hname
      rw [dnsRr_record hname hrecord, OwnerForm.limit, if_pos hle]
      rfl
    · rw [if_neg hle] at hname
      rw [dnsRr, hname, OwnerForm.limit, if_neg hle]
      rfl

/-- The parser reads back what the encoder wrote exactly for names of up to 32
labels, or 31 if the answer points to the question. -/
theorem dnsParseResponse_encoded {hostname question : List UInt8} {capacity : Nat}
    (hencoded : dnsEncodeHostname hostname capacity = some question) (hflags : AnswerFlags flags) :
    dnsParseResponse (response id flags question form ttl address) id =
        ⟨.success, some address, 1⟩ ↔
      hostname.count 0x2e + 1 ≤ form.limit := by
  obtain ⟨labels, rfl, hcount, hlabels, -⟩ := dnsEncodeHostname_some hencoded
  have hlimit : form.limit ≤ 32 := by cases form <;> decide
  have hrr := @dnsRr_response labels id flags ttl address form hlabels
  rw [dnsParseResponse_eq hflags, ← hcount, dnsQuestion_response hlabels]
  by_cases hle : labels.length ≤ form.limit
  · rw [if_pos hle] at hrr
    obtain ⟨⟨last, found⟩, hsome, rfl⟩ := Option.map_eq_some_iff.mp hrr
    rw [if_pos (hle.trans hlimit), Option.bind_some, hsome]
    exact iff_of_true rfl hle
  · rw [if_neg hle, Option.map_eq_none_iff] at hrr
    refine iff_of_false ?_ hle
    split_ifs
    · rw [Option.bind_some, hrr]
      exact fun h => Status.noConfusion (congrArg Parsed.status h)
    · exact fun h => Status.noConfusion (congrArg Parsed.status h)

end

/-- An answer for a name of two labels. -/
theorem dnsParseResponse_two_labels :
    dnsParseResponse (response 7 0x8180 [1, 0x61, 2, 0x62, 0x63, 0] .pointer 60 ⟨10, 0, 2, 3⟩) 7 =
      ⟨.success, some ⟨10, 0, 2, 3⟩, 1⟩ :=
  (@dnsParseResponse_encoded 7 0x8180 60 ⟨10, 0, 2, 3⟩ .pointer [0x61, 0x2e, 0x62, 0x63] _ 500
    (by decide) (by decide)).mpr (by decide)

/-- The name `a.a.….a` of 33 labels is encoded, but no answer to it is read. -/
theorem labels_counted_as_jumps :
    dnsEncodeHostname (0x61 :: (List.replicate 32 [0x2e, 0x61]).flatten) 500 =
        some ((List.replicate 33 [1, 0x61]).flatten ++ [0]) ∧
      dnsParseResponse (response 7 0x8180 ((List.replicate 33 [1, 0x61]).flatten ++ [0]) .full 60
        ⟨10, 0, 2, 3⟩) 7 = .failed .invalid := by
  decide +kernel

structure Config where
  configured : Bool
  hasDns : Bool
  dns : Ipv4
  address : Ipv4
deriving DecidableEq

structure Datagram where
  device : Nat
  source : Ipv4
  sourcePort : BitVec 16
  destination : Ipv4
  destinationPort : BitVec 16
  payload : List UInt8
deriving DecidableEq

/-- A query that waits for its answer. -/
structure Query where
  generation : Nat
  id : BitVec 16
  event : Bool
  status : Status
  address : Ipv4
  answers : Nat
deriving DecidableEq

def dnsPort : BitVec 16 := 53

def dnsSourcePort : BitVec 16 := 53000

def dnsPacketMax : Nat := 512

def dnsWaitTicks : Nat := 5000

def dnsRetries : Nat := 3

structure Resolution where
  address : Option Ipv4
  status : Status
deriving DecidableEq

/-- Where `dns_resolve_a` is: each step has one access to what it shares. -/
inductive Pc where
  | enter
  | setGeneration
  | setId
  | setStatus
  | clearEvent
  | attempt
  | nextId
  | clearAgain
  | transmit
  | timed
  | poll
  | sleeping
  | examine
  | readStatus
  | readAddress
  | returned (r : Resolution)
deriving DecidableEq

/-- The state that `dns.c` keeps, with the call that waits. -/
structure Resolver where
  query : Query
  config : Config
  devices : Nat → Option Nat
  sequence : BitVec 16
  device : Nat
  hostname : List UInt8
  pc : Pc
  id : BitVec 16
  attempt : Nat
  start : Nat
  status : Status

def Resolver.current (s : Resolver) (device : Nat) : Bool :=
  s.query.generation ≠ 0 ∧ s.devices device = some s.query.generation

def Resolver.accepts (s : Resolver) (d : Datagram) : Bool :=
  s.current d.device ∧ d.sourcePort = dnsPort ∧ d.destinationPort = dnsSourcePort ∧
    s.config.hasDns ∧ d.source = s.config.dns ∧ d.destination = s.config.address

def dnsUdpReceive (s : Resolver) (d : Datagram) : Resolver :=
  if s.accepts d then
    let parsed := dnsParseResponse d.payload s.query.id
    { s with query := { s.query with
      address := parsed.address.getD s.query.address
      answers := if parsed.status = .success then parsed.answers else s.query.answers
      status := parsed.status
      event := true } }
  else s

def Resolver.nextId (s : Resolver) (now : Nat) : BitVec 16 := BitVec.ofNat 16 now + (s.sequence + 1)

/-- One step of `dns_resolve_a` at the given time. -/
def resolveStep (s : Resolver) (now : Nat) : Resolver :=
  match s.pc with
  | .enter =>
    if s.config.configured = false ∨ s.config.hasDns = false then
      { s with pc := .returned ⟨none, .unconfigured⟩ }
    else match dnsEncodeHostname s.hostname (dnsPacketMax - 12) with
      | none => { s with pc := .returned ⟨none, .invalid⟩ }
      | some _ => { s with
          id := s.nextId now
          sequence := s.sequence + 1
          attempt := 0
          status := .unconfigured
          pc := .setGeneration }
  | .setGeneration =>
    { s with query := { s.query with generation := (s.devices s.device).getD 0 }, pc := .setId }
  | .setId => { s with query := { s.query with id := s.id }, pc := .setStatus }
  | .setStatus =>
    { s with query := { s.query with status := .timeout, answers := 0 }, pc := .clearEvent }
  | .clearEvent => { s with query := { s.query with event := false }, pc := .attempt }
  | .attempt =>
    if dnsRetries ≤ s.attempt then { s with pc := .returned ⟨none, s.status⟩ }
    else if s.current s.device = false then { s with pc := .returned ⟨none, .unconfigured⟩ }
    else { s with pc := if s.attempt = 0 then .transmit else .nextId }
  | .nextId =>
    { s with
      query := { s.query with id := s.nextId now }
      id := s.nextId now
      sequence := s.sequence + 1
      pc := .clearAgain }
  | .clearAgain => { s with query := { s.query with event := false }, pc := .transmit }
  | .transmit => { s with start := now, pc := .timed }
  | .timed => { s with pc := if sub64 now s.start < dnsWaitTicks then .poll else .examine }
  | .poll => { s with pc := if s.query.event then .examine else .sleeping }
  | .sleeping =>
    if s.current s.device then { s with pc := .timed }
    else { s with pc := .returned ⟨none, .unconfigured⟩ }
  | .examine =>
    if s.query.event then { s with pc := .readStatus }
    else { s with attempt := s.attempt + 1, pc := .attempt }
  | .readStatus =>
    match s.query.status with
    | .success => { s with status := .success, pc := .readAddress }
    | .timeout => { s with status := .timeout, attempt := s.attempt + 1, pc := .attempt }
    | .unconfigured =>
      { s with status := .unconfigured, attempt := s.attempt + 1, pc := .attempt }
    | status => { s with status := status, pc := .returned ⟨none, status⟩ }
  | .readAddress => { s with pc := .returned ⟨some s.query.address, .success⟩ }
  | .returned _ => s

inductive Action where
  | run (now : Nat)
  | arrive (d : Datagram)
  | plug (devices : Nat → Option Nat)
  | configure (config : Config)
  | reset

def clearedQuery : Query := ⟨0, 0, false, .success, ⟨0, 0, 0, 0⟩, 0⟩

def Resolver.next (s : Resolver) : Action → Resolver
  | .run now => resolveStep s now
  | .arrive d => dnsUdpReceive s d
  | .plug devices => { s with devices := devices }
  | .configure config => { s with config := config }
  | .reset => { s with query := clearedQuery }

def Resolver.result (s : Resolver) : Option Resolution :=
  match s.pc with
  | .returned r => some r
  | _ => none

def Answers (payload : List UInt8) (id : BitVec 16) : Prop :=
  12 ≤ payload.length ∧ read16 payload 0 = id ∧ read16 payload 2 &&& 0x8000 ≠ 0

instance (payload : List UInt8) (id : BitVec 16) : Decidable (Answers payload id) := by
  unfold Answers
  infer_instance

lemma dnsParseResponse_of_not_answers {payload : List UInt8} {id : BitVec 16}
    (h : ¬ Answers payload id) : dnsParseResponse payload id = .failed .invalid := by
  unfold dnsParseResponse
  by_cases hid : payload.length < 12 ∨ read16 payload 0 ≠ id
  · exact if_pos hid
  · have hflags : read16 payload 2 &&& 0x8000 = 0 := by
      by_contra hne
      exact h ⟨by omega, by simpa using (not_or.mp hid).2, hne⟩
    simp only [if_neg hid, hflags, true_or, if_true]

def Resolver.unrelated (s : Resolver) : Action → Bool
  | .arrive d => ¬ Answers d.payload s.query.id
  | _ => false

/-- The resolver has cleared the event and has not yet read what it stands for. -/
def Resolver.watches (s : Resolver) : Bool :=
  match s.pc with
  | .attempt => s.attempt = 0
  | .transmit | .timed | .poll | .sleeping | .examine | .readStatus => true
  | _ => false

/-- An unrelated datagram does not get through the filter while it is watched for
one. -/
def Resolver.Undisturbed (s : Resolver) : Action → Prop
  | .arrive d => ¬ Answers d.payload s.query.id → s.accepts d → s.watches = false
  | _ => True

instance (s : Resolver) : ∀ act, Decidable (s.Undisturbed act)
  | .arrive _ => by unfold Resolver.Undisturbed; infer_instance
  | .run _ => .isTrue trivial
  | .plug _ => .isTrue trivial
  | .configure _ => .isTrue trivial
  | .reset => .isTrue trivial

def Resolver.signalled (s : Resolver) (event : Bool) (status : Status) : Resolver :=
  { s with query := { s.query with event := event, status := status } }

def Same (s t : Resolver) : Prop :=
  ∃ event status, t = s.signalled event status ∧
    (s.watches → event = s.query.event ∧
      (s.query.event = true ∨ s.pc = .readStatus → status = s.query.status))

lemma Same.refl (s : Resolver) : Same s s := ⟨s.query.event, s.query.status, rfl, by simp⟩

variable {s t : Resolver}

lemma Same.result (h : Same s t) : t.result = s.result := by
  obtain ⟨event, status, rfl, -⟩ := h
  rfl

lemma Same.receive (h : Same s t) (d : Datagram) :
    Same (dnsUdpReceive s d) (dnsUdpReceive t d) := by
  obtain ⟨event, status, rfl, hwatch⟩ := h
  have haccepts : (s.signalled event status).accepts d = s.accepts d := rfl
  unfold dnsUdpReceive
  rw [haccepts]
  by_cases hd : s.accepts d = true
  · rw [if_pos hd, if_pos hd]
    exact ⟨true, _, rfl, fun _ => ⟨rfl, fun _ => rfl⟩⟩
  · rw [if_neg hd, if_neg hd]
    exact ⟨event, status, rfl, hwatch⟩

lemma Same.disturb {d : Datagram} (h : Same s t)
    (hfine : s.Undisturbed (.arrive d)) (hd : ¬ Answers d.payload s.query.id) :
    Same (dnsUdpReceive s d) t := by
  obtain ⟨event, status, rfl, hwatch⟩ := h
  unfold dnsUdpReceive
  by_cases haccepts : s.accepts d = true
  · rw [if_pos haccepts, dnsParseResponse_of_not_answers hd]
    have hnot := hfine hd haccepts
    refine ⟨event, status, rfl, ?_⟩
    intro hwatches
    have hsame : s.watches = true := hwatches
    rw [hnot] at hsame
    cases hsame
  · rw [if_neg haccepts]
    exact ⟨event, status, rfl, hwatch⟩

lemma Same.unwatched (event : Bool) (status : Status)
    (h : s.watches = false) : Same s (s.signalled event status) := by
  refine ⟨event, status, rfl, fun hwatches => ?_⟩
  rw [h] at hwatches
  cases hwatches

lemma Same.goTo (h : Same s t) (pc : Pc)
    (hwatch : ({ s with pc := pc } : Resolver).watches = true → s.watches = true)
    (hread : pc = .readStatus → s.query.event = true) :
    Same { s with pc := pc } { t with pc := pc } := by
  obtain ⟨event, status, rfl, hsame⟩ := h
  refine ⟨event, status, rfl, fun hwatches => ?_⟩
  obtain ⟨hevent, hstatus⟩ := hsame (hwatch hwatches)
  refine ⟨hevent, ?_⟩
  rintro (hset | hpc)
  · exact hstatus (.inl hset)
  · exact hstatus (.inl (hread hpc))

lemma Same.step (h : Same s t) (now : Nat) : Same (resolveStep s now) (resolveStep t now) := by
  obtain ⟨event, status, rfl, hwatch⟩ := h
  have hpcs : (s.signalled event status).pc = s.pc := rfl
  have hcurrent : (s.signalled event status).current s.device = s.current s.device := rfl
  cases hpc : s.pc <;> simp only [resolveStep, hpcs, hpc]
  case enter =>
    show Same _ (if s.config.configured = false ∨ s.config.hasDns = false then _ else
      match dnsEncodeHostname s.hostname (dnsPacketMax - 12) with
      | none => _
      | some _ => _)
    split
    · exact Same.unwatched event status rfl
    · split
      all_goals exact Same.unwatched event status rfl
  case setGeneration | setId | nextId | readAddress =>
    exact Same.unwatched event status rfl
  case setStatus =>
    exact Same.unwatched event .timeout rfl
  case clearEvent | clearAgain =>
    exact ⟨false, status, rfl, fun _ => ⟨rfl, by simp⟩⟩
  case attempt =>
    show Same _ (if dnsRetries ≤ s.attempt then _ else if s.current s.device = false then _ else _)
    split
    · exact Same.unwatched event status rfl
    split
    · exact Same.unwatched event status rfl
    apply Same.goTo ⟨event, status, rfl, hwatch⟩
    · by_cases hattempt : s.attempt = 0 <;> simp [Resolver.watches, hpc, hattempt]
    · split <;> simp
  case transmit =>
    obtain ⟨rfl, hstatus⟩ := hwatch (by simp [Resolver.watches, hpc])
    exact ⟨s.query.event, status, rfl, fun _ => ⟨rfl, by simpa [hpc] using hstatus⟩⟩
  case timed =>
    apply Same.goTo ⟨event, status, rfl, hwatch⟩
    · intro _
      simp [Resolver.watches, hpc]
    · split <;> simp
  case poll =>
    obtain ⟨rfl, hstatus⟩ := hwatch (by simp [Resolver.watches, hpc])
    apply Same.goTo ⟨s.query.event, status, rfl, fun _ => ⟨rfl, hstatus⟩⟩
    · intro _
      simp [Resolver.watches, hpc]
    · split <;> simp
  case sleeping =>
    show Same _ (if s.current s.device then _ else _)
    split
    · apply Same.goTo ⟨event, status, rfl, hwatch⟩
      · intro _
        simp [Resolver.watches, hpc]
      · simp
    · exact Same.unwatched event status rfl
  case examine =>
    obtain ⟨rfl, hstatus⟩ := hwatch (by simp [Resolver.watches, hpc])
    show Same _ (if s.query.event then _ else _)
    split
    · next hevent =>
      apply Same.goTo ⟨s.query.event, status, rfl, fun _ => ⟨rfl, hstatus⟩⟩
      · intro _
        simp [Resolver.watches, hpc]
      · exact fun _ => hevent
    · exact Same.unwatched s.query.event status (by simp [Resolver.watches])
  case readStatus =>
    obtain ⟨rfl, hstatus⟩ := hwatch (by simp [Resolver.watches, hpc])
    obtain rfl := hstatus (.inr hpc)
    exact Same.refl _
  case returned r =>
    exact ⟨event, status, rfl, hwatch⟩

/-- Datagrams that are no response to the outstanding query do not change what
`dns_resolve_a` returns, as long as none gets through the filter while the
resolver watches for one. -/
theorem result_without_unrelated {s : Resolver} {acts : List Action}
    (h : AllFine Resolver.next Resolver.Undisturbed s acts) : (acts.foldl Resolver.next s).result =
      ((kept Resolver.next Resolver.unrelated s acts).foldl Resolver.next s).result := by
  refine (rel_kept ?_ ?_ (Same.refl s) h).result.symm
  · intro s t act hsame hfine hkeep
    cases act with
    | run now => exact hsame.step now
    | arrive d => exact hsame.receive d
    | plug | configure =>
      obtain ⟨event, status, rfl, hwatch⟩ := hsame
      exact ⟨event, status, rfl, hwatch⟩
    | reset =>
      obtain ⟨event, status, rfl, -⟩ := hsame
      exact Same.refl _
  · intro s t act hsame hfine hdrop
    cases act with
    | arrive d => exact hsame.disturb hfine (by simpa [Resolver.unrelated] using hdrop)
    | run | plug | configure | reset => cases hdrop

def nameServer : Ipv4 := ⟨10, 0, 2, 3⟩

def ownAddress : Ipv4 := ⟨10, 0, 2, 15⟩

def asking : Resolver where
  query := clearedQuery
  config := ⟨true, true, nameServer, ownAddress⟩
  devices := fun device => if device = 0 then some 1 else none
  sequence := 0
  device := 0
  hostname := [0x61]
  pc := .enter
  id := 0
  attempt := 0
  start := 0
  status := .unconfigured

def answerFrom (source : Ipv4) (id : BitVec 16) : Datagram :=
  ⟨0, source, dnsPort, ownAddress, dnsSourcePort,
    response id 0x8180 (wireName [[0x61]]) .pointer 60 ⟨192, 0, 2, 1⟩⟩

def calmRun : List Action :=
  List.replicate 4 (.run 0) ++ [.arrive (answerFrom nameServer 9)] ++ List.replicate 4 (.run 0) ++
    [.arrive (answerFrom ownAddress 9), .run 1, .arrive (answerFrom nameServer 1)] ++
    List.replicate 6 (.run 2)

/-- An unrelated datagram arrives when it does no harm. -/
theorem calmRun_unaffected : AllFine Resolver.next Resolver.Undisturbed asking calmRun ∧
      (calmRun.foldl Resolver.next asking).result =
        ((kept Resolver.next Resolver.unrelated asking calmRun).foldl Resolver.next asking).result ∧
      (calmRun.foldl Resolver.next asking).result = some ⟨some ⟨192, 0, 2, 1⟩, .success⟩ :=
  ⟨by decide +kernel, result_without_unrelated (by decide +kernel), by decide +kernel⟩

def disturbedRun : List Action :=
  List.replicate 7 (.run 0) ++ [.arrive (answerFrom nameServer 9)] ++ List.replicate 4 (.run 1) ++
    [.arrive (answerFrom nameServer 1)] ++ List.replicate 4 (.run 2)

/-- A datagram from the server that answers something else. -/
theorem unrelated_datagram_ends_query :
    (disturbedRun.foldl Resolver.next asking).result = some ⟨none, .invalid⟩ ∧
      ((kept Resolver.next Resolver.unrelated asking disturbedRun).foldl Resolver.next
        asking).result = some ⟨some ⟨192, 0, 2, 1⟩, .success⟩ := by
  decide +kernel

end Mangrove.Net.Dns
