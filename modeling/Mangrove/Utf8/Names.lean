import Mangrove.Lib.Text
import Mangrove.Mgfs.Directory

/-! UTF-8: the decoder of the terminal, which takes a byte that ends a sequence anew, and the
validators of MGFS names, which refuse exactly what is not well formed. -/

namespace Mangrove.Utf8

/-- A `utf8_decoder_t`. -/
structure Decoder where
  value : Nat
  minimum : Nat
  remaining : Nat
deriving DecidableEq

def replacement : Nat := 0xfffd

def Decoder.reset : Decoder := ⟨0, 0, 0⟩

def resultAppend (capacity : Nat) (result : List Nat) (codepoint : Nat) : List Nat :=
  if result.length ≥ capacity then result else result ++ [codepoint]

def utf8Start (d : Decoder) (byte : UInt8) : Decoder :=
  if 0xc2 ≤ byte ∧ byte ≤ 0xdf then ⟨byte.toNat &&& 0x1f, 0x80, 1⟩
  else if 0xe0 ≤ byte ∧ byte ≤ 0xef then ⟨byte.toNat &&& 0x0f, 0x800, 2⟩
  else if 0xf0 ≤ byte ∧ byte ≤ 0xf4 then ⟨byte.toNat &&& 7, 0x10000, 3⟩
  else d

def feed (capacity : Nat) (d : Decoder) (byte : UInt8) : Decoder × List Nat :=
  let put := resultAppend capacity
  if d.remaining ≠ 0 then
    if byte &&& 0xc0 ≠ 0x80 then
      if byte < 0x80 then (.reset, put (put [] replacement) byte.toNat)
      else if 0xc2 ≤ byte ∧ byte ≤ 0xf4 then (utf8Start .reset byte, put [] replacement)
      else (.reset, put (put [] replacement) replacement)
    else
      let value := (d.value <<< 6 ||| (byte.toNat &&& 0x3f)) % 2 ^ 32
      if d.remaining - 1 ≠ 0 then (⟨value, d.minimum, d.remaining - 1⟩, [])
      else if value < d.minimum ∨ value > 0x10ffff ∨ (0xd800 ≤ value ∧ value ≤ 0xdfff) then
        (.reset, put [] replacement)
      else (.reset, put [] value)
  else if byte < 0x80 then (d, put [] byte.toNat)
  else if 0xc2 ≤ byte ∧ byte ≤ 0xf4 then (utf8Start d byte, [])
  else (d, put [] replacement)

def outputMax : Nat := 2

def Decoder.next (d : Decoder) (byte : UInt8) : Decoder := (feed outputMax d byte).1

def outputs (d : Decoder) : List UInt8 → List Nat
  | [] => []
  | byte :: rest => (feed outputMax d byte).2 ++ outputs (d.next byte) rest

lemma outputs_append (d : Decoder) (p q : List UInt8) :
    outputs d (p ++ q) = outputs d p ++ outputs (p.foldl Decoder.next d) q := by
  induction p generalizing d with
  | nil => rfl
  | cons byte p ih => rw [List.cons_append, outputs, ih, outputs, List.foldl, List.append_assoc]

lemma feed_capacity {capacity : Nat} (h : outputMax ≤ capacity) (d : Decoder) (byte : UInt8) :
    feed capacity d byte = feed outputMax d byte := by
  have h0 : ¬ 0 ≥ capacity := by simp only [outputMax] at h; omega
  have h1 : ¬ 1 ≥ capacity := by simp only [outputMax] at h; omega
  simp [feed, resultAppend, outputMax, h0, h1]

lemma feed_length (d : Decoder) (byte : UInt8) : (feed outputMax d byte).2.length ≤ outputMax := by
  simp only [feed, resultAppend, outputMax]
  split_ifs <;> simp_all

lemma mem_resultAppend {capacity x c : Nat} {result : List Nat}
    (h : c ∈ resultAppend capacity result x) : c ∈ result ∨ c = x := by
  unfold resultAppend at h
  split at h
  · exact .inl h
  · simpa using h

lemma feed_scalar {d : Decoder} {byte : UInt8} {c : Nat} (h : c ∈ (feed outputMax d byte).2) :
    Scalar c := by
  have hnone {c : Nat} (h : c ∈ ([] : List Nat)) : Scalar c := absurd h List.not_mem_nil
  have hreplacement {c : Nat} {l : List Nat} (hl : c ∈ l → Scalar c)
      (h : c ∈ resultAppend outputMax l replacement) : Scalar c := by
    rcases mem_resultAppend h with h | rfl
    · exact hl h
    · exact .inr (by decide)
  have hascii {c : Nat} {l : List Nat} (hl : c ∈ l → Scalar c) (hb : byte < 0x80)
      (h : c ∈ resultAppend outputMax l byte.toNat) : Scalar c := by
    rcases mem_resultAppend h with h | rfl
    · exact hl h
    · have : byte.toNat < 0x80 := UInt8.lt_iff_toNat_lt.mp hb
      exact .inl (by omega)
  simp only [feed] at h
  split_ifs at h with _ _ h3 _ _ h6 h7
  · exact hascii (hreplacement hnone) h3 h
  · exact hreplacement hnone h
  · exact hreplacement (hreplacement hnone) h
  · exact hnone h
  · exact hreplacement hnone h
  · rcases mem_resultAppend (show c ∈ resultAppend outputMax [] _ from h) with h | rfl
    · exact hnone h
    · simp only [Scalar]
      omega
  · exact hascii hnone h7 h
  · exact hnone h
  · exact hreplacement hnone h

lemma utf8Start_lead {n : Nat} {lead : UInt8} (h : IsLead n lead) (d : Decoder) :
    utf8Start d lead = ⟨lead.toNat % 2 ^ (6 - n), minimum n, n⟩ := by
  have hmask (k : Nat) : lead.toNat &&& (2 ^ k - 1) = lead.toNat % 2 ^ k :=
    Nat.and_two_pow_sub_one_eq_mod _ k
  simp only [utf8Start, UInt8.le_iff_toNat_le, UInt8.reduceToNat]
  rcases h with ⟨rfl, h⟩ | ⟨rfl, h⟩ | ⟨rfl, h⟩
  · rw [if_pos (by omega)]
    exact congrArg (Decoder.mk · _ _) (hmask 5)
  · rw [if_neg (by omega), if_pos (by omega)]
    exact congrArg (Decoder.mk · _ _) (hmask 4)
  · rw [if_neg (by omega), if_neg (by omega), if_pos (by omega)]
    exact congrArg (Decoder.mk · _ _) (hmask 3)

def Decoder.pending (d : Decoder) : List Nat := if d.remaining ≠ 0 then [replacement] else []

lemma feed_lead {n : Nat} {lead : UInt8} (h : IsLead n lead) (d : Decoder) :
    feed outputMax d lead = (⟨lead.toNat % 2 ^ (6 - n), minimum n, n⟩, d.pending) := by
  have hrange : 0xc2 ≤ lead.toNat ∧ lead.toNat ≤ 0xf4 := by
    simp only [IsLead] at h
    omega
  have htail : lead &&& 0xc0 ≠ 0x80 := by
    rw [ne_eq, isTail_iff, IsTail]
    omega
  have hascii : ¬ lead < 0x80 := by
    rw [UInt8.lt_iff_toNat_lt]
    exact fun h => absurd (lt_of_le_of_lt hrange.1 h) (by decide)
  have hlead : 0xc2 ≤ lead ∧ lead ≤ 0xf4 := hrange
  simp only [feed, if_pos htail, if_neg hascii, if_pos hlead, utf8Start_lead h, Decoder.pending]
  split_ifs <;> rfl

lemma feed_ascii {byte : UInt8} (h : byte.toNat < 0x80) (d : Decoder) :
    (feed outputMax d byte).2 = d.pending ++ [byte.toNat] ∧ (d.next byte).remaining = 0 := by
  have htail : byte &&& 0xc0 ≠ 0x80 := by
    rw [ne_eq, isTail_iff, IsTail]
    omega
  have hascii : byte < 0x80 := UInt8.lt_iff_toNat_lt.mpr h
  by_cases hd : d.remaining = 0
  · simp [Decoder.next, feed, Decoder.pending, hd, hascii, resultAppend, outputMax]
  · simp [Decoder.next, feed, Decoder.pending, hd, hascii, htail, resultAppend, outputMax,
      Decoder.reset]

lemma le_foldl_addTail (tails : List UInt8) (value : Nat) : value ≤ tails.foldl addTail value := by
  induction tails generalizing value with
  | nil => exact le_rfl
  | cons b tails ih =>
    refine le_trans ?_ (ih _)
    simp only [addTail]
    omega

variable {tails : List UInt8}

lemma outputs_tails {least c : Nat} (hleast : least ≤ c) (hc : Scalar c) :
    ∀ {value : Nat}, tails ≠ [] → (∀ b ∈ tails, IsTail b) → tails.foldl addTail value = c →
      outputs ⟨value, least, tails.length⟩ tails = [c] ∧
        tails.foldl Decoder.next ⟨value, least, tails.length⟩ = .reset := by
  induction tails with
  | nil => intro _ h; exact absurd rfl h
  | cons b rest ih =>
    intro value _ htails hvalue
    obtain ⟨hb, hrest⟩ := List.forall_mem_cons.mp htails
    have hle := le_foldl_addTail rest (addTail value b)
    rw [List.foldl_cons] at hvalue
    rw [hvalue] at hle
    have hwrap : (value <<< 6 ||| (b.toNat &&& 0x3f)) % 2 ^ 32 = addTail value b := by
      rw [addTail_eq, Nat.mod_eq_of_lt]
      simp only [Scalar] at hc
      omega
    have hfeed : feed outputMax ⟨value, least, rest.length + 1⟩ b =
        if rest.length ≠ 0 then (⟨addTail value b, least, rest.length⟩, [])
        else if addTail value b < least ∨ addTail value b > 0x10ffff ∨
          (0xd800 ≤ addTail value b ∧ addTail value b ≤ 0xdfff) then (.reset, [replacement])
        else (.reset, [addTail value b]) := by
      simp only [feed, (isTail_iff b).mpr hb, hwrap, Nat.add_sub_cancel]
      rfl
    rw [List.length_cons, outputs, List.foldl_cons, Decoder.next, hfeed]
    by_cases hlast : rest = []
    · subst hlast
      have heq : addTail value b = c := hvalue
      simp only [Scalar] at hc
      rw [if_neg (by simp), heq, if_neg (by omega)]
      exact ⟨rfl, rfl⟩
    · rw [if_pos (by simpa using hlast)]
      exact ih hlast hrest hvalue

lemma outputs_encode {c : Nat} (hc : Scalar c) (d : Decoder) :
    outputs d (encode c) = d.pending ++ [c] ∧ ((encode c).foldl Decoder.next d).remaining = 0 := by
  rcases encode_sequence hc with ⟨hlt, he⟩ | ⟨n, lead, tails, he, hseq, hmin⟩
  · have hbyte : (UInt8.ofNat c).toNat = c := by rw [UInt8.toNat_ofNat']; omega
    obtain ⟨hout, hnext⟩ := feed_ascii (hbyte.symm ▸ hlt) d
    rw [he, outputs, hout, hbyte]
    exact ⟨List.append_nil _, hnext⟩
  · obtain ⟨hlead, hlength, htails, hvalue⟩ := hseq
    have hne : tails ≠ [] := by
      rintro rfl
      simp only [IsLead, List.length_nil] at hlead hlength
      omega
    obtain ⟨hout, hnext⟩ := outputs_tails hmin hc hne htails hvalue
    rw [he, outputs, List.foldl_cons, Decoder.next, feed_lead hlead d, ← hlength] at *
    exact ⟨congrArg _ hout, congrArg Decoder.remaining hnext⟩

/-- Behind any bytes a well-formed text is decoded. If it is not empty and a sequence was
unfinished, one replacement character comes first. No code point is lost for lack of
room. -/
theorem terminal_resynchronises (p : List UInt8) (cs : List Nat) (hcs : ∀ c ∈ cs, Scalar c) :
    outputs .reset (p ++ cs.flatMap encode) = outputs .reset p ++
      ((if cs = [] then [] else (p.foldl Decoder.next .reset).pending) ++ cs) ∧
    (∀ q, ∀ c ∈ outputs .reset q, Scalar c) ∧
    ∀ d byte, (feed outputMax d byte).2.length ≤ outputMax ∧
      ∀ capacity ≥ outputMax, feed capacity d byte = feed outputMax d byte := by
  refine ⟨?_, fun q => ?_, fun d byte => ⟨feed_length d byte, fun _ h => feed_capacity h d byte⟩⟩
  · rw [outputs_append]
    congr 1
    generalize p.foldl Decoder.next .reset = d
    induction cs generalizing d with
    | nil => rfl
    | cons c cs ih =>
      obtain ⟨hc, hcs⟩ := List.forall_mem_cons.mp hcs
      obtain ⟨hout, hnext⟩ := outputs_encode hc d
      have hpending : ((encode c).foldl Decoder.next d).pending = [] := if_neg (by simp [hnext])
      rw [List.flatMap_cons, outputs_append, hout, ih hcs, hpending]
      simp
  · generalize Decoder.reset = d
    induction q generalizing d with
    | nil => intro c hc; cases hc
    | cons byte q ih =>
      intro c hc
      rcases List.mem_append.mp hc with hc | hc
      · exact feed_scalar hc
      · exact ih _ c hc

/-- A letter behind a sequence that was cut off: the replacement character, and then the letter. -/
theorem letter_behind_cut_sequence : outputs .reset ([0xe2] ++ [0x41].flatMap encode) =
    outputs .reset [0xe2] ++ ([replacement] ++ [0x41]) :=
  (terminal_resynchronises [0xe2] [0x41] (by simp [Scalar])).1

open Mgfs (utf8ContinuationCount utf8SecondRefused validUtf8From validUtf8Name)

/-- `valid_utf8_name` of the checker, which asks for `count > length - i` where the kernel
asks for `i + count > length`. -/
def mgfsckValidUtf8Name (name : List UInt8) : Bool :=
  if name.length = 0 ∨ name.length > 255 ∨ name = [0x2e] ∨ name = [0x2e, 0x2e] then false
  else validUtf8From name.length name

variable {n : Nat} {lead : UInt8}

lemma isLead_iff : IsLead n lead ↔ n ≠ 0 ∧ utf8ContinuationCount lead = n := by
  simp only [IsLead, utf8ContinuationCount, UInt8.le_iff_toNat_le, UInt8.reduceToNat]
  split_ifs <;> omega

variable {bytes : List UInt8}

lemma any_iff_isTail : (bytes.any fun value => decide (value < 0x80 ∨ value > 0xBF)) = false ↔
      ∀ b ∈ bytes, IsTail b := by
  simp only [List.any_eq_false, decide_eq_true_eq, IsTail, gt_iff_lt, UInt8.lt_iff_toNat_lt,
    UInt8.reduceToNat]
  exact forall₂_congr fun b _ => by omega

variable {c : Nat}

lemma Sequence.second_iff (h : Sequence n lead tails c) :
    utf8SecondRefused lead (tails.getD 0 0) = false ↔ minimum n ≤ c ∧ Scalar c := by
  obtain ⟨hlead, hlength, htails, rfl⟩ := h
  simp only [utf8SecondRefused, Bool.or_eq_false_iff, Bool.and_eq_false_imp, beq_iff_eq,
    decide_eq_false_iff_not, UInt8.lt_iff_toNat_lt, gt_iff_lt, ← UInt8.toNat_inj,
    UInt8.reduceToNat, Scalar, valueOf]
  rcases hlead with ⟨rfl, h1, h2⟩ | ⟨rfl, h1, h2⟩ | ⟨rfl, h1, h2⟩
  on_goal 1 => obtain ⟨a, rfl⟩ := List.length_eq_one_iff.mp hlength
  on_goal 2 => obtain ⟨a, b, rfl⟩ := List.length_eq_two.mp hlength
  on_goal 3 => obtain ⟨a, b, d, rfl⟩ := List.length_eq_three.mp hlength
  all_goals
    have ha := htails a (by simp)
    simp only [List.foldl, addTail, minimum, IsTail, List.getD_cons_zero] at ha ⊢
    omega

variable {rest : List UInt8} {first : UInt8}

lemma wellFormed_ascii (h : first.toNat < 0x80) :
    WellFormed (first :: rest) ↔ WellFormed rest := by
  constructor
  · rintro ⟨cs, hcs⟩
    obtain ⟨c, cs', rest', -, hc, heq, hrest⟩ := hcs.cons_inv
    rcases encode_sequence hc with ⟨-, he⟩ | ⟨n, lead, tails, he, hseq, -⟩
    · rw [he] at heq
      cases heq
      exact ⟨cs', hrest⟩
    · rw [he] at heq
      cases heq
      have := hseq.lead_ok
      simp only [IsLead] at this
      omega
  · rintro ⟨cs, hcs⟩
    have he : encode first.toNat = [first] := by rw [encode, if_pos h, UInt8.ofNat_toNat]
    exact ⟨_, he ▸ hcs.append (.inl (by omega))⟩

lemma wellFormed_lead (h : 0x80 ≤ first.toNat) :
    WellFormed (first :: rest) ↔ ∃ n tails rest' c, rest = tails ++ rest' ∧
      Sequence n first tails c ∧ minimum n ≤ c ∧ Scalar c ∧ WellFormed rest' := by
  constructor
  · rintro ⟨cs, hcs⟩
    obtain ⟨c, cs', rest', -, hc, heq, hrest⟩ := hcs.cons_inv
    rcases encode_sequence hc with ⟨hlt, he⟩ | ⟨n, lead, tails, he, hseq, hmin⟩
    · rw [he] at heq
      cases heq
      rw [UInt8.toNat_ofNat'] at h
      omega
    · rw [he] at heq
      cases heq
      exact ⟨n, tails, rest', c, rfl, hseq, hmin, hc, cs', hrest⟩
  · rintro ⟨n, tails, rest', c, rfl, hseq, hmin, hc, cs, hcs⟩
    have happend := hcs.append hc
    rw [hseq.encode_eq hmin hc] at happend
    exact ⟨_, happend⟩

variable {fuel : Nat}

lemma validUtf8From_iff : ∀ {name : List UInt8}, name.length ≤ fuel →
    (validUtf8From fuel name = true ↔ WellFormed name ∧ ∀ b ∈ name, b ≠ 0 ∧ b ≠ 0x2f) := by
  induction fuel with
  | zero =>
    intro name hname
    obtain rfl := List.eq_nil_of_length_eq_zero (Nat.le_zero.mp hname)
    exact iff_of_true rfl ⟨⟨[], encodes_nil.mpr rfl⟩, nofun⟩
  | succ fuel ih =>
    intro name hname
    cases name with
    | nil => exact iff_of_true rfl ⟨⟨[], encodes_nil.mpr rfl⟩, nofun⟩
    | cons first rest =>
      rw [List.length_cons] at hname
      unfold validUtf8From
      by_cases hforbidden : first = 0 ∨ first = 0x2F
      · rw [if_pos hforbidden]
        refine iff_of_false (by decide) fun ⟨_, h⟩ => ?_
        obtain ⟨h0, hslash⟩ := h first List.mem_cons_self
        exact hforbidden.elim h0 hslash
      have hfirst := not_or.mp hforbidden
      rw [if_neg hforbidden, List.forall_mem_cons]
      by_cases hascii : first < 0x80
      · have hlt := UInt8.lt_iff_toNat_lt.mp hascii
        rw [if_pos hascii, ih (by omega), wellFormed_ascii hlt]
        simp [hfirst]
      have hge := Nat.le_of_not_lt fun h => hascii (UInt8.lt_iff_toNat_lt.mpr h)
      have hzero {tails : List UInt8} (h : ∀ b ∈ tails, IsTail b) : ∀ b ∈ tails, b ≠ 0 ∧ b ≠ 0x2f := by
        intro b hb
        have hb := h b hb
        constructor <;> rintro rfl <;> exact absurd hb.1 (by decide)
      rw [if_neg hascii, wellFormed_lead hge]
      simp only
      constructor
      · intro h
        split_ifs at h with h1 h2 h3
        have htails := any_iff_isTail.mp (Bool.eq_false_iff.mpr h2)
        have hseq : Sequence (utf8ContinuationCount first) first
            (rest.take (utf8ContinuationCount first)) _ :=
          ⟨isLead_iff.mpr ⟨by omega, rfl⟩, by rw [List.length_take]; omega, htails, rfl⟩
        have hsecond : (rest.take (utf8ContinuationCount first)).getD 0 0 = rest.getD 0 0 := by
          rw [List.getD_eq_getElem?_getD, List.getElem?_take_of_lt (by omega),
            ← List.getD_eq_getElem?_getD]
        rw [← hsecond] at h3
        obtain ⟨hmin, hscalar⟩ := hseq.second_iff.mp (Bool.eq_false_iff.mpr h3)
        obtain ⟨hrest, hall⟩ := (ih (by rw [List.length_drop]; omega)).mp h
        refine ⟨⟨_, _, _, _, (List.take_append_drop _ rest).symm, hseq, hmin, hscalar, hrest⟩,
          hfirst, ?_⟩
        rw [← List.take_append_drop (utf8ContinuationCount first) rest]
        exact List.forall_mem_append.mpr ⟨hzero htails, hall⟩
      · rintro ⟨⟨n, tails, rest', c, rfl, hseq, hmin, hscalar, hrest⟩, -, hall⟩
        obtain ⟨hn, hcount⟩ := isLead_iff.mp hseq.lead_ok
        have hlength := hseq.length_eq
        have hsecond : (tails ++ rest').getD 0 0 = tails.getD 0 0 := by
          cases tails with
          | nil => exact absurd hlength.symm hn
          | cons b tails => rfl
        have htake : (tails ++ rest').take n = tails := by rw [← hlength, List.take_left]
        have hdrop : (tails ++ rest').drop n = rest' := by rw [← hlength, List.drop_left]
        rw [List.length_append] at hname
        rw [hcount, List.length_append, if_neg (by omega), htake, hsecond, hdrop,
          any_iff_isTail.mpr hseq.tails_ok, hseq.second_iff.mpr ⟨hmin, hscalar⟩]
        exact (ih (by omega)).mpr ⟨hrest, fun b hb => hall b (List.mem_append_right _ hb)⟩

def leadShape (lead : UInt8) : Option (Nat × Nat × Nat) :=
  if lead < 0x80 then some (lead.toNat, 0, 0)
  else if 0xc2 ≤ lead ∧ lead ≤ 0xdf then some (lead.toNat &&& 0x1f, 0x80, 1)
  else if 0xe0 ≤ lead ∧ lead ≤ 0xef then some (lead.toNat &&& 0x0f, 0x800, 2)
  else if 0xf0 ≤ lead ∧ lead ≤ 0xf4 then some (lead.toNat &&& 7, 0x10000, 3)
  else none

def addBytes (value : Nat) : List UInt8 → Option Nat
  | [] => some value
  | b :: rest =>
    if b &&& 0xc0 ≠ 0x80 then none else addBytes (value <<< 6 ||| (b.toNat &&& 0x3f)) rest

def exfatUtf8DecodeOne : List UInt8 → Option (Nat × List UInt8)
  | [] => none
  | lead :: rest =>
    match leadShape lead with
    | none => none
    | some (value, minimum, more) =>
      if rest.length < more then none
      else match addBytes value (rest.take more) with
        | none => none
        | some value =>
          if value < minimum ∨ value > 0x10ffff ∨ (0xd800 ≤ value ∧ value ≤ 0xdfff) then none
          else some (value, rest.drop more)

def decodeAll : Nat → List UInt8 → Option (List Nat)
  | _, [] => some []
  | 0, _ :: _ => none
  | fuel + 1, input =>
    (exfatUtf8DecodeOne input).bind fun one => (decodeAll fuel one.2).map (one.1 :: ·)

lemma addBytes_iff {value : Nat} : addBytes value bytes = some c ↔
    (∀ b ∈ bytes, IsTail b) ∧ bytes.foldl addTail value = c := by
  induction bytes generalizing value with
  | nil => simp [addBytes]
  | cons b rest ih =>
    rw [addBytes, List.forall_mem_cons, ← isTail_iff]
    by_cases hb : b &&& 0xc0 = 0x80
    · rw [if_neg (by simp [hb]), ih, addTail_eq]
      simp [hb]
    · simp [hb]

lemma leadShape_lead (h : IsLead n lead) :
    leadShape lead = some (lead.toNat % 2 ^ (6 - n), minimum n, n) := by
  have hmask (k : Nat) : lead.toNat &&& (2 ^ k - 1) = lead.toNat % 2 ^ k :=
    Nat.and_two_pow_sub_one_eq_mod _ k
  simp only [leadShape, UInt8.lt_iff_toNat_lt, UInt8.le_iff_toNat_le, UInt8.reduceToNat]
  rcases h with ⟨rfl, h⟩ | ⟨rfl, h⟩ | ⟨rfl, h⟩
  · rw [if_neg (by omega), if_pos (by omega)]
    exact congrArg (fun v => some (v, _)) (hmask 5)
  · rw [if_neg (by omega), if_neg (by omega), if_pos (by omega)]
    exact congrArg (fun v => some (v, _)) (hmask 4)
  · rw [if_neg (by omega), if_neg (by omega), if_neg (by omega), if_pos (by omega)]
    exact congrArg (fun v => some (v, _)) (hmask 3)

lemma leadShape_none (h : 0x80 ≤ lead.toNat) (hn : ∀ n, ¬ IsLead n lead) :
    leadShape lead = none := by
  simp only [leadShape, UInt8.lt_iff_toNat_lt, UInt8.le_iff_toNat_le, UInt8.reduceToNat]
  rw [if_neg (by omega), if_neg fun h => hn 1 (.inl ⟨rfl, h⟩),
    if_neg fun h => hn 2 (.inr (.inl ⟨rfl, h⟩)), if_neg fun h => hn 3 (.inr (.inr ⟨rfl, h⟩))]

lemma exfatUtf8DecodeOne_iff {input : List UInt8} :
    exfatUtf8DecodeOne input = some (c, rest) ↔ Scalar c ∧ input = encode c ++ rest := by
  constructor
  · intro h
    cases input with
    | nil => cases h
    | cons lead bytes =>
      simp only [exfatUtf8DecodeOne] at h
      by_cases hascii : lead.toNat < 0x80
      · have hshape : leadShape lead = some (lead.toNat, 0, 0) :=
          if_pos (UInt8.lt_iff_toNat_lt.mpr hascii)
        simp only [hshape, Nat.not_lt_zero, if_false, false_or, List.take_zero, addBytes,
          List.drop_zero] at h
        rw [if_neg (by omega)] at h
        cases h
        refine ⟨.inl (by omega), ?_⟩
        rw [encode, if_pos hascii, UInt8.ofNat_toNat]
        rfl
      by_cases hlead : ∃ n, IsLead n lead
      · obtain ⟨n, hlead⟩ := hlead
        simp only [leadShape_lead hlead] at h
        split at h
        · cases h
        · next hlength =>
          split at h
          · cases h
          · next value hvalue =>
            obtain ⟨htails, hvalue⟩ := addBytes_iff.mp hvalue
            split at h
            · cases h
            · next hrange =>
              cases h
              have hseq : Sequence _ lead _ c :=
                ⟨hlead, by rw [List.length_take]; omega, htails, hvalue⟩
              have hscalar : Scalar c := by simp only [Scalar]; omega
              refine ⟨hscalar, ?_⟩
              rw [hseq.encode_eq (by omega) hscalar, List.cons_append, List.take_append_drop]
      · simp only [leadShape_none (Nat.le_of_not_lt hascii) (not_exists.mp hlead)] at h
        cases h
  · rintro ⟨hs, rfl⟩
    rcases encode_sequence hs with ⟨hlt, he⟩ | ⟨n, lead, tails, he, hseq, hmin⟩
    · have hbyte : (UInt8.ofNat c).toNat = c := by rw [UInt8.toNat_ofNat']; omega
      have hshape : leadShape (UInt8.ofNat c) = some (c, 0, 0) := by
        rw [leadShape, if_pos (UInt8.lt_iff_toNat_lt.mpr (by rw [hbyte]; exact hlt)), hbyte]
      rw [he]
      simp only [List.cons_append, List.nil_append, exfatUtf8DecodeOne, hshape, Nat.not_lt_zero,
        if_false, false_or, List.take_zero, addBytes, List.drop_zero]
      rw [if_neg (by omega)]
    · have hlength := hseq.length_eq
      have htake : (tails ++ rest).take n = tails := by rw [← hlength, List.take_left]
      have hdrop : (tails ++ rest).drop n = rest := by rw [← hlength, List.drop_left]
      have hvalue := addBytes_iff.mpr ⟨hseq.tails_ok, hseq.value_eq⟩
      simp only [Scalar] at hs
      simp only [he, List.cons_append, exfatUtf8DecodeOne, leadShape_lead hseq.lead_ok, htake,
        hdrop, hvalue, List.length_append]
      rw [if_neg (by omega), if_neg (by omega)]

lemma decodeAll_iff : ∀ {input : List UInt8} {cs : List Nat},
    input.length ≤ fuel → (decodeAll fuel input = some cs ↔ Encodes input cs) := by
  induction fuel with
  | zero =>
    intro input cs hlength
    obtain rfl := List.eq_nil_of_length_eq_zero (Nat.le_zero.mp hlength)
    simp [decodeAll, encodes_nil, eq_comm]
  | succ fuel ih =>
    intro input cs hlength
    cases input with
    | nil => simp [decodeAll, encodes_nil, eq_comm]
    | cons lead bytes =>
      have hshorter {c : Nat} {rest : List UInt8} (h : lead :: bytes = encode c ++ rest) :
          rest.length ≤ fuel := by
        have hpos := List.length_pos_iff.mpr (encode_ne_nil c)
        have := congrArg List.length h
        rw [List.length_append] at this
        omega
      simp only [decodeAll, Option.bind_eq_some_iff, Option.map_eq_some_iff, Prod.exists]
      constructor
      · rintro ⟨c, rest, hone, cs', hrest, rfl⟩
        obtain ⟨hc, heq⟩ := exfatUtf8DecodeOne_iff.mp hone
        rw [heq]
        exact ((ih (hshorter heq)).mp hrest).append hc
      · intro h
        obtain ⟨c, cs', rest, rfl, hc, heq, hrest⟩ := h.cons_inv
        exact ⟨c, rest, exfatUtf8DecodeOne_iff.mpr ⟨hc, heq⟩, cs',
          (ih (hshorter heq)).mpr hrest, rfl⟩

def maxNameUnits : Nat := 255

def exfatNameCodepointAllowed (value : Nat) : Bool :=
  !(value < 0x20 || (0x7f ≤ value && value ≤ 0x9f) ||
    value ∈ [0x3c, 0x3e, 0x3a, 0x22, 0x2f, 0x5c, 0x7c, 0x3f, 0x2a])

/-- The state of the conversion to UTF-16. -/
structure Scan where
  units : List Nat
  content : Bool
  first : Nat
  last : Nat

def Scan.put (scan : Scan) (value : Nat) (units : List Nat) : Scan :=
  ⟨scan.units ++ units, scan.content || (value ≠ 0x20 && value ≠ 9),
    if scan.first = 0 then value else scan.first, value⟩

def toUtf16Loop : Nat → List UInt8 → Scan → Option Scan
  | _, [], scan => some scan
  | 0, _ :: _, _ => none
  | fuel + 1, input, scan =>
    match exfatUtf8DecodeOne input with
    | none => none
    | some (value, rest) =>
      if exfatNameCodepointAllowed value = false then none
      else if value ≤ 0xffff then
        if scan.units.length ≥ maxNameUnits then none
        else toUtf16Loop fuel rest (scan.put value [value])
      else if scan.units.length > maxNameUnits - 2 then none
      else toUtf16Loop fuel rest (scan.put value
        [0xd800 ||| (value - 0x10000) >>> 10, 0xdc00 ||| ((value - 0x10000) &&& 0x3ff)])

def exfatUtf8ToUtf16 (input : List UInt8) (label : Bool) : Option (List Nat) :=
  if input.length > 255 then none
  else match toUtf16Loop input.length input ⟨[], false, 0, 0⟩ with
    | none => none
    | some scan =>
      if label ∧ scan.units.length > 11 then none
      else if label ∧ scan.units ≠ [] ∧
          (scan.content = false ∨ scan.first = 0x20 ∨ scan.last = 0x20) then none
      else some scan.units

def encodeBits (value : Nat) : List UInt8 :=
  if value < 0x80 then [UInt8.ofNat value]
  else if value < 0x800 then
    [UInt8.ofNat (0xc0 ||| value >>> 6), UInt8.ofNat (0x80 ||| (value &&& 0x3f))]
  else if value < 0x10000 then
    [UInt8.ofNat (0xe0 ||| value >>> 12), UInt8.ofNat (0x80 ||| (value >>> 6 &&& 0x3f)),
      UInt8.ofNat (0x80 ||| (value &&& 0x3f))]
  else
    [UInt8.ofNat (0xf0 ||| value >>> 18), UInt8.ofNat (0x80 ||| (value >>> 12 &&& 0x3f)),
      UInt8.ofNat (0x80 ||| (value >>> 6 &&& 0x3f)), UInt8.ofNat (0x80 ||| (value &&& 0x3f))]

/-- The room check of `exfat_utf16_to_utf8`, whose difference wraps. -/
def full (capacity position encoded : Nat) : Bool := position > sub64 (sub64 capacity 1) encoded

def toUtf8Loop (capacity : Nat) : List Nat → List UInt8 → Option (List UInt8)
  | [], output => if output.length ≥ capacity then none else some output
  | value :: rest, output =>
    if 0xd800 ≤ value ∧ value ≤ 0xdbff then
      match rest with
      | [] => none
      | low :: rest =>
        if low < 0xdc00 ∨ low > 0xdfff then none
        else
          let bytes := encodeBits (0x10000 + (value - 0xd800) <<< 10 + (low - 0xdc00))
          if full capacity output.length bytes.length then none
          else toUtf8Loop capacity rest (output ++ bytes)
    else if 0xdc00 ≤ value ∧ value ≤ 0xdfff then none
    else if full capacity output.length (encodeBits value).length then none
    else toUtf8Loop capacity rest (output ++ encodeBits value)

def exfatUtf16ToUtf8 (units : List Nat) (capacity : Nat) : Option (List UInt8) :=
  if capacity = 0 ∨ units.length > maxNameUnits then none else toUtf8Loop capacity units []

lemma encodeBits_eq {value : Nat} (h : value ≤ 0x10ffff) : encodeBits value = encode value := by
  have hmask (x : Nat) : x &&& 0x3f = x % 64 := Nat.and_two_pow_sub_one_eq_mod x 6
  have htail (x : Nat) : 0x80 ||| (x &&& 0x3f) = 0x80 + x % 64 := by
    rw [hmask]
    exact (Nat.shiftLeft_add_eq_or_of_lt (show x % 64 < 2 ^ 7 by omega) 1).symm
  unfold encodeBits encode
  simp only [htail, Nat.shiftRight_eq_div_pow]
  split_ifs with h1 h2 h3
  · rfl
  · have hlead : 0xc0 ||| value / 2 ^ 6 = 0xc0 + value / 64 :=
      (Nat.shiftLeft_add_eq_or_of_lt (show value / 64 < 2 ^ 6 by omega) 3).symm
    rw [hlead]
  · have hlead : 0xe0 ||| value / 2 ^ 12 = 0xe0 + value / 4096 :=
      (Nat.shiftLeft_add_eq_or_of_lt (show value / 4096 < 2 ^ 5 by omega) 7).symm
    rw [hlead]
  · have hlead : 0xf0 ||| value / 2 ^ 18 = 0xf0 + value / 262144 :=
      (Nat.shiftLeft_add_eq_or_of_lt (show value / 262144 < 2 ^ 4 by omega) 15).symm
    rw [hlead]

def units16 (c : Nat) : List Nat :=
  if c ≤ 0xffff then [c] else [0xd800 + (c - 0x10000) / 1024, 0xdc00 + (c - 0x10000) % 1024]

lemma surrogates_eq (h : 0xffff < c) (hc : c ≤ 0x10ffff) :
    [0xd800 ||| (c - 0x10000) >>> 10, 0xdc00 ||| ((c - 0x10000) &&& 0x3ff)] = units16 c := by
  have hmask : (c - 0x10000) &&& 0x3ff = (c - 0x10000) % 1024 :=
    Nat.and_two_pow_sub_one_eq_mod _ 10
  have hhigh : 0xd800 ||| (c - 0x10000) / 2 ^ 10 = 0xd800 + (c - 0x10000) / 1024 :=
    (Nat.shiftLeft_add_eq_or_of_lt (show (c - 0x10000) / 1024 < 2 ^ 10 by omega) 54).symm
  have hlow : 0xdc00 ||| (c - 0x10000) % 1024 = 0xdc00 + (c - 0x10000) % 1024 :=
    (Nat.shiftLeft_add_eq_or_of_lt (show (c - 0x10000) % 1024 < 2 ^ 10 by omega) 55).symm
  rw [units16, if_neg (by omega), Nat.shiftRight_eq_div_pow, hhigh, hmask, hlow]

lemma toUtf16Loop_some : ∀ {input : List UInt8} {scan scan' : Scan},
    toUtf16Loop fuel input scan = some scan' → scan.units.length ≤ maxNameUnits →
      scan'.units.length ≤ maxNameUnits ∧
        ∃ cs, Encodes input cs ∧ scan'.units = scan.units ++ cs.flatMap units16 := by
  have hdone {scan scan' : Scan} (h : some scan = some scan')
      (hle : scan.units.length ≤ maxNameUnits) : scan'.units.length ≤ maxNameUnits ∧
        ∃ cs, Encodes [] cs ∧ scan'.units = scan.units ++ cs.flatMap units16 := by
    cases h
    exact ⟨hle, [], encodes_nil.mpr rfl, (List.append_nil _).symm⟩
  induction fuel with
  | zero =>
    intro input scan scan' h hle
    cases input with
    | nil => exact hdone h hle
    | cons lead bytes => cases h
  | succ fuel ih =>
    intro input scan scan' h hle
    cases input with
    | nil => exact hdone h hle
    | cons lead bytes =>
      have hone {value : Nat} {rest : List UInt8} {units : List Nat}
          (hs : Scalar value) (heq : lead :: bytes = encode value ++ rest)
          (hunits : units = units16 value) (hroom : scan.units.length + units.length ≤ maxNameUnits)
          (h : toUtf16Loop fuel rest (scan.put value units) = some scan') :
          scan'.units.length ≤ maxNameUnits ∧ ∃ cs, Encodes (lead :: bytes) cs ∧
            scan'.units = scan.units ++ cs.flatMap units16 := by
        obtain ⟨hlength, cs, hcs, hresult⟩ := ih h (by simpa [Scan.put] using hroom)
        refine ⟨hlength, value :: cs, heq ▸ hcs.append hs, ?_⟩
        rw [hresult, List.flatMap_cons, ← hunits, Scan.put, List.append_assoc]
      unfold toUtf16Loop at h
      split at h
      · cases h
      · next value rest hdecode =>
        obtain ⟨hs, heq⟩ := exfatUtf8DecodeOne_iff.mp hdecode
        split_ifs at h with h1 h2 h3 h4
        · refine hone hs heq ?_ ?_ h
          · rw [units16, if_pos h2]
          · simp only [List.length_singleton]
            omega
        · refine hone hs heq (surrogates_eq (by omega) ?_) ?_ h
          · simp only [Scalar] at hs
            omega
          · simp only [maxNameUnits, List.length_cons, List.length_nil] at h4 ⊢
            omega

lemma toUtf8Loop_units {capacity : Nat} {cs : List Nat} (hcapacity : capacity < 2 ^ 64)
    (hs : ∀ c ∈ cs, Scalar c) : ∀ {output : List UInt8},
      output.length + (cs.flatMap encode).length < capacity →
        toUtf8Loop capacity (cs.flatMap units16) output = some (output ++ cs.flatMap encode) := by
  induction cs with
  | nil =>
    intro output h
    rw [List.flatMap_nil, List.length_nil] at h
    rw [List.flatMap_nil, List.flatMap_nil, List.append_nil, toUtf8Loop, if_neg (by omega)]
  | cons c cs ih =>
    intro output h
    obtain ⟨hc, hs⟩ := List.forall_mem_cons.mp hs
    rw [List.flatMap_cons, List.length_append] at h
    have hbits : encodeBits c = encode c := encodeBits_eq (by simp only [Scalar] at hc; omega)
    have hroom : full capacity output.length (encode c).length = false := by
      simp only [full, sub64, gt_iff_lt, decide_eq_false_iff_not]
      omega
    have hrest := @ih hs (output ++ encode c) (by rw [List.length_append]; omega)
    rw [List.append_assoc] at hrest
    rw [List.flatMap_cons, List.flatMap_cons, units16]
    simp only [Scalar] at hc
    by_cases hsmall : c ≤ 0xffff
    · rw [if_pos hsmall, List.singleton_append]
      unfold toUtf8Loop
      rw [if_neg (by omega), if_neg (by omega), hbits, hroom]
      exact hrest
    · have hvalue : 0x10000 + (0xd800 + (c - 0x10000) / 1024 - 0xd800) <<< 10 +
          (0xdc00 + (c - 0x10000) % 1024 - 0xdc00) = c := by
        rw [Nat.shiftLeft_eq]
        omega
      rw [if_neg hsmall, List.cons_append, List.singleton_append]
      unfold toUtf8Loop
      simp only [hvalue, hbits, hroom]
      rw [if_pos (by omega), if_neg (by omega)]
      exact hrest

/-- What the validators accept and that exFAT names come back from UTF-16. -/
theorem names_are_utf8 : (∀ name : List UInt8, validUtf8From name.length name = true ↔
      WellFormed name ∧ ∀ b ∈ name, b ≠ 0 ∧ b ≠ 0x2f) ∧
    (∀ valid ∈ [validUtf8Name, mgfsckValidUtf8Name], ∀ name, valid name = true ↔
      (name ≠ [] ∧ name.length ≤ 255 ∧ name ≠ [0x2e] ∧ name ≠ [0x2e, 0x2e]) ∧
        WellFormed name ∧ ∀ b ∈ name, b ≠ 0 ∧ b ≠ 0x2f) ∧
    (∀ input cs, decodeAll input.length input = some cs ↔ Encodes input cs) ∧
    ∀ input label units capacity, exfatUtf8ToUtf16 input label = some units →
      input.length < capacity → capacity < 2 ^ 64 →
        exfatUtf16ToUtf8 units capacity = some input := by
  refine ⟨fun name => validUtf8From_iff le_rfl, fun valid hvalid name => ?_,
    fun input cs => decodeAll_iff le_rfl, ?_⟩
  · have hboth := (List.mem_pair.mp hvalid).elim id fun h => h
    rw [hboth, validUtf8Name]
    split_ifs with h
    · refine iff_of_false (by decide) fun ⟨⟨h1, h2, h3, h4⟩, _⟩ => ?_
      rcases h with h | h | h | h
      exacts [h1 (List.eq_nil_of_length_eq_zero h), by omega, h3 h, h4 h]
    · simp only [not_or, List.length_eq_zero_iff, gt_iff_lt, not_lt] at h
      rw [validUtf8From_iff le_rfl]
      exact (and_iff_right h).symm
  · intro input label units capacity h hlength hcapacity
    unfold exfatUtf8ToUtf16 at h
    split_ifs at h
    split at h
    · cases h
    · next scan hscan =>
      split_ifs at h
      cases h
      obtain ⟨hmax, cs, ⟨hs, rfl⟩, hunits⟩ := toUtf16Loop_some hscan (Nat.zero_le _)
      rw [List.nil_append] at hunits
      rw [hunits] at hmax
      rw [hunits, exfatUtf16ToUtf8, if_neg (by omega)]
      exact toUtf8Loop_units hcapacity hs (by rw [List.length_nil]; omega)

/-- A letter, a letter of two bytes and a character of four. -/
def seedlingName : List UInt8 := [0x61, 0xc3, 0xa9, 0xf0, 0x9f, 0x8c, 0xb1]

theorem seedlingName_converted :
    exfatUtf8ToUtf16 seedlingName false = some [0x61, 0xe9, 0xd83c, 0xdf31] ∧
      exfatUtf16ToUtf8 [0x61, 0xe9, 0xd83c, 0xdf31] 256 = some seedlingName ∧
      WellFormed seedlingName ∧ ∀ b ∈ seedlingName, b ≠ 0 ∧ b ≠ 0x2f := by
  have h : exfatUtf8ToUtf16 seedlingName false = some [0x61, 0xe9, 0xd83c, 0xdf31] := by decide
  exact ⟨h, names_are_utf8.2.2.2 _ _ _ 256 h (by decide) (by decide),
    (names_are_utf8.1 seedlingName).mp (by decide)⟩

end Mangrove.Utf8
