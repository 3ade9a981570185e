import Mathlib

/-! Texts as lists of bytes: words between blanks, numbers in decimal and bytes in hexadecimal,
and UTF-8 of RFC 3629. -/

namespace Mangrove.Text

def ascii (s : String) : List UInt8 := s.toList.map fun c => UInt8.ofNat c.toNat

def isBlank (c : UInt8) : Bool := c = 0x20 || c = 0x09

def words (line : List UInt8) : List (List UInt8) :=
  (line.splitOnP isBlank).filter fun word => word ≠ []

def spaced (ws : List (List UInt8)) : List UInt8 := ws.flatMap fun word => 0x20 :: word

lemma spaced_cons (w : List UInt8) (ws : List (List UInt8)) :
    spaced (w :: ws) = 0x20 :: w ++ spaced ws := rfl

lemma words_append_blank {a b : List UInt8} {c : UInt8} (hc : isBlank c = true) :
    words (a ++ c :: b) = words a ++ words b := by
  simp [words, List.splitOnP_append_cons _ _ hc]

lemma words_of_no_blank {w : List UInt8} (hne : w ≠ []) (hw : ∀ c ∈ w, isBlank c = false) :
    words w = [w] := by
  simp [words, List.splitOnP_eq_singleton hw, hne]

lemma words_nil : words [] = [] := by decide

variable {ws : List (List UInt8)}

section

variable (hws : ∀ v ∈ ws, v ≠ [] ∧ ∀ c ∈ v, isBlank c = false)

include hws

lemma words_append_spaced {w : List UInt8}
    :
    words (w ++ spaced ws) = words w ++ ws := by
  induction ws generalizing w with
  | nil => simp [spaced]
  | cons v vs ih =>
    obtain ⟨hne, hv⟩ := hws v List.mem_cons_self
    rw [spaced_cons, List.cons_append, words_append_blank (by decide),
      ih fun u hu => hws u (List.mem_cons_of_mem v hu), words_of_no_blank hne hv]
    rfl

lemma words_spaced : words (spaced ws) = ws := by
  simpa [words_nil] using words_append_spaced (w := []) hws

end

def digitsFrom : Nat → Nat → List UInt8
  | 0, _ => []
  | count + 1, value =>
    if value = 0 then [] else UInt8.ofNat (0x30 + value % 10) :: digitsFrom count (value / 10)

def addDigit (bound value : Nat) (c : UInt8) : Option Nat :=
  if c < 0x30 ∨ 0x39 < c then none
  else
    let digit := c.toNat - 0x30
    if (bound - digit) / 10 < value then none else some (value * 10 + digit)

def readDigits (bound : Nat) (text : List UInt8) (value : Nat) : Option Nat :=
  text.foldlM (addDigit bound) value

lemma digit_toNat (value : Nat) : (UInt8.ofNat (0x30 + value % 10)).toNat = 0x30 + value % 10 := by
  rw [UInt8.toNat_ofNat']
  omega

lemma addDigit_digit {bound value : Nat} (h : value ≤ bound) :
    addDigit bound (value / 10) (UInt8.ofNat (0x30 + value % 10)) = some value := by
  have hlow : ¬ (UInt8.ofNat (0x30 + value % 10) < 0x30 ∨ 0x39 < UInt8.ofNat (0x30 + value % 10)) := by
    simp only [UInt8.lt_iff_toNat_lt, digit_toNat]
    have h30 : (0x30 : UInt8).toNat = 0x30 := rfl
    have h39 : (0x39 : UInt8).toNat = 0x39 := rfl
    omega
  have hfits : ¬ (bound - value % 10) / 10 < value / 10 := by omega
  simp only [addDigit, if_neg hlow, digit_toNat, Nat.add_sub_cancel_left, if_neg hfits]
  congr 1
  omega

lemma readDigits_digitsFrom {bound count value : Nat} (hlt : value < 10 ^ count)
    (h : value ≤ bound) : readDigits bound (digitsFrom count value).reverse 0 = some value := by
  induction count generalizing value with
  | zero =>
    obtain rfl : value = 0 := by simpa using hlt
    rfl
  | succ count ih =>
    by_cases hz : value = 0
    · subst hz
      rfl
    · have hread : readDigits bound (digitsFrom count (value / 10)).reverse 0 = some (value / 10) :=
        ih (by rw [pow_succ] at hlt; omega) (by omega)
      unfold readDigits at hread
      simp only [readDigits, digitsFrom, if_neg hz, List.reverse_cons, List.foldlM_append, hread,
        List.foldlM_cons, List.foldlM_nil, Option.bind_eq_bind, Option.bind_some, addDigit_digit h,
        Option.pure_def]

lemma digitsFrom_mem {count value : Nat} {c : UInt8} (h : c ∈ digitsFrom count value) :
    0x30 ≤ c.toNat ∧ c.toNat ≤ 0x39 := by
  induction count generalizing value with
  | zero => simp [digitsFrom] at h
  | succ count ih =>
    by_cases hz : value = 0
    · simp [digitsFrom, hz] at h
    · simp only [digitsFrom, if_neg hz, List.mem_cons] at h
      rcases h with rfl | h
      · rw [digit_toNat]
        omega
      · exact ih h

def hexChar (v : UInt8) : UInt8 := if v < 10 then 0x30 + v else 0x61 + (v - 10)

def hexDigit (c : UInt8) : Option UInt8 :=
  if 0x30 ≤ c ∧ c ≤ 0x39 then some (c - 0x30)
  else if 0x61 ≤ c ∧ c ≤ 0x66 then some (c - 0x61 + 10)
  else if 0x41 ≤ c ∧ c ≤ 0x46 then some (c - 0x41 + 10)
  else none

def hexPair (b : UInt8) : List UInt8 := [hexChar (b >>> 4), hexChar (b &&& 0x0f)]

def readHex : (n : Nat) → List UInt8 → Option (List.Vector UInt8 n)
  | 0, [] => some .nil
  | n + 1, high :: low :: rest =>
    (hexDigit high).bind fun h => (hexDigit low).bind fun l =>
      (readHex n rest).map fun tail => ((h <<< 4) ||| l) ::ᵥ tail
  | _, _ => none

lemma hexDigit_hexChar : ∀ v : UInt8, v < 16 → hexDigit (hexChar v) = some v := by
  decide +kernel

lemma hexPair_value : ∀ b : UInt8, b >>> 4 < 16 ∧ b &&& 0x0f < 16 ∧
    ((b >>> 4) <<< 4) ||| (b &&& 0x0f) = b := by
  decide +kernel

lemma readHex_hexPairs {n : Nat} (v : List.Vector UInt8 n) :
    readHex n (v.toList.flatMap hexPair) = some v := by
  induction n with
  | zero =>
    obtain rfl := List.Vector.eq_nil v
    rfl
  | succ n ih =>
    obtain ⟨b, tail, rfl⟩ := v.exists_eq_cons
    obtain ⟨hhigh, hlow, hvalue⟩ := hexPair_value b
    simp [hexPair, readHex, hexDigit_hexChar _ hhigh, hexDigit_hexChar _ hlow, ih, hvalue]

lemma hexChar_range : ∀ v : UInt8, v < 16 → (0x30 ≤ (hexChar v).toNat ∧
    (hexChar v).toNat ≤ 0x39) ∨ (0x61 ≤ (hexChar v).toNat ∧ (hexChar v).toNat ≤ 0x66) := by
  decide +kernel

lemma hexPair_mem (b : UInt8) : ∀ c ∈ hexPair b,
    (0x30 ≤ c.toNat ∧ c.toNat ≤ 0x39) ∨ (0x61 ≤ c.toNat ∧ c.toNat ≤ 0x66) := by
  intro c hc
  obtain ⟨hhigh, hlow, -⟩ := hexPair_value b
  rcases List.mem_pair.mp hc with rfl | rfl
  · exact hexChar_range _ hhigh
  · exact hexChar_range _ hlow

end Mangrove.Text

namespace Mangrove.Utf8

def Scalar (c : Nat) : Prop := c < 0xd800 ∨ (0xdfff < c ∧ c ≤ 0x10ffff)

def encode (c : Nat) : List UInt8 :=
  if c < 0x80 then [UInt8.ofNat c]
  else if c < 0x800 then [UInt8.ofNat (0xc0 + c / 64), UInt8.ofNat (0x80 + c % 64)]
  else if c < 0x10000 then [UInt8.ofNat (0xe0 + c / 4096), UInt8.ofNat (0x80 + c / 64 % 64),
    UInt8.ofNat (0x80 + c % 64)]
  else [UInt8.ofNat (0xf0 + c / 262144), UInt8.ofNat (0x80 + c / 4096 % 64),
    UInt8.ofNat (0x80 + c / 64 % 64), UInt8.ofNat (0x80 + c % 64)]

def Encodes (bytes : List UInt8) (cs : List Nat) : Prop :=
  (∀ c ∈ cs, Scalar c) ∧ bytes = cs.flatMap encode

def WellFormed (bytes : List UInt8) : Prop := ∃ cs, Encodes bytes cs

lemma encode_ne_nil (c : Nat) : encode c ≠ [] := by
  unfold encode
  split_ifs <;> simp

variable {cs : List Nat}

lemma encodes_nil : Encodes [] cs ↔ cs = [] := by
  constructor
  · rintro ⟨-, h⟩
    cases cs with
    | nil => rfl
    | cons c cs => exact absurd (List.append_eq_nil_iff.mp h.symm).1 (encode_ne_nil c)
  · rintro rfl
    exact ⟨nofun, rfl⟩

variable {rest : List UInt8} {c : Nat}

lemma Encodes.append (hc : Scalar c)
    (h : Encodes rest cs) : Encodes (encode c ++ rest) (c :: cs) :=
  ⟨List.forall_mem_cons.mpr ⟨hc, h.1⟩, by rw [List.flatMap_cons, h.2]⟩

lemma Encodes.cons_inv {lead : UInt8} (h : Encodes (lead :: rest) cs) :
    ∃ c cs' rest', cs = c :: cs' ∧ Scalar c ∧ lead :: rest = encode c ++ rest' ∧
      Encodes rest' cs' := by
  obtain ⟨hs, heq⟩ := h
  cases cs with
  | nil => cases heq
  | cons c cs' =>
    obtain ⟨hc, hs'⟩ := List.forall_mem_cons.mp hs
    exact ⟨c, cs', _, rfl, hc, heq, hs', rfl⟩

/-- A lead byte with `n` bytes to follow. -/
def IsLead (n : Nat) (lead : UInt8) : Prop :=
  (n = 1 ∧ 0xc2 ≤ lead.toNat ∧ lead.toNat ≤ 0xdf) ∨ (n = 2 ∧ 0xe0 ≤ lead.toNat ∧ lead.toNat ≤ 0xef) ∨
    (n = 3 ∧ 0xf0 ≤ lead.toNat ∧ lead.toNat ≤ 0xf4)

def IsTail (b : UInt8) : Prop := 0x80 ≤ b.toNat ∧ b.toNat < 0xc0

def minimum : Nat → Nat
  | 1 => 0x80
  | 2 => 0x800
  | _ => 0x10000

def addTail (value : Nat) (b : UInt8) : Nat := value * 64 + b.toNat % 64

def valueOf (n : Nat) (lead : UInt8) (tails : List UInt8) : Nat :=
  tails.foldl addTail (lead.toNat % 2 ^ (6 - n))

lemma isTail_iff : ∀ b : UInt8, b &&& 0xc0 = 0x80 ↔ IsTail b := by
  unfold IsTail
  decide +kernel

lemma addTail_eq (value : Nat) (b : UInt8) :
    value <<< 6 ||| (b.toNat &&& 0x3f) = addTail value b := by
  have hmod : b.toNat &&& 0x3f = b.toNat % 64 := Nat.and_two_pow_sub_one_eq_mod _ 6
  rw [hmod, ← Nat.shiftLeft_add_eq_or_of_lt (by omega), Nat.shiftLeft_eq, addTail]

/-- A lead byte with the bytes it asks for, and the value of the sequence. -/
structure Sequence (n : Nat) (lead : UInt8) (tails : List UInt8) (c : Nat) : Prop where
  lead_ok : IsLead n lead
  length_eq : tails.length = n
  tails_ok : ∀ b ∈ tails, IsTail b
  value_eq : valueOf n lead tails = c

lemma ofNat_eq {b : UInt8} {n : Nat} (h : b.toNat = n) : UInt8.ofNat n = b := by
  rw [← h, UInt8.ofNat_toNat]

lemma Sequence.encode_eq {n c : Nat} {lead : UInt8} {tails : List UInt8}
    (h : Sequence n lead tails c) (hmin : minimum n ≤ c) (hs : Scalar c) :
    encode c = lead :: tails := by
  obtain ⟨hlead, hlength, htails, rfl⟩ := h
  rcases hlead with ⟨rfl, h1, h2⟩ | ⟨rfl, h1, h2⟩ | ⟨rfl, h1, h2⟩
  · obtain ⟨a, rfl⟩ := List.length_eq_one_iff.mp hlength
    have ha := htails a (by simp)
    simp only [valueOf, List.foldl, addTail, minimum, IsTail] at hmin ha ⊢
    rw [encode, if_neg (by omega), if_pos (by omega), ofNat_eq (b := lead) (by omega),
      ofNat_eq (b := a) (by omega)]
  · obtain ⟨a, b, rfl⟩ := List.length_eq_two.mp hlength
    have ha := htails a (by simp)
    have hb := htails b (by simp)
    simp only [valueOf, List.foldl, addTail, minimum, IsTail] at hmin ha hb ⊢
    rw [encode, if_neg (by omega), if_neg (by omega), if_pos (by omega),
      ofNat_eq (b := lead) (by omega), ofNat_eq (b := a) (by omega), ofNat_eq (b := b) (by omega)]
  · obtain ⟨a, b, d, rfl⟩ := List.length_eq_three.mp hlength
    have ha := htails a (by simp)
    have hb := htails b (by simp)
    have hd := htails d (by simp)
    simp only [valueOf, List.foldl, addTail, minimum, IsTail, Scalar] at hmin ha hb hd hs ⊢
    rw [encode, if_neg (by omega), if_neg (by omega), if_neg (by omega),
      ofNat_eq (b := lead) (by omega), ofNat_eq (b := a) (by omega), ofNat_eq (b := b) (by omega),
      ofNat_eq (b := d) (by omega)]

lemma encode_sequence (hs : Scalar c) :
    (c < 0x80 ∧ encode c = [UInt8.ofNat c]) ∨ ∃ n lead tails, encode c = lead :: tails ∧
      Sequence n lead tails c ∧ minimum n ≤ c := by
  have hbyte {k : Nat} (hk : k < 256) : (UInt8.ofNat k).toNat = k := by
    rw [UInt8.toNat_ofNat']
    omega
  simp only [Scalar] at hs
  unfold encode
  by_cases h1 : c < 0x80
  · exact .inl ⟨h1, if_pos h1⟩
  right
  rw [if_neg h1]
  by_cases h2 : c < 0x800
  · rw [if_pos h2]
    refine ⟨1, _, _, rfl, ⟨.inl ⟨rfl, ?_⟩, rfl, ?_, ?_⟩, ?_⟩
    all_goals
      simp (disch := omega) only [List.mem_cons, List.not_mem_nil, or_false, forall_eq, IsTail,
        valueOf, List.foldl, addTail, minimum, hbyte]
      omega
  · rw [if_neg h2]
    by_cases h3 : c < 0x10000
    · rw [if_pos h3]
      refine ⟨2, _, _, rfl, ⟨.inr (.inl ⟨rfl, ?_⟩), rfl, ?_, ?_⟩, ?_⟩
      all_goals
        simp (disch := omega) only [List.mem_cons, List.not_mem_nil, or_false, forall_eq_or_imp,
          forall_eq, IsTail, valueOf, List.foldl, addTail, minimum, hbyte]
        omega
    · rw [if_neg h3]
      refine ⟨3, _, _, rfl, ⟨.inr (.inr ⟨rfl, ?_⟩), rfl, ?_, ?_⟩, ?_⟩
      all_goals
        simp (disch := omega) only [List.mem_cons, List.not_mem_nil, or_false, forall_eq_or_imp,
          forall_eq, IsTail, valueOf, List.foldl, addTail, minimum, hbyte]
        omega

end Mangrove.Utf8
