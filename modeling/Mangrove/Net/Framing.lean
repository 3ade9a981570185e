import Mangrove.Lib.Steps
import Mangrove.Net.Http

/-! Well-formed responses, line by line through the parser. Each of the three framings is
followed up to the last byte, and through the loop of `http_get` that feeds it. -/

namespace Mangrove.Net.Http

open Text (ascii isBlank)

open Feed

def OneLine (text : List UInt8) : Prop := 0x0d ∉ text ∧ 0x0a ∉ text

instance (text : List UInt8) : Decidable (OneLine text) := by
  unfold OneLine
  infer_instance

def crlf : List UInt8 := [0x0d, 0x0a]

/-- A header field as a server writes it. -/
structure Field where
  name : List UInt8
  value : List UInt8
deriving DecidableEq

def Field.line (f : Field) : List UInt8 := f.name ++ 0x3a :: f.value

def Field.WellFormed (f : Field) : Prop :=
  f.name ≠ [] ∧ 0x3a ∉ f.name ∧ OneLine f.name ∧ OneLine f.value

instance (f : Field) : Decidable f.WellFormed := by
  unfold Field.WellFormed
  infer_instance

def Field.isLength (f : Field) : Bool := equalText f.name "content-length"

def Field.isCoding (f : Field) : Bool := equalText f.name "transfer-encoding"

def Field.isType (f : Field) : Bool := equalText f.name "content-type"

def decimalValue (digits : List UInt8) (start : Nat) : Nat :=
  digits.foldl (fun value c => value * 10 + (c.toNat - 0x30)) start

def IsDecimal (digits : List UInt8) (n : Nat) : Prop :=
  digits ≠ [] ∧ (∀ c ∈ digits, isDigit c) ∧ decimalValue digits 0 = n

instance (digits : List UInt8) (n : Nat) : Decidable (IsDecimal digits n) := by
  unfold IsDecimal
  infer_instance

/-- The head of a response. -/
structure Head where
  major : UInt8
  minor : UInt8
  code : List UInt8
  reason : List UInt8
  fields : List Field
deriving DecidableEq

def Head.statusLine (h : Head) : List UInt8 :=
  ascii "HTTP/" ++ h.major :: 0x2e :: h.minor :: 0x20 :: (h.code ++ 0x20 :: h.reason)

def Head.text (h : Head) : List UInt8 :=
  h.statusLine ++ crlf ++ h.fields.flatMap (fun f => f.line ++ crlf) ++ crlf

def Head.WellFormed (h : Head) : Prop :=
  isDigit h.major ∧ isDigit h.minor ∧ h.code.length = 3 ∧ (∀ c ∈ h.code, isDigit c) ∧
    100 ≤ decimalValue h.code 0 ∧ OneLine h.reason ∧ ∀ f ∈ h.fields, f.WellFormed

instance (h : Head) : Decidable h.WellFormed := by
  unfold Head.WellFormed
  infer_instance

/-- The line before a chunk. -/
structure SizeLine where
  digits : List UInt8
  blanks : List UInt8
  extension : Option (List UInt8)
deriving DecidableEq

def SizeLine.line (s : SizeLine) : List UInt8 :=
  s.digits ++ s.blanks ++ (s.extension.elim [] fun text => 0x3b :: text)

def hexValue (digits : List UInt8) (start : Nat) : Nat :=
  digits.foldl (fun value c => value * 16 + (hexDigit c).getD 0) start

def SizeLine.WellFormed (s : SizeLine) (size : Nat) : Prop :=
  s.digits ≠ [] ∧ (∀ c ∈ s.digits, (hexDigit c).isSome) ∧ hexValue s.digits 0 = size ∧
    (∀ c ∈ s.blanks, isBlank c) ∧ ∀ text ∈ s.extension, OneLine text

instance (s : SizeLine) (size : Nat) : Decidable (s.WellFormed size) := by
  unfold SizeLine.WellFormed
  infer_instance

/-- A chunk with its size line. -/
structure Chunk where
  size : SizeLine
  data : List UInt8
deriving DecidableEq

def Chunk.text (c : Chunk) : List UInt8 := c.size.line ++ crlf ++ (c.data ++ crlf)

/-- How a server frames a body. -/
inductive Framing where
  | length
  | chunked (chunks : List Chunk) (last : SizeLine) (trailers : List Field)
  | close
deriving DecidableEq

def Framing.text (body : List UInt8) : Framing → List UInt8
  | .length => body
  | .chunked chunks last trailers =>
    chunks.flatMap Chunk.text ++ (last.line ++ crlf ++
      (trailers.flatMap (fun f => f.line ++ crlf) ++ crlf))
  | .close => body

def Framing.Declared (fields : List Field) (body : List UInt8) : Framing → Prop
  | .length => fields.countP Field.isLength = 1 ∧ fields.countP Field.isCoding = 0 ∧
    ∀ f ∈ fields, f.isLength → IsDecimal (trim f.value) body.length
  | .chunked chunks last trailers =>
    fields.countP Field.isLength = 0 ∧ fields.countP Field.isCoding = 1 ∧
    (∀ f ∈ fields, f.isCoding → equalText (trim f.value) "chunked") ∧
    (∀ c ∈ chunks, c.data ≠ [] ∧ c.size.WellFormed c.data.length) ∧ last.WellFormed 0 ∧
    chunks.flatMap Chunk.data = body ∧ ∀ f ∈ trailers, f.WellFormed
  | .close => fields.countP Field.isLength = 0 ∧ fields.countP Field.isCoding = 0

instance (fields : List Field) (body : List UInt8) (framing : Framing) :
    Decidable (framing.Declared fields body) := by
  cases framing <;> unfold Framing.Declared <;> infer_instance

def Field.Fits (f : Field) : Prop :=
  f.line.length < lineMax ∧ (f.isType → (trim f.value).length < contentTypeMax)

def Head.Fits (h : Head) : Prop := h.statusLine.length < lineMax ∧ ∀ f ∈ h.fields, f.Fits

def Framing.Fits : Framing → Prop
  | .length => True
  | .chunked chunks last trailers =>
    (∀ c ∈ chunks, c.size.line.length < lineMax) ∧ last.line.length < lineMax ∧
      ∀ f ∈ trailers, f.line.length < lineMax
  | .close => True

instance (f : Field) : Decidable f.Fits := by
  unfold Field.Fits
  infer_instance

instance (h : Head) : Decidable h.Fits := by
  unfold Head.Fits
  infer_instance

instance (framing : Framing) : Decidable framing.Fits := by
  cases framing <;> unfold Framing.Fits <;> infer_instance

abbrev Completed (p : Parser) : Prop := p.state = .complete

def ReadsLine (p : Parser) : Prop :=
  p.line = [] ∧
    (p.state = .status ∨ p.state = .headers ∨ p.state = .chunkSize ∨ p.state = .trailers)

lemma ReadsLine.stepByte {p : Parser} (h : ReadsLine p) (line : List UInt8) (byte : UInt8) :
    Http.stepByte { p with line := line } byte = lineByte { p with line := line } byte := by
  obtain ⟨-, hstate⟩ := h
  unfold Http.stepByte
  rcases hstate with hstate | hstate | hstate | hstate <;> simp only [hstate]

lemma ReadsLine.not_completed {p : Parser} (h : ReadsLine p) : ¬ Completed p := by
  obtain ⟨-, hstate⟩ := h
  rcases hstate with hstate | hstate | hstate | hstate <;> simp [hstate]

lemma foldlM_line {p : Parser} (hp : ReadsLine p) (data : List UInt8) (hdata : OneLine data)
    (line : List UInt8) (hline : line.length < lineMax) :
    data.foldlM stepByte { p with line := line } =
      if line.length + data.length < lineMax then some { p with line := line ++ data } else none := by
  induction data generalizing line with
  | nil =>
    rw [List.length_nil, Nat.add_zero, if_pos hline, List.append_nil]
    rfl
  | cons byte rest ih =>
    obtain ⟨hcr, hlf⟩ := hdata
    simp only [List.mem_cons, not_or] at hcr hlf
    rw [List.foldlM_cons, hp.stepByte, lineByte, if_neg (Ne.symm hcr.1), if_neg (Ne.symm hlf.1)]
    by_cases hroom : lineMax ≤ line.length + 1
    · rw [if_pos hroom, List.length_cons, if_neg (by omega)]
      rfl
    · rw [if_neg hroom]
      have hrest := ih ⟨hcr.2, hlf.2⟩ (line ++ [byte]) (by simp; omega)
      simp only [List.length_append, List.length_singleton, List.append_assoc,
        List.singleton_append] at hrest
      rw [List.length_cons, show line.length + (rest.length + 1) =
        line.length + 1 + rest.length by omega]
      exact hrest

lemma passes_line {p : Parser} (hp : ReadsLine p) {line : List UInt8} (hline : OneLine line) :
    Passes stepByte Completed p (line ++ crlf)
      (line.length < lineMax ∧ (lineComplete { p with line := line }).isSome)
      fun q => ∃ q', lineComplete { p with line := line } = some q' ∧
        q = { q' with line := [] } := by
  have hself : { p with line := [] } = p := by rw [← hp.1]
  have hfold (data : List UInt8) (hdata : OneLine data) : data.foldlM stepByte p =
      if data.length < lineMax then some { p with line := data } else none := by
    have h := foldlM_line hp data hdata [] (by simp [lineMax])
    rwa [hself, List.length_nil, Nat.zero_add, List.nil_append] at h
  have hcr : stepByte { p with line := line } 0x0d = some { p with line := line } := by
    rw [hp.stepByte, lineByte, if_pos rfl]
  have hlf : stepByte { p with line := line } 0x0a =
      (lineComplete { p with line := line }).map fun q => { q with line := [] } := by
    rw [hp.stepByte, lineByte, if_neg (by decide), if_pos rfl]
  have hopen := hp.not_completed
  constructor
  · rintro ⟨hlength, hsome⟩
    obtain ⟨q', hq'⟩ := Option.isSome_iff_exists.mp hsome
    rw [hq'] at hlf
    refine ⟨{ q' with line := [] }, ?_, q', hq', rfl⟩
    have hreach : Reaches stepByte Completed p line { p with line := line } := by
      refine ⟨by rw [hfold line hline, if_pos hlength], ?_⟩
      intro n hn
      have htake : OneLine (line.take n) := ⟨fun hmem => hline.1 (List.mem_of_mem_take hmem),
        fun hmem => hline.2 (List.mem_of_mem_take hmem)⟩
      refine ⟨{ p with line := line.take n }, ?_, hp.not_completed⟩
      rw [hfold _ htake, if_pos (by rw [List.length_take]; omega)]
    exact hreach.append ((Reaches.single hcr hopen).append (Reaches.single hlf hopen))
  · intro hnot
    rw [List.foldlM_append, hfold line hline]
    by_cases hlength : line.length < lineMax
    · rw [if_pos hlength]
      have hnone : lineComplete { p with line := line } = none := by
        rw [← Option.not_isSome_iff_eq_none]
        exact fun hsome => hnot ⟨hlength, hsome⟩
      rw [hnone] at hlf
      show List.foldlM stepByte _ [0x0d, 0x0a] = none
      rw [List.foldlM_cons, hcr]
      show List.foldlM stepByte _ [0x0a] = none
      rw [List.foldlM_cons, hlf]
      rfl
    · rw [if_neg hlength]
      rfl

lemma passes_good_line {p q : Parser} (hp : ReadsLine p) {line : List UInt8}
    (hline : OneLine line) (hq : lineComplete { p with line := line } = some q) :
    Passes stepByte Completed p (line ++ crlf) (line.length < lineMax)
      (· = { q with line := [] }) := by
  apply (passes_line hp hline).congr
  · rw [hq]
    simp
  · rintro t ⟨q', hq', rfl⟩
    rw [hq] at hq'
    rw [Option.some.inj hq']

lemma le_foldl {f : Nat → UInt8 → Nat} (h : ∀ start c, start ≤ f start c)
    (digits : List UInt8) (start : Nat) : start ≤ digits.foldl f start := by
  induction digits generalizing start with
  | nil => exact le_rfl
  | cons c rest ih => exact (h start c).trans (ih _)

lemma le_decimalValue (digits : List UInt8) (start : Nat) :
    start ≤ decimalValue digits start :=
  le_foldl (fun _ _ => by omega) digits start

/-- The decimal reader gives up before the last digit. -/
def StopsEarly (digits : List UInt8) (start : Nat) : Prop :=
  ∃ read rest, digits = read ++ rest ∧ rest ≠ [] ∧
    sizeMax / 10 < decimalValue read start % (sizeMax + 1)

variable {digits : List UInt8} {c : UInt8}

lemma stopsEarly_cons {start : Nat} :
    StopsEarly (c :: digits) start ↔ sizeMax / 10 < start % (sizeMax + 1) ∨
      StopsEarly digits (start * 10 + (c.toNat - 0x30)) := by
  constructor
  · rintro ⟨_ | ⟨_, read⟩, rest, heq, hrest, hbig⟩
    · exact .inl hbig
    · obtain ⟨rfl, htail⟩ := List.cons.inj heq
      exact .inr ⟨read, rest, htail, hrest, hbig⟩
  · rintro (hbig | ⟨read, rest, rfl, hrest, hbig⟩)
    · exact ⟨[], c :: digits, rfl, List.cons_ne_nil _ _, hbig⟩
    · exact ⟨c :: read, rest, rfl, hrest, hbig⟩

lemma not_stopsEarly (h : decimalValue digits 0 ≤ sizeMax) : ¬ StopsEarly digits 0 := by
  rintro ⟨read, _ | ⟨c, rest⟩, rfl, hrest, hbig⟩
  · exact hrest rfl
  · have hle := le_decimalValue rest (decimalValue read 0 * 10 + (c.toNat - 0x30))
    have happend : decimalValue (read ++ c :: rest) 0 =
        decimalValue rest (decimalValue read 0 * 10 + (c.toNat - 0x30)) := List.foldl_append
    rw [Nat.mod_eq_of_lt (by omega)] at hbig
    omega

lemma parseDecimalFrom_wraps (hdigits : ∀ c ∈ digits, isDigit c) (start : Nat) :
    StopsEarly digits start ∧ parseDecimalFrom digits (start % (sizeMax + 1)) = none ∨
    ¬ StopsEarly digits start ∧ parseDecimalFrom digits (start % (sizeMax + 1)) =
      some (decimalValue digits start % (sizeMax + 1)) := by
  induction digits generalizing start with
  | nil =>
    refine .inr ⟨?_, rfl⟩
    rintro ⟨read, rest, heq, hrest, -⟩
    exact hrest (List.append_eq_nil_iff.mp heq.symm).2
  | cons c digits ih =>
    rw [List.forall_mem_cons] at hdigits
    have hdigit : 0x30 ≤ c ∧ c ≤ 0x39 := by simpa [isDigit] using hdigits.1
    rw [stopsEarly_cons, parseDecimalFrom]
    by_cases hbig : sizeMax / 10 < start % (sizeMax + 1)
    · exact .inl ⟨.inl hbig, if_pos (.inr (.inr hbig))⟩
    · have hstep : (start % (sizeMax + 1) * 10 + (c.toNat - 0x30)) % (sizeMax + 1) =
          (start * 10 + (c.toNat - 0x30)) % (sizeMax + 1) := by
        rw [Nat.add_mod, Nat.mul_mod, Nat.mod_mod, ← Nat.mul_mod, ← Nat.add_mod]
      have hgood : ¬ (c < 0x30 ∨ 0x39 < c ∨ sizeMax / 10 < start % (sizeMax + 1)) := by
        simp [UInt8.not_lt.mpr hdigit.1, UInt8.not_lt.mpr hdigit.2, hbig]
      rw [if_neg hgood, hstep, or_iff_right hbig]
      exact ih hdigits.2 _

lemma parseDecimal_of_isDecimal {n : Nat} (h : IsDecimal digits n)
    (hn : n ≤ sizeMax) : parseDecimal digits = some n := by
  obtain ⟨hne, hdigits, rfl⟩ := h
  rw [parseDecimal, if_neg hne]
  rcases parseDecimalFrom_wraps hdigits 0 with ⟨hstop, -⟩ | ⟨-, hsome⟩
  · exact absurd hstop (not_stopsEarly hn)
  · rwa [Nat.zero_mod, Nat.mod_eq_of_lt (by omega)] at hsome

lemma le_hexValue (digits : List UInt8) (start : Nat) : start ≤ hexValue digits start :=
  le_foldl (fun _ _ => by omega) digits start

lemma hexDigit_lt {v : Nat} (h : hexDigit c = some v) : v < 16 := by
  have hall : ∀ c : UInt8, ∀ v ∈ hexDigit c, v < 16 := by decide +kernel
  exact hall c v h

lemma parseHexFrom_digits (hdigits : ∀ c ∈ digits, (hexDigit c).isSome)
    (rest : List UInt8) (start : Nat) (digit : Bool) (hstart : start ≤ sizeMax) :
    parseHexFrom (digits ++ rest) start digit = if hexValue digits start ≤ sizeMax then
      parseHexFrom rest (hexValue digits start) (digit || digits ≠ []) else none := by
  induction digits generalizing start digit with
  | nil =>
    rw [if_pos (show hexValue [] start ≤ sizeMax from hstart)]
    simp [hexValue]
  | cons c digits ih =>
    rw [List.forall_mem_cons] at hdigits
    obtain ⟨v, hv⟩ := Option.isSome_iff_exists.mp hdigits.1
    have hcons : hexValue (c :: digits) start = hexValue digits (start * 16 + v) := by
      simp [hexValue, hv]
    have hle := le_hexValue digits (start * 16 + v)
    have hsemi : c ≠ 0x3b := by
      rintro rfl
      cases hv
    have hlt := hexDigit_lt hv
    have hmax : 15 ≤ sizeMax := by decide
    rw [List.cons_append, parseHexFrom, if_neg hsemi, hv, hcons]
    by_cases hroom : (sizeMax - v) / 16 < start
    · have hover : ¬ hexValue digits (start * 16 + v) ≤ sizeMax := by omega
      rw [if_neg hover]
      exact if_pos hroom
    · simp only [if_neg hroom]
      rw [ih hdigits.2 _ _ (by omega)]
      simp

lemma parseHexFrom_blanks {blanks : List UInt8} (hblanks : ∀ c ∈ blanks, isBlank c)
    (rest : List UInt8) (value : Nat) (digit : Bool) :
    parseHexFrom (blanks ++ rest) value digit = parseHexFrom rest value digit := by
  induction blanks with
  | nil => rfl
  | cons c blanks ih =>
    rw [List.forall_mem_cons] at hblanks
    have hc : c = 0x20 ∨ c = 0x09 := by simpa [isBlank] using hblanks.1
    have hskip : parseHexFrom (c :: (blanks ++ rest)) value digit =
        parseHexFrom (blanks ++ rest) value digit := by
      rcases hc with rfl | rfl <;> rfl
    rw [List.cons_append, hskip, ih hblanks.2]

lemma parseHex_sizeLine {s : SizeLine} {size : Nat} (h : s.WellFormed size)
    (hsize : size ≤ sizeMax) : parseHex s.line = some size := by
  obtain ⟨hne, hdigits, rfl, hblanks, -⟩ := h
  rw [parseHex, SizeLine.line, List.append_assoc, parseHexFrom_digits hdigits _ 0 false (Nat.zero_le _),
    if_pos hsize, parseHexFrom_blanks hblanks]
  cases s.extension <;> simp [parseHexFrom, hne]

/-- A decimal number is refused or read as it is just when it fits, or when the reader gives
up on it early; a hexadecimal one always is. Every number that fits is read. -/
theorem lengths_exact_iff (digits : List UInt8) (extension : Option (List UInt8)) :
    ((∀ c ∈ digits, isDigit c) →
      ((parseDecimal digits = none ∨ parseDecimal digits = some (decimalValue digits 0)) ↔
        decimalValue digits 0 ≤ sizeMax ∨ StopsEarly digits 0) ∧
      (digits ≠ [] → decimalValue digits 0 ≤ sizeMax →
        parseDecimal digits = some (decimalValue digits 0))) ∧
    ((∀ c ∈ digits, (hexDigit c).isSome) →
      let read := parseHex (digits ++ extension.elim [] fun text => 0x3b :: text)
      (read = none ∨ read = some (hexValue digits 0)) ∧
      (digits ≠ [] → hexValue digits 0 ≤ sizeMax → read = some (hexValue digits 0))) := by
  constructor
  · intro hdigits
    have hfits (hne : digits ≠ []) (hvalue : decimalValue digits 0 ≤ sizeMax) :=
      parseDecimal_of_isDecimal ⟨hne, hdigits, rfl⟩ hvalue
    refine ⟨?_, hfits⟩
    by_cases hne : digits = []
    · subst hne
      exact iff_of_true (.inl rfl) (.inl (Nat.zero_le _))
    · by_cases hvalue : decimalValue digits 0 ≤ sizeMax
      · exact iff_of_true (.inr (hfits hne hvalue)) (.inl hvalue)
      · rw [or_iff_right hvalue, parseDecimal, if_neg hne]
        rcases parseDecimalFrom_wraps hdigits 0 with ⟨hstop, hnone⟩ | ⟨hstop, hsome⟩
        · exact iff_of_true (.inl hnone) hstop
        · refine iff_of_false ?_ hstop
          have hlt := Nat.mod_lt (decimalValue digits 0) (by omega : 0 < sizeMax + 1)
          rw [Nat.zero_mod] at hsome
          rw [hsome, or_iff_right (Option.some_ne_none _), Option.some.injEq]
          omega
  · intro hdigits
    rw [parseHex, parseHexFrom_digits hdigits _ 0 false (Nat.zero_le _)]
    by_cases hvalue : hexValue digits 0 ≤ sizeMax
    · rw [if_pos hvalue]
      by_cases hne : digits = [] <;> cases extension <;> simp [parseHexFrom, hne]
    · rw [if_neg hvalue]
      exact ⟨.inl rfl, fun _ h => absurd h hvalue⟩

/-- The decimal 1234, and 1a2b before an extension in hexadecimal. -/
theorem lengths_exact_digits : parseDecimal [0x31, 0x32, 0x33, 0x34] = some 1234 ∧
    parseHex [0x31, 0x61, 0x32, 0x62, 0x3b, 0x6e] = some 0x1a2b :=
  ⟨((lengths_exact_iff [0x31, 0x32, 0x33, 0x34] none).1 (by simp [isDigit])).2 (by simp)
      (by decide +kernel),
    ((lengths_exact_iff [0x31, 0x61, 0x32, 0x62] (some [0x6e])).2 (by decide +kernel)).2 (by simp)
      (by decide +kernel)⟩

/-- The number `2 ^ 64` is read as zero. -/
theorem length_read_as_zero : (parseHeader
      { parserInit with line := ascii "Content-Length: 18446744073709551616" }).map
        (fun p => (p.haveContentLength, p.contentLength)) = some (true, 0) ∧
    decimalValue (ascii "18446744073709551616") 0 = 18446744073709551616 := by
  decide +kernel

lemma SizeLine.WellFormed.oneLine {s : SizeLine} {size : Nat} (h : s.WellFormed size) :
    OneLine s.line := by
  obtain ⟨-, hdigits, -, hblanks, hextension⟩ := h
  have hnot (c : UInt8) (hhex : hexDigit c = none) (hblank : isBlank c = false) (hc : c ≠ 0x3b)
      (htext : ∀ text ∈ s.extension, c ∉ text) : c ∉ s.line := by
    intro hmem
    rw [SizeLine.line, List.mem_append, List.mem_append] at hmem
    rcases hmem with (hmem | hmem) | hmem
    · have hsome := hdigits c hmem
      rw [hhex] at hsome
      cases hsome
    · have hmemBlank := hblanks c hmem
      rw [hblank] at hmemBlank
      cases hmemBlank
    · cases hext : s.extension with
      | none =>
        rw [hext] at hmem
        cases hmem
      | some text =>
        rw [hext] at hmem
        rcases List.mem_cons.mp hmem with heq | hin
        · exact hc heq
        · exact htext text hext hin
  exact ⟨hnot 0x0d rfl rfl (by decide) fun text ht => (hextension text ht).1,
    hnot 0x0a rfl rfl (by decide) fun text ht => (hextension text ht).2⟩

variable {h : Head}

lemma Head.WellFormed.oneLine (hwf : h.WellFormed) : OneLine h.statusLine := by
  obtain ⟨hmajor, hminor, -, hcode, -, hreason, -⟩ := hwf
  have hnot (c : UInt8) (hdigit : isDigit c = false) (hconst : c ∉ ascii "HTTP/")
      (hdot : c ≠ 0x2e) (hblank : c ≠ 0x20) (htext : c ∉ h.reason) : c ∉ h.statusLine := by
    have hne (d : UInt8) (hd : isDigit d = true) : c ≠ d := by
      rintro rfl
      rw [hdigit] at hd
      cases hd
    have hcodeNot : c ∉ h.code := fun hmem => hne c (hcode c hmem) rfl
    simp only [Head.statusLine, List.mem_append, List.mem_cons, not_or]
    exact ⟨hconst, hne _ hmajor, hdot, hne _ hminor, hblank, hcodeNot, hblank, htext⟩
  exact ⟨hnot 0x0d rfl (by decide) (by decide) (by decide) hreason.1,
    hnot 0x0a rfl (by decide) (by decide) (by decide) hreason.2⟩

lemma parseStatus_statusLine (hwf : h.WellFormed) (p : Parser) :
    ∃ response, response.body = p.response.body ∧ response.chunked = p.response.chunked ∧
      parseStatus { p with line := h.statusLine } =
        some { p with line := h.statusLine, response := response, sawResponse := true } := by
  obtain ⟨hmajor, hminor, hlength, hcode, hlow, -, -⟩ := hwf
  obtain ⟨a, b, c, habc⟩ := List.length_eq_three.mp hlength
  have hhigh : decimalValue h.code 0 ≤ 999 := by
    have hdigit (d : UInt8) (hd : d ∈ h.code) : d.toNat ≤ 0x39 := by
      have hrange := hcode d hd
      simp only [isDigit, decide_eq_true_eq] at hrange
      exact UInt8.le_iff_toNat_le.mp hrange.2
    have ha := hdigit a (by simp [habc])
    have hb := hdigit b (by simp [habc])
    have hc := hdigit c (by simp [habc])
    simp only [habc, decimalValue, List.foldl_cons, List.foldl_nil]
    omega
  have hdecimal : parseDecimal h.code = some (decimalValue h.code 0) :=
    parseDecimal_of_isDecimal ⟨by simp [habc], hcode, rfl⟩ (by simp [sizeMax]; omega)
  have hline : h.statusLine = 0x48 :: 0x54 :: 0x54 :: 0x50 :: 0x2f :: h.major :: 0x2e ::
      h.minor :: 0x20 :: (h.code ++ 0x20 :: h.reason) := rfl
  have hdrop : (h.statusLine.drop 9).take 3 = h.code := by
    rw [hline, habc]
    rfl
  have hshape : ¬ (h.statusLine.length < 12 ∨ h.statusLine.take 5 ≠ ascii "HTTP/" ∨
      h.statusLine.getD 6 0 ≠ 0x2e ∨ h.statusLine.getD 8 0 ≠ 0x20 ∨
      isDigit (h.statusLine.getD 5 0) = false ∨ isDigit (h.statusLine.getD 7 0) = false) := by
    rw [hline]
    simp [hmajor, hminor, ascii, hlength]
  have hrange : ¬ (decimalValue h.code 0 < 100 ∨ 999 < decimalValue h.code 0) := by omega
  refine ⟨{ p.response with
    major := h.major - 0x30
    minor := h.minor - 0x30
    statusCode := UInt16.ofNat (decimalValue h.code 0) }, rfl, rfl, ?_⟩
  unfold parseStatus
  simp only [if_neg hshape, hdrop, hdecimal, if_neg hrange]
  rfl

/-- The parser has read all of the fields but `rest`, and nothing of the body. -/
structure Reading (fields : List Field) (n : Nat) (rest : List Field) (p : Parser) : Prop where
  state : p.state = .headers
  line : p.line = []
  body : p.response.body = []
  received : p.bodyReceived = 0
  seen : ∃ before, before ++ rest = fields ∧
    p.response.chunked = before.any Field.isCoding ∧
    p.haveTransferEncoding = before.any Field.isCoding ∧
    p.haveContentLength = before.any Field.isLength ∧
    (before.any Field.isLength → p.contentLength = n)

/-- What the fields say of the body: at most one length, which is `n`, and at most one coding,
which is chunked. -/
structure Telling (fields : List Field) (n : Nat) : Prop where
  small : n ≤ sizeMax
  wellFormed : ∀ f ∈ fields, f.WellFormed
  lengths : fields.countP Field.isLength ≤ 1
  codings : fields.countP Field.isCoding ≤ 1
  length : ∀ f ∈ fields, f.isLength → IsDecimal (trim f.value) n
  coding : ∀ f ∈ fields, f.isCoding → equalText (trim f.value) "chunked"

variable {f : Field}

lemma Field.WellFormed.oneLine (h : f.WellFormed) : OneLine f.line := by
  obtain ⟨-, -, hname, hvalue⟩ := h
  have hnot (c : UInt8) (hc : c ≠ 0x3a) (hn : c ∉ f.name) (hv : c ∉ f.value) : c ∉ f.line := by
    simp only [Field.line, List.mem_append, List.mem_cons, not_or]
    exact ⟨hn, hc, hv⟩
  exact ⟨hnot 0x0d (by decide) hname.1 hvalue.1, hnot 0x0a (by decide) hname.2 hvalue.2⟩

lemma equalText_unique {a : List UInt8} {s t : String} (hs : equalText a s = true)
    (hne : (ascii s).map lowerByte ≠ (ascii t).map lowerByte) : equalText a t = false := by
  rw [equalText, decide_eq_true_eq] at hs
  rw [equalText, hs, decide_eq_false_iff_not]
  exact hne

variable {fields rest : List Field} {is : Field → Bool}

lemma not_any_of_countP {before : List Field}
    (hsplit : before ++ f :: rest = fields) (hcount : fields.countP is ≤ 1) (hf : is f = true) :
    before.any is = false := by
  rw [← hsplit, List.countP_append, List.countP_cons_of_pos hf] at hcount
  have hzero : before.countP is = 0 := by omega
  rw [List.any_eq_false]
  exact List.countP_eq_zero.mp hzero

lemma any_append_singleton (before : List Field) (f : Field) (is : Field → Bool) :
    (before ++ [f]).any is = (before.any is || is f) := by
  simp

variable {n : Nat} {p : Parser}

lemma taken_of_some {c : Prop} {P : Parser → Prop} (hc : c) (h : P p) :
    ((some p).isSome = true ↔ c) ∧ ∀ q, some p = some q → P q :=
  ⟨iff_of_true rfl hc, fun _ hq => Option.some.inj hq ▸ h⟩

lemma parseHeader_field
    (htell : Telling fields n) (h : Reading fields n (f :: rest) p) :
    ((parseHeader { p with line := f.line }).isSome ↔
        (f.isType → (trim f.value).length < contentTypeMax)) ∧
      ∀ q, parseHeader { p with line := f.line } = some q →
        Reading fields n rest { q with line := [] } := by
  obtain ⟨hstate, hline, hbody, hreceived, before, hsplit, hchunked, hcoding, hhave, hlength⟩ := h
  have hmem : f ∈ fields := by simp [← hsplit]
  obtain ⟨hne, hcolon, -, -⟩ := htell.wellFormed f hmem
  have hname : f.line.takeWhile (fun c => c ≠ 0x3a) = f.name := by
    have hall : ∀ c ∈ f.name, decide (c ≠ 0x3a) = true := by
      intro c hc
      exact decide_eq_true fun heq => hcolon (heq ▸ hc)
    rw [Field.line, List.takeWhile_append_of_pos hall]
    simp
  have hvalue : f.line.drop (f.name.length + 1) = f.value := by
    simp [Field.line]
  have hgood : ¬ (f.name = [] ∨ f.name.length = f.line.length) := by
    simp [hne, Field.line]
  have hkeep : before ++ [f] ++ rest = fields := by simpa using hsplit
  unfold parseHeader
  simp only [hname, hvalue, if_neg hgood]
  have hreading (q : Parser) (hq : q.state = .headers ∧ q.response.body = [] ∧ q.bodyReceived = 0)
      (hqchunked : q.response.chunked = (before.any Field.isCoding || f.isCoding))
      (hqcoding : q.haveTransferEncoding = (before.any Field.isCoding || f.isCoding))
      (hqhave : q.haveContentLength = (before.any Field.isLength || f.isLength))
      (hqlength : before.any Field.isLength || f.isLength → q.contentLength = n) :
      Reading fields n rest { q with line := [] } := by
    refine ⟨hq.1, rfl, hq.2.1, hq.2.2, before ++ [f], hkeep, ?_⟩
    simp only [any_append_singleton]
    exact ⟨hqchunked, hqcoding, hqhave, hqlength⟩
  cases hislength : f.isLength with
  | true =>
    have hnew : p.haveContentLength = false := by
      rw [hhave]
      exact not_any_of_countP hsplit htell.lengths hislength
    have hnotcoding : f.isCoding = false := equalText_unique hislength (by decide)
    have hnottype : f.isType = false := equalText_unique hislength (by decide)
    have hdecimal := parseDecimal_of_isDecimal (htell.length f hmem hislength) htell.small
    rw [if_pos (show equalText f.name "content-length" = true from hislength)]
    simp only [hnew, hdecimal, Option.map_some, hnottype]
    refine taken_of_some nofun (hreading _ ?_ ?_ ?_ ?_ ?_)
    · exact ⟨hstate, hbody, hreceived⟩
    all_goals simp [hchunked, hcoding, hnotcoding, hislength]
  | false =>
  rw [if_neg (show ¬ equalText f.name "content-length" = true by
    rw [Bool.not_eq_true]
    exact hislength)]
  cases hiscoding : f.isCoding with
  | true =>
    have hnew : p.haveTransferEncoding = false := by
      rw [hcoding]
      exact not_any_of_countP hsplit htell.codings hiscoding
    have hnottype : f.isType = false := equalText_unique hiscoding (by decide)
    have hvalueText := htell.coding f hmem hiscoding
    have hseven : (trim f.value).length = 7 := by
      rw [equalText, decide_eq_true_eq] at hvalueText
      have hlen := congrArg List.length hvalueText
      rwa [List.length_map] at hlen
    have hchunkedText : 7 ≤ (trim f.value).length ∧
        equalText ((trim f.value).take 7) "chunked" = true := by
      rw [List.take_of_length_le hseven.le]
      exact ⟨hseven.ge, hvalueText⟩
    rw [if_pos (show equalText f.name "transfer-encoding" = true from hiscoding)]
    simp only [hnew, if_pos hchunkedText, hnottype]
    refine taken_of_some nofun (hreading _ ?_ ?_ ?_ ?_ ?_)
    · exact ⟨hstate, hbody, hreceived⟩
    · simp [hiscoding]
    · simp [hiscoding]
    · simp [hhave, hislength]
    · simpa [hislength] using hlength
  | false =>
  rw [if_neg (show ¬ equalText f.name "transfer-encoding" = true by
    rw [Bool.not_eq_true]
    exact hiscoding)]
  have hsame (response : Response) (hresponse : response.body = [] ∧
      response.chunked = p.response.chunked) :
      Reading fields n rest { p with line := [], response := response } := by
    refine hreading { p with response := response } ?_ ?_ ?_ ?_ ?_
    · exact ⟨hstate, hresponse.1, hreceived⟩
    · simp [hresponse.2, hchunked, hiscoding]
    · simp [hcoding, hiscoding]
    · simp [hhave, hislength]
    · simpa [hislength] using hlength
  by_cases hconnection : equalText f.name "connection" = true
  · have hnottype : f.isType = false := equalText_unique hconnection (by decide)
    rw [if_pos hconnection, hnottype]
    split
    all_goals exact taken_of_some nofun (hsame _ ⟨hbody, rfl⟩)
  rw [if_neg hconnection]
  cases histype : f.isType with
  | true =>
    rw [if_pos (show equalText f.name "content-type" = true from histype)]
    by_cases hlong : contentTypeMax ≤ (trim f.value).length
    · rw [if_pos hlong]
      exact ⟨by simp [hlong], nofun⟩
    · rw [if_neg hlong]
      exact taken_of_some (fun _ => Nat.lt_of_not_le hlong) (hsame _ ⟨hbody, rfl⟩)
  | false =>
    rw [if_neg (show ¬ equalText f.name "content-type" = true by
      rw [Bool.not_eq_true]
      exact histype)]
    exact taken_of_some nofun (hsame _ ⟨hbody, rfl⟩)

lemma passes_field (htell : Telling fields n) (h : Reading fields n (f :: rest) p) :
    Passes stepByte Completed p (f.line ++ crlf) f.Fits (Reading fields n rest) := by
  obtain ⟨hiff, hnext⟩ := parseHeader_field htell h
  obtain ⟨before, hsplit, -⟩ := h.seen
  have hmem : f ∈ fields := by simp [← hsplit]
  have hne : f.line ≠ [] := by simp [Field.line]
  have hcomplete : lineComplete { p with line := f.line } = parseHeader { p with line := f.line } := by
    simp only [lineComplete, h.state, if_neg hne]
  apply (passes_line ⟨h.line, .inr (.inl h.state)⟩ (htell.wellFormed f hmem).oneLine).congr
  · rw [hcomplete, hiff]
    rfl
  · rintro t ⟨q, hq, rfl⟩
    rw [hcomplete] at hq
    exact hnext q hq

/-- The parser has read the whole head. -/
structure Behind (fields : List Field) (n : Nat) (p : Parser) : Prop where
  state : p.state = if fields.any Field.isCoding then .chunkSize
    else if fields.any Field.isLength then .bodyLength else .bodyClose
  line : p.line = []
  body : p.response.body = []
  received : p.bodyReceived = 0
  length : fields.any Field.isLength → p.contentLength = n

lemma passes_head (hwf : h.WellFormed) (htell : Telling h.fields n) :
    Passes stepByte Completed parserInit h.text h.Fits (Behind h.fields n) := by
  obtain ⟨response, hbody, hchunked, hparse⟩ :=
    parseStatus_statusLine hwf { parserInit with state := .headers }
  have hstatus := @passes_good_line parserInit _ ⟨rfl, .inl rfl⟩ _ hwf.oneLine hparse
  have hfields : ∀ q, Reading h.fields n h.fields q →
      Passes stepByte Completed q (h.fields.flatMap fun f => f.line ++ crlf)
        (∀ f ∈ h.fields, f.Fits) (Reading h.fields n []) :=
    fun q hq => Passes.flatMap (fun f rest p => passes_field htell) hq
  have hblank : ∀ q, Reading h.fields n [] q →
      Passes stepByte Completed q crlf True (Behind h.fields n) := by
    intro q hq
    obtain ⟨hstate, hline, hqbody, hreceived, before, hsplit, hqchunked, -, hhave, hlength⟩ := hq
    rw [List.append_nil] at hsplit
    subst hsplit
    have hempty : OneLine [] := by decide
    have hcomplete : lineComplete { q with line := [] } = some { q with
        line := []
        state := if q.response.chunked then .chunkSize
          else if q.haveContentLength then .bodyLength else .bodyClose } := by
      simp only [lineComplete, hstate, if_true]
    apply (passes_good_line ⟨hline, .inr (.inl hstate)⟩ hempty hcomplete).congr
    · simp [lineMax]
    · rintro t rfl
      exact ⟨by simp only [hqchunked, hhave], rfl, hqbody, hreceived, hlength⟩
  have hall := (hstatus.append fun q hq => hfields q (by
    subst hq
    exact ⟨rfl, rfl, hbody, rfl, [], rfl, hchunked, rfl, rfl, nofun⟩)).append hblank
  exact hall.congr (by simp [Head.Fits]) fun _ => id

lemma reaches_grow {grow : List UInt8 → Parser} {limit room : Nat} {data : List UInt8}
    (hstep : ∀ d byte, d.length < limit → stepByte (grow d) byte =
      if d.length < room then some (grow (d ++ [byte])) else none)
    (hlimit : data.length ≤ limit) (hroom : data.length ≤ room)
    (hopen : ∀ d, d.length < data.length → ¬ Completed (grow d)) :
    Reaches stepByte Completed (grow []) data (grow data) := by
  have hfold (d : List UInt8) (hd : d.length ≤ data.length) :
      d.foldlM stepByte (grow []) = some (grow d) := by
    have h := foldlM_grow hstep d [] (by simp; omega) (Nat.zero_le _)
    rw [List.length_nil, Nat.zero_add, List.nil_append, if_pos (by omega)] at h
    exact h
  refine ⟨hfold data le_rfl, ?_⟩
  intro n hn
  have htake := List.length_take_of_le hn.le
  exact ⟨grow (data.take n), hfold _ (by omega), hopen _ (by omega)⟩

section

variable {p : Parser} {data : List UInt8}

lemma reaches_length (hstate : p.state = .bodyLength)
    (hlength : p.contentLength = p.bodyReceived + data.length) (hne : data ≠ [])
    (hroom : data.length ≤ bodyMax - p.response.body.length) :
    Reaches stepByte Completed p data (growLength p data) := by
  have hpos := List.length_pos_iff.mpr hne
  have hreach := @reaches_grow (growLength p) (p.contentLength - p.bodyReceived) _ data
    (fun d byte => stepByte_growLength hstate) (by omega) hroom (by
      intro d hd
      simp only [growLength, Completed, hstate]
      rw [if_neg (by omega)]
      exact ParseState.noConfusion)
  rwa [growLength_nil (by omega)] at hreach

lemma reaches_close (hstate : p.state = .bodyClose)
    (hroom : data.length ≤ bodyMax - p.response.body.length) :
    Reaches stepByte Completed p data (growClose p data) := by
  have hreach := @reaches_grow (growClose p) data.length _ data
    (fun d byte _ => stepByte_growClose hstate) le_rfl hroom (by
      intro d hd
      simp [growClose, hstate])
  rwa [show growClose p [] = p by simp [growClose]] at hreach

lemma reaches_chunk (hstate : p.state = .chunkData) (hsize : p.chunkRemaining = data.length)
    (hne : data ≠ []) (hroom : data.length ≤ bodyMax - p.response.body.length) :
    Reaches stepByte Completed p data (growChunk p data) := by
  have hpos := List.length_pos_iff.mpr hne
  have hreach := @reaches_grow (growChunk p) p.chunkRemaining _ data
    (fun d byte => stepByte_growChunk hstate) hsize.ge hroom (by
      intro d hd
      simp only [growChunk, Completed, hstate]
      split <;> exact ParseState.noConfusion)
  rwa [growChunk_nil (by omega)] at hreach

lemma reaches_crlf (hstate : p.state = .chunkCrlf) (hcrlf : p.crlf = 0) :
    Reaches stepByte Completed p crlf { p with crlf := 2, state := .chunkSize } := by
  have hcr : stepByte p 0x0d = some { p with crlf := 1 } := by
    simp [stepByte, crlfByte, hstate, hcrlf]
  have hlf : stepByte { p with crlf := 1 } 0x0a =
      some { p with crlf := 2, state := .chunkSize } := by
    simp [stepByte, crlfByte, hstate]
  exact (Reaches.single hcr (by simp [hstate])).append (Reaches.single hlf (by simp [hstate]))

end

/-- The parser stands before the chunks `rest`, with the body read up to them. -/
structure Chunking (body : List UInt8) (rest : List Chunk) (p : Parser) : Prop where
  state : p.state = .chunkSize
  line : p.line = []
  body : p.response.body ++ rest.flatMap Chunk.data = body

def openChunk (p : Parser) (size : Nat) : Parser :=
  { p with line := [], chunkRemaining := size, state := .chunkData }

variable {body : List UInt8} {p : Parser}

lemma passes_chunk {c : Chunk} {rest : List Chunk}
    (hbody : body.length ≤ bodyMax) (hc : c.data ≠ [] ∧ c.size.WellFormed c.data.length)
    (h : Chunking body (c :: rest) p) :
    Passes stepByte Completed p c.text (c.size.line.length < lineMax) (Chunking body rest) := by
  obtain ⟨hne, hsize⟩ := hc
  have hlengths : p.response.body.length + c.data.length ≤ bodyMax := by
    have hall := congrArg List.length h.body
    rw [List.flatMap_cons, List.length_append, List.length_append] at hall
    omega
  have hparse : parseHex c.size.line = some c.data.length :=
    parseHex_sizeLine hsize (by simp only [bodyMax, sizeMax] at hlengths ⊢; omega)
  have hcomplete : lineComplete { p with line := c.size.line } = some { p with
      line := c.size.line
      chunkRemaining := c.data.length
      state := .chunkData } := by
    simp [lineComplete, h.state, hparse, hne]
  have hline := passes_good_line ⟨h.line, .inr (.inr (.inl h.state))⟩ hsize.oneLine hcomplete
  have hafter : ∀ q, q = openChunk p c.data.length →
      Passes stepByte Completed q (c.data ++ crlf) True (Chunking body rest) := by
    rintro q rfl
    have hdata := @reaches_chunk (openChunk p c.data.length) c.data rfl rfl hne
      (by dsimp only [openChunk]; omega)
    have hend := @reaches_crlf (growChunk (openChunk p c.data.length) c.data)
      (by simp [growChunk, openChunk]) (by simp [growChunk, openChunk])
    refine Passes.of_reaches (hdata.append hend) ⟨rfl, rfl, ?_⟩
    rw [← h.body, List.flatMap_cons, ← List.append_assoc]
    rfl
  exact (hline.append hafter).congr (by simp) fun _ => id

/-- The parser is behind the last chunk. -/
structure Trailing (body : List UInt8) (p : Parser) : Prop where
  state : p.state = .trailers
  line : p.line = []
  body : p.response.body = body

lemma Trailing.passes_line {body line : List UInt8} {p : Parser} (h : Trailing body p)
    (hline : OneLine line) :
    Passes stepByte Completed p (line ++ crlf) (line.length < lineMax) fun q =>
      q.response.body = body ∧ q.line = [] ∧
        q.state = if line = [] then .complete else .trailers := by
  have hcomplete : lineComplete { p with line := line } = some { p with
      line := line
      state := if line = [] then .complete else .trailers } := by
    by_cases hempty : line = [] <;> simp [lineComplete, h.state, hempty]
  apply (passes_good_line ⟨h.line, .inr (.inr (.inr h.state))⟩ hline hcomplete).congr Iff.rfl
  rintro q rfl
  exact ⟨h.body, rfl, rfl⟩

lemma passes_chunks {chunks : List Chunk} {last : SizeLine}
    {trailers : List Field} (hbody : body.length ≤ bodyMax)
    (hchunks : ∀ c ∈ chunks, c.data ≠ [] ∧ c.size.WellFormed c.data.length)
    (hlast : last.WellFormed 0) (htrailers : ∀ f ∈ trailers, f.WellFormed)
    (h : Chunking body chunks p) :
    Passes stepByte Completed p (Framing.text body (.chunked chunks last trailers))
      (Framing.Fits (.chunked chunks last trailers))
      fun q => q.response.body = body ∧ q.state = .complete := by
  have hdata : Passes stepByte Completed p (chunks.flatMap Chunk.text)
      (∀ c ∈ chunks, c.size.line.length < lineMax) (Chunking body []) := by
    have hall := @Passes.flatMap _ _ _ stepByte Completed
      (fun rest q => (∀ c ∈ rest, c ∈ chunks) ∧ Chunking body rest q) Chunk.text
      (fun c => c.size.line.length < lineMax) (by
        rintro c rest q ⟨hmem, hq⟩
        rw [List.forall_mem_cons] at hmem
        exact (passes_chunk hbody (hchunks c hmem.1) hq).congr Iff.rfl fun _ ht => ⟨hmem.2, ht⟩)
      chunks p ⟨fun _ => id, h⟩
    exact hall.congr Iff.rfl fun _ => And.right
  have hzero : ∀ q, Chunking body [] q → Passes stepByte Completed q (last.line ++ crlf)
      (last.line.length < lineMax) (Trailing body) := by
    intro q hq
    have hparse := parseHex_sizeLine hlast (Nat.zero_le _)
    have hcomplete : lineComplete { q with line := last.line } = some { q with
        line := last.line
        chunkRemaining := 0
        state := .trailers } := by
      simp [lineComplete, hq.state, hparse]
    apply (passes_good_line ⟨hq.line, .inr (.inr (.inl hq.state))⟩ hlast.oneLine hcomplete).congr
      Iff.rfl
    rintro t rfl
    have hqbody := hq.body
    rw [List.flatMap_nil, List.append_nil] at hqbody
    exact ⟨rfl, rfl, hqbody⟩
  have hfields : ∀ q, Trailing body q → Passes stepByte Completed q
      (trailers.flatMap fun f => f.line ++ crlf) (∀ f ∈ trailers, f.line.length < lineMax)
      (Trailing body) := by
    intro q hq
    have hall := @Passes.flatMap _ _ _ stepByte Completed
      (fun rest q => (∀ f ∈ rest, f ∈ trailers) ∧ Trailing body q) (fun f => f.line ++ crlf)
      (fun f => f.line.length < lineMax) (by
        rintro f rest q ⟨hmem, hq⟩
        rw [List.forall_mem_cons] at hmem
        have hne : f.line ≠ [] := by simp [Field.line]
        apply (hq.passes_line (htrailers f hmem.1).oneLine).congr Iff.rfl
        rintro t ⟨htbody, htline, htstate⟩
        rw [if_neg hne] at htstate
        exact ⟨hmem.2, htstate, htline, htbody⟩)
      trailers q ⟨fun _ => id, hq⟩
    exact hall.congr Iff.rfl fun _ => And.right
  have hend : ∀ q, Trailing body q → Passes stepByte Completed q crlf True
      fun t => t.response.body = body ∧ t.state = .complete := by
    intro q hq
    apply (@Trailing.passes_line body [] q hq (by decide)).congr (by simp [lineMax])
    rintro t ⟨htbody, -, htstate⟩
    exact ⟨htbody, htstate⟩
  exact (hdata.append fun q hq => (hzero q hq).append fun r hr =>
    (hfields r hr).append hend).congr (by simp [Framing.Fits]) fun _ => id

def Framing.final (body : List UInt8) : Framing → ParseState
  | .length => if body = [] then .bodyLength else .complete
  | .chunked _ _ _ => .complete
  | .close => .bodyClose

variable {framing : Framing} {fields : List Field}

lemma Framing.Declared.telling
    (h : framing.Declared fields body) (hwf : ∀ f ∈ fields, f.WellFormed)
    (hbody : body.length ≤ bodyMax) : Telling fields body.length := by
  have hsmall : body.length ≤ sizeMax := by
    simp only [bodyMax, sizeMax] at hbody ⊢
    omega
  have hnone {is : Field → Bool} (hcount : fields.countP is = 0) {P : Field → Prop} :
      ∀ f ∈ fields, is f → P f :=
    fun f hf his => absurd his (List.countP_eq_zero.mp hcount f hf)
  cases framing with
  | length =>
    obtain ⟨hlengths, hcodings, hlength⟩ := h
    exact ⟨hsmall, hwf, hlengths.le, hcodings.le.trans (by omega), hlength, hnone hcodings⟩
  | chunked chunks last trailers =>
    obtain ⟨hlengths, hcodings, hcoding, -⟩ := h
    exact ⟨hsmall, hwf, hlengths.le.trans (by omega), hcodings.le, hnone hlengths, hcoding⟩
  | close =>
    obtain ⟨hlengths, hcodings⟩ := h
    exact ⟨hsmall, hwf, hlengths.le.trans (by omega), hcodings.le.trans (by omega),
      hnone hlengths, hnone hcodings⟩

lemma any_of_countP : fields.any is = decide (fields.countP is ≠ 0) := by
  rw [Bool.eq_iff_iff, decide_eq_true_eq, List.any_eq_true, ← Nat.pos_iff_ne_zero,
    List.countP_pos_iff]

lemma passes_response {h : Head} (hwf : h.WellFormed)
    (hdeclared : framing.Declared h.fields body) (hbody : body.length ≤ bodyMax) :
    Passes stepByte Completed parserInit (h.text ++ framing.text body) (h.Fits ∧ framing.Fits)
      fun q => q.response.body = body ∧ q.state = framing.final body := by
  apply (passes_head hwf (hdeclared.telling hwf.2.2.2.2.2.2 hbody)).append
  rintro p ⟨hstate, hline, hempty, hreceived, hlength⟩
  have hroom : body.length ≤ bodyMax - p.response.body.length := by
    rw [hempty, List.length_nil]
    omega
  rw [any_of_countP, any_of_countP] at hstate
  rw [any_of_countP] at hlength
  cases framing with
  | length =>
    obtain ⟨hlengths, hcodings, -⟩ := hdeclared
    simp only [hlengths, hcodings] at hstate hlength
    by_cases hne : body = []
    · subst hne
      exact Passes.of_reaches (Reaches.nil p) ⟨hempty, hstate⟩
    · have hdone : p.contentLength = p.bodyReceived + body.length := by
        rw [hlength rfl, hreceived, Nat.zero_add]
      refine Passes.of_reaches (reaches_length hstate hdone hne hroom) ⟨?_, ?_⟩
      · simp [growLength, hempty, Framing.text]
      · simp [growLength, hdone, Framing.final, Framing.text, hne]
  | chunked chunks last trailers =>
    obtain ⟨-, hcodings, -, hchunks, hlast, hdata, htrailers⟩ := hdeclared
    simp only [hcodings] at hstate
    exact passes_chunks hbody hchunks hlast htrailers ⟨hstate, hline, by rw [hempty, hdata]; rfl⟩
  | close =>
    obtain ⟨hlengths, hcodings⟩ := hdeclared
    simp only [hlengths, hcodings] at hstate
    refine Passes.of_reaches (reaches_close hstate hroom) ⟨?_, hstate⟩
    simp [growClose, hempty, Framing.text]

/-- What one round of the client loop receives, and whether the peer has closed. -/
structure Round where
  received : List UInt8
  closeWait : Bool
deriving DecidableEq

inductive Result where
  | success
  | timeout
  | malformed
  | tooLarge
deriving DecidableEq

def receiveResponse (p : Parser) : List Round → Result × Parser
  | [] => (if parserComplete p then .success else .timeout, p)
  | round :: rounds =>
    if parserComplete p then (.success, p)
    else if round.received ≠ [] then
      match parserFeed p round.received with
      | (false, p) => (if bodyMax ≤ p.response.body.length then .tooLarge else .malformed, p)
      | (true, p) => receiveResponse p rounds
    else if round.closeWait then
      match parserFinish p with
      | (false, p) => (.malformed, p)
      | (true, p) => receiveResponse p rounds
    else receiveResponse p rounds

lemma receiveResponse_complete (h : p.state = .complete) (rounds : List Round) :
    receiveResponse p rounds = (.success, p) := by
  cases rounds <;> simp [receiveResponse, parserComplete, h]

lemma receiveResponse_append {p q : Parser} {rounds : List Round} (hp : p.state ≠ .error)
    (hrounds : ∀ r ∈ rounds, r.received = [] → r.closeWait = false)
    (h : (rounds.flatMap Round.received).foldlM stepByte p = some q) (later : List Round) :
    receiveResponse p (rounds ++ later) = receiveResponse q later := by
  induction rounds generalizing p with
  | nil =>
    obtain rfl := Option.some.inj h
    rfl
  | cons round rounds ih =>
    rw [List.forall_mem_cons] at hrounds
    by_cases hcomplete : p.state = .complete
    · rw [foldlM_complete hcomplete] at h
      obtain rfl := Option.some.inj h
      rw [receiveResponse_complete hcomplete, receiveResponse_complete hcomplete]
    rw [List.flatMap_cons, List.foldlM_append] at h
    obtain ⟨p', hfeed, hrest⟩ := Option.bind_eq_some_iff.mp h
    have hopen : ¬ parserComplete p = true := by simp [parserComplete, hcomplete]
    rw [List.cons_append, receiveResponse, if_neg hopen]
    by_cases hempty : round.received = []
    · rw [hempty] at hfeed
      obtain rfl := Option.some.inj hfeed
      rw [if_neg (not_not.mpr hempty), hrounds.1 hempty]
      exact ih hp hrounds.2 hrest
    · have hout : outcome (parserFeed p round.received) = some p' := by
        rw [parserFeed, if_neg hp, feedFrom_eq _ hp, hfeed]
      rw [if_pos hempty]
      cases hresult : parserFeed p round.received with
      | mk ok r =>
        rw [hresult] at hout
        cases ok with
        | false => cases hout
        | true =>
          obtain rfl := Option.some.inj hout
          exact ih (foldlM_stepByte_state _ hp hfeed) hrounds.2 hrest

/-- The response is complete at its last byte and not before, however it is cut
into pieces, and the loop returns its body. Where nothing tells the length, the
end is when the peer closes. -/
structure Delivers (h : Head) (framing : Framing) (body : List UInt8) : Prop where
  early : ∀ pieces : List (List UInt8), pieces.flatten <+: h.text ++ framing.text body →
    pieces.flatten ≠ h.text ++ framing.text body →
    ∃ p, feedAll parserInit pieces = some p ∧ parserComplete p = false
  last : ∀ pieces : List (List UInt8), pieces.flatten = h.text ++ framing.text body →
    ∃ p, feedAll parserInit pieces = some p ∧
      if framing = .close then
        parserComplete p = false ∧ (parserFinish p).1 ∧ parserComplete (parserFinish p).2 ∧
          (parserFinish p).2.response.body = body
      else parserComplete p ∧ p.response.body = body
  returned : ∀ rounds later : List Round,
    rounds.flatMap Round.received = h.text ++ framing.text body →
    (∀ r ∈ rounds, r.received = [] → r.closeWait = false) →
    ∃ p, receiveResponse parserInit
        (rounds ++ (if framing = .close then [⟨[], true⟩] else []) ++ later) = (.success, p) ∧
      p.response.body = body

lemma delivers_of_reaches {h : Head} {body : List UInt8} {q : Parser}
    (hreach : Reaches stepByte Completed parserInit (h.text ++ framing.text body) q)
    (hbody : q.response.body = body)
    (hstate : q.state = if framing = .close then .bodyClose else .complete) :
    Delivers h framing body := by
  have hinit : parserInit.state ≠ .error := ParseState.noConfusion
  constructor
  · intro pieces hprefix hne
    obtain ⟨rest, hrest⟩ := hprefix
    have hlt : pieces.flatten.length < (h.text ++ framing.text body).length := by
      rw [← hrest, List.length_append, Nat.lt_add_right_iff_pos, List.length_pos_iff]
      rintro rfl
      exact hne (by rw [← hrest, List.append_nil])
    obtain ⟨p, hfold, hopen⟩ := hreach.2 _ hlt
    rw [← hrest, List.take_left] at hfold
    refine ⟨p, by rw [feedAll_eq pieces hinit, hfold], ?_⟩
    simpa [parserComplete] using hopen
  · intro pieces hall
    refine ⟨q, by rw [feedAll_eq pieces hinit, hall, hreach.1], ?_⟩
    split at hstate
    · next hclose =>
      rw [if_pos hclose]
      simp [parserComplete, parserFinish, hstate, hbody]
    · next hclose =>
      rw [if_neg hclose]
      simp [parserComplete, hstate, hbody]
  · intro rounds later hall hrounds
    have hfold := hreach.1
    rw [← hall] at hfold
    rw [List.append_assoc, receiveResponse_append hinit hrounds hfold]
    split at hstate
    · next hclose =>
      rw [if_pos hclose]
      refine ⟨{ q with state := .complete }, ?_, hbody⟩
      have hround : receiveResponse q (⟨[], true⟩ :: later) =
          receiveResponse { q with state := .complete } later := by
        simp [receiveResponse, parserComplete, parserFinish, hstate]
      exact hround.trans (receiveResponse_complete rfl later)
    · next hclose =>
      rw [if_neg hclose]
      exact ⟨q, receiveResponse_complete hstate _, hbody⟩

/-- A response is delivered exactly if its lines fit into the parser and it does
not announce a body of no bytes. -/
theorem delivers_iff {h : Head} {framing : Framing} {body : List UInt8} (hwf : h.WellFormed)
    (hdeclared : framing.Declared h.fields body) (hbody : body.length ≤ bodyMax) :
    Delivers h framing body ↔ (h.Fits ∧ framing.Fits) ∧ (framing = .length → body ≠ []) := by
  have hinit : parserInit.state ≠ .error := ParseState.noConfusion
  have hpass := passes_response hwf hdeclared hbody
  constructor
  · intro hdelivers
    obtain ⟨p, hfeed, hlast⟩ := hdelivers.last [h.text ++ framing.text body] (by simp)
    rw [feedAll_eq _ hinit, List.flatten_singleton] at hfeed
    have hfits : h.Fits ∧ framing.Fits := by
      by_contra hnot
      rw [hpass.2 hnot] at hfeed
      cases hfeed
    refine ⟨hfits, ?_⟩
    rintro rfl rfl
    obtain ⟨q, hreach, -, hstate⟩ := hpass.1 hfits
    rw [hreach.1] at hfeed
    obtain rfl := Option.some.inj hfeed
    simp [parserComplete, hstate, Framing.final] at hlast
  · rintro ⟨hfits, hne⟩
    obtain ⟨q, hreach, hqbody, hstate⟩ := hpass.1 hfits
    apply delivers_of_reaches hreach hqbody
    rw [hstate]
    cases framing with
    | length => simp [Framing.final, hne rfl]
    | chunked | close => simp [Framing.final]

def greetingHead (length : String) : Head where
  major := 0x31
  minor := 0x31
  code := ascii "200"
  reason := ascii "OK"
  fields := [⟨ascii "Content-Length", ascii length⟩]

/-- Five bytes with their length. -/
theorem delivers_hello : Delivers (greetingHead " 5") .length (ascii "hello") :=
  (delivers_iff (by decide +kernel) (by decide +kernel) (by decide +kernel)).mpr
    (by decide +kernel)

/-- A response without a body is never complete: when the peer closes it counts
as malformed, and until then the loop waits. -/
theorem empty_body_not_delivered :
    (greetingHead " 0").WellFormed ∧ Framing.Declared (greetingHead " 0").fields [] .length ∧
      (greetingHead " 0").Fits ∧ ¬ Delivers (greetingHead " 0") .length [] ∧
      (receiveResponse parserInit [⟨(greetingHead " 0").text, false⟩]).1 = .timeout ∧
      (receiveResponse parserInit [⟨(greetingHead " 0").text, false⟩, ⟨[], true⟩]).1 =
        .malformed := by
  have hstate : ((greetingHead " 0").text.foldlM stepByte parserInit).map Parser.state =
      some .bodyLength := by decide +kernel
  obtain ⟨q, hfold, hq⟩ := Option.map_eq_some_iff.mp hstate
  have hinit : parserInit.state ≠ .error := ParseState.noConfusion
  have hloop := @receiveResponse_append parserInit q [⟨(greetingHead " 0").text, false⟩] hinit
    (by simp) (by simpa using hfold)
  refine ⟨by decide +kernel, by decide +kernel, by decide +kernel, ?_, ?_, ?_⟩
  · intro hdelivers
    obtain ⟨p, hfeed, hlast⟩ := hdelivers.last [(greetingHead " 0").text] rfl
    rw [feedAll_eq _ hinit, List.flatten_singleton, hfold] at hfeed
    obtain rfl := Option.some.inj hfeed
    simp [parserComplete, hq] at hlast
  · have hend := hloop []
    rw [List.append_nil] at hend
    rw [hend]
    simp [receiveResponse, parserComplete, hq]
  · have hend := hloop [⟨[], true⟩]
    rw [List.singleton_append] at hend
    rw [hend]
    simp [receiveResponse, parserComplete, parserFinish, hq]

end Mangrove.Net.Http
