import Mangrove.Lib.Text

/-! The parser of HTTP responses. It copies bodies and chunks as a whole, and is shown to
do the same as the parser that takes single bytes only. -/

namespace Mangrove.Net.Http

open Text (ascii isBlank)

/-- Where the response parser is. -/
inductive ParseState where
  | status
  | headers
  | bodyLength
  | bodyClose
  | chunkSize
  | chunkData
  | chunkCrlf
  | trailers
  | complete
  | error
deriving DecidableEq

/-- What the parser has found out about a response. -/
structure Response where
  major : UInt8
  minor : UInt8
  statusCode : UInt16
  body : List UInt8
  contentType : List UInt8
  chunked : Bool
  connectionClose : Bool
deriving DecidableEq

/-- The line is the part of the buffer that `line_length` covers. -/
structure Parser where
  response : Response
  state : ParseState
  line : List UInt8
  contentLength : Nat
  bodyReceived : Nat
  chunkRemaining : Nat
  haveContentLength : Bool
  haveTransferEncoding : Bool
  sawResponse : Bool
  crlf : Nat
deriving DecidableEq

def bodyMax : Nat := 32768

def contentTypeMax : Nat := 96

def lineMax : Nat := 1024

def sizeMax : Nat := 2 ^ 64 - 1

def lowerByte (c : UInt8) : UInt8 := if 0x41 ≤ c ∧ c ≤ 0x5a then c + 0x20 else c

def equalText (a : List UInt8) (b : String) : Bool := a.map lowerByte = (ascii b).map lowerByte

def trim (text : List UInt8) : List UInt8 := (text.dropWhile isBlank).reverse.dropWhile isBlank |>.reverse

/-- The test for overflow leaves out the last digit, so the value may wrap. -/
def parseDecimalFrom : List UInt8 → Nat → Option Nat
  | [], result => some result
  | c :: rest, result =>
    if c < 0x30 ∨ 0x39 < c ∨ sizeMax / 10 < result then none
    else parseDecimalFrom rest ((result * 10 + (c.toNat - 0x30)) % (sizeMax + 1))

def parseDecimal (text : List UInt8) : Option Nat :=
  if text = [] then none else parseDecimalFrom text 0

def hexDigit (c : UInt8) : Option Nat := (Text.hexDigit c).map UInt8.toNat

def parseHexFrom : List UInt8 → Nat → Bool → Option Nat
  | [], result, digit => if digit then some result else none
  | c :: rest, result, digit =>
    if c = 0x3b then if digit then some result else none
    else match hexDigit c with
      | some v =>
        if (sizeMax - v) / 16 < result then none else parseHexFrom rest (result * 16 + v) true
      | none => if isBlank c then parseHexFrom rest result digit else none

def parseHex (text : List UInt8) : Option Nat := parseHexFrom text 0 false

def isDigit (c : UInt8) : Bool := 0x30 ≤ c ∧ c ≤ 0x39

def parseStatus (p : Parser) : Option Parser :=
  let at' (i : Nat) : UInt8 := p.line.getD i 0
  if p.line.length < 12 ∨ p.line.take 5 ≠ ascii "HTTP/" ∨ at' 6 ≠ 0x2e ∨ at' 8 ≠ 0x20 ∨
      isDigit (at' 5) = false ∨ isDigit (at' 7) = false then none
  else match parseDecimal ((p.line.drop 9).take 3) with
    | none => none
    | some code =>
      if code < 100 ∨ 999 < code then none
      else some { p with
        response := { p.response with
          major := at' 5 - 0x30
          minor := at' 7 - 0x30
          statusCode := UInt16.ofNat code }
        sawResponse := true }

def parseHeader (p : Parser) : Option Parser :=
  let name := p.line.takeWhile fun c => c ≠ 0x3a
  let value := trim (p.line.drop (name.length + 1))
  if name = [] ∨ name.length = p.line.length then none
  else if equalText name "content-length" then
    if p.haveContentLength then none
    else (parseDecimal value).map fun length =>
      { p with haveContentLength := true, contentLength := length }
  else if equalText name "transfer-encoding" then
    if p.haveTransferEncoding then none
    else if 7 ≤ value.length ∧ equalText (value.take 7) "chunked" then
      some { p with haveTransferEncoding := true, response := { p.response with chunked := true } }
    else none
  else if equalText name "connection" then
    if 5 ≤ value.length ∧ equalText (value.take 5) "close" then
      some { p with response := { p.response with connectionClose := true } }
    else some p
  else if equalText name "content-type" then
    if contentTypeMax ≤ value.length then none
    else some { p with response := { p.response with contentType := value } }
  else some p

def lineComplete (p : Parser) : Option Parser :=
  match p.state with
  | .status => parseStatus { p with state := .headers }
  | .headers =>
    if p.line = [] then
      some { p with state :=
        if p.response.chunked then .chunkSize
        else if p.haveContentLength then .bodyLength
        else .bodyClose }
    else parseHeader p
  | .chunkSize =>
    (parseHex p.line).map fun size =>
      { p with chunkRemaining := size, state := if size ≠ 0 then .chunkData else .trailers }
  | .trailers => some (if p.line = [] then { p with state := .complete } else p)
  | _ => none

def appendBody (p : Parser) (data : List UInt8) : Option Parser :=
  if bodyMax - p.response.body.length < data.length then none
  else some { p with response := { p.response with body := p.response.body ++ data } }

def fail (p : Parser) : Bool × Parser := (false, { p with state := .error })

def lineByte (p : Parser) (byte : UInt8) : Option Parser :=
  if byte = 0x0d then some p
  else if byte = 0x0a then (lineComplete p).map fun p => { p with line := [] }
  else if lineMax ≤ p.line.length + 1 then none
  else some { p with line := p.line ++ [byte] }

def crlfByte (p : Parser) (byte : UInt8) : Option Parser :=
  if (p.crlf = 0 ∧ byte ≠ 0x0d) ∨ (p.crlf = 1 ∧ byte ≠ 0x0a) then none
  else some { p with
    crlf := p.crlf + 1
    state := if p.crlf + 1 = 2 then .chunkSize else p.state }

/-- The loop of `http_parser_feed` over the rest of the input. -/
def feedFrom (p : Parser) : List UInt8 → Bool × Parser
  | [] => (true, p)
  | byte :: rest =>
    match p.state with
    | .error => (false, p)
    | .complete => (true, p)
    | .bodyLength =>
      let take := min (rest.length + 1) (p.contentLength - p.bodyReceived)
      match appendBody p ((byte :: rest).take take) with
      | none => fail p
      | some p =>
        feedFrom { p with
          bodyReceived := p.bodyReceived + take
          state := if p.bodyReceived + take = p.contentLength then .complete else p.state }
          (rest.drop (take - 1))
    | .bodyClose =>
      match appendBody p (byte :: rest) with
      | none => fail p
      | some p => (true, { p with bodyReceived := p.bodyReceived + (rest.length + 1) })
    | .chunkData =>
      let take := min (rest.length + 1) p.chunkRemaining
      match appendBody p ((byte :: rest).take take) with
      | none => fail p
      | some p =>
        feedFrom { p with
          chunkRemaining := p.chunkRemaining - take
          state := if p.chunkRemaining - take = 0 then .chunkCrlf else p.state
          crlf := if p.chunkRemaining - take = 0 then 0 else p.crlf }
          (rest.drop (take - 1))
    | .chunkCrlf =>
      match crlfByte p byte with
      | none => fail p
      | some p => feedFrom p rest
    | _ =>
      match lineByte p byte with
      | none => fail p
      | some p => feedFrom p rest
termination_by data => data.length
decreasing_by all_goals simp only [List.length_cons, List.length_drop]; omega

def parserFeed (p : Parser) (data : List UInt8) : Bool × Parser :=
  if p.state = .error then (false, p) else feedFrom p data

def parserInit : Parser where
  response := ⟨0, 0, 0, [], [], false, false⟩
  state := .status
  line := []
  contentLength := 0
  bodyReceived := 0
  chunkRemaining := 0
  haveContentLength := false
  haveTransferEncoding := false
  sawResponse := false
  crlf := 0

def parserFinish (p : Parser) : Bool × Parser :=
  if p.state = .error then (false, p)
  else if p.state = .bodyClose then (true, { p with state := .complete })
  else (p.state = .complete, p)

def parserComplete (p : Parser) : Bool := p.state = .complete

def feedAll (p : Parser) : List (List UInt8) → Option Parser
  | [] => some p
  | piece :: rest =>
    match parserFeed p piece with
    | (true, p) => feedAll p rest
    | (false, _) => none

def stepByte (p : Parser) (byte : UInt8) : Option Parser :=
  match p.state with
  | .error => none
  | .complete => some p
  | .bodyLength =>
    if p.contentLength - p.bodyReceived = 0 then
      some { p with state := if p.bodyReceived = p.contentLength then .complete else p.state }
    else (appendBody p [byte]).map fun p =>
      { p with
        bodyReceived := p.bodyReceived + 1
        state := if p.bodyReceived + 1 = p.contentLength then .complete else p.state }
  | .bodyClose =>
    (appendBody p [byte]).map fun p => { p with bodyReceived := p.bodyReceived + 1 }
  | .chunkData =>
    if p.chunkRemaining = 0 then some { p with state := .chunkCrlf, crlf := 0 }
    else (appendBody p [byte]).map fun p =>
      { p with
        chunkRemaining := p.chunkRemaining - 1
        state := if p.chunkRemaining - 1 = 0 then .chunkCrlf else p.state
        crlf := if p.chunkRemaining - 1 = 0 then 0 else p.crlf }
  | .chunkCrlf => crlfByte p byte
  | _ => lineByte p byte

section

variable {p q : Parser} {byte : UInt8}

lemma foldlM_complete (h : p.state = .complete) (data : List UInt8) :
    data.foldlM stepByte p = some p := by
  induction data with
  | nil => rfl
  | cons byte rest ih =>
    have hstep : stepByte p byte = some p := by
      unfold stepByte
      rw [h]
    rw [List.foldlM_cons, hstep]
    exact ih

lemma foldlM_grow {grow : List UInt8 → Parser} {limit room : Nat}
    (hstep : ∀ d byte, d.length < limit → stepByte (grow d) byte =
      if d.length < room then some (grow (d ++ [byte])) else none) (data : List UInt8) :
    ∀ d, d.length + data.length ≤ limit → d.length ≤ room → data.foldlM stepByte (grow d) =
      if d.length + data.length ≤ room then some (grow (d ++ data)) else none := by
  induction data with
  | nil =>
    intro d _ hd
    rw [List.length_nil, Nat.add_zero, if_pos hd, List.append_nil]
    rfl
  | cons byte rest ih =>
    intro d hlimit hd
    rw [List.length_cons] at hlimit ⊢
    rw [List.foldlM_cons, hstep d byte (by omega)]
    by_cases hroom : d.length < room
    · rw [if_pos hroom]
      have hrest := ih (d ++ [byte]) (by simp; omega) (by simp; omega)
      simp only [List.length_append, List.length_singleton, List.append_assoc,
        List.singleton_append, Nat.add_assoc, Nat.add_comm 1] at hrest
      exact hrest
    · rw [if_neg hroom, if_neg (by omega)]
      rfl

lemma appendBody_eq (p : Parser) (data : List UInt8) :
    appendBody p data = if data.length ≤ bodyMax - p.response.body.length then
      some { p with response := { p.response with body := p.response.body ++ data } } else none := by
  unfold appendBody
  by_cases h : data.length ≤ bodyMax - p.response.body.length
  · rw [if_neg (by omega), if_pos h]
  · rw [if_pos (by omega), if_neg h]

def growLength (p : Parser) (d : List UInt8) : Parser :=
  { p with
    response := { p.response with body := p.response.body ++ d }
    bodyReceived := p.bodyReceived + d.length
    state := if p.bodyReceived + d.length = p.contentLength then .complete else p.state }

def growClose (p : Parser) (d : List UInt8) : Parser :=
  { p with
    response := { p.response with body := p.response.body ++ d }
    bodyReceived := p.bodyReceived + d.length }

def growChunk (p : Parser) (d : List UInt8) : Parser :=
  { p with
    response := { p.response with body := p.response.body ++ d }
    chunkRemaining := p.chunkRemaining - d.length
    state := if p.chunkRemaining - d.length = 0 then .chunkCrlf else p.state
    crlf := if p.chunkRemaining - d.length = 0 then 0 else p.crlf }

variable {d : List UInt8}

lemma stepByte_growLength (h : p.state = .bodyLength)
    (hd : d.length < p.contentLength - p.bodyReceived) :
    stepByte (growLength p d) byte = if d.length < bodyMax - p.response.body.length then
      some (growLength p (d ++ [byte])) else none := by
  have hstate : (growLength p d).state = .bodyLength := by
    simp only [growLength, h]
    rw [if_neg (by omega)]
  have hmore : (growLength p d).contentLength - (growLength p d).bodyReceived ≠ 0 := by
    simp only [growLength]
    omega
  unfold stepByte
  simp only [hstate, hmore, if_false, appendBody_eq]
  by_cases hroom : d.length < bodyMax - p.response.body.length
  · rw [if_pos hroom, if_pos (by simp [growLength]; omega)]
    simp [growLength, h, Nat.add_assoc]
  · rw [if_neg hroom, if_neg (by simp [growLength]; omega)]
    rfl

lemma stepByte_growClose (h : p.state = .bodyClose) :
    stepByte (growClose p d) byte = if d.length < bodyMax - p.response.body.length then
      some (growClose p (d ++ [byte])) else none := by
  have hstate : (growClose p d).state = .bodyClose := h
  unfold stepByte
  simp only [hstate, appendBody_eq]
  by_cases hroom : d.length < bodyMax - p.response.body.length
  · rw [if_pos hroom, if_pos (by simp [growClose]; omega)]
    simp [growClose, h, Nat.add_assoc]
  · rw [if_neg hroom, if_neg (by simp [growClose]; omega)]
    rfl

lemma stepByte_growChunk (h : p.state = .chunkData) (hd : d.length < p.chunkRemaining) :
    stepByte (growChunk p d) byte = if d.length < bodyMax - p.response.body.length then
      some (growChunk p (d ++ [byte])) else none := by
  have hleft : p.chunkRemaining - d.length ≠ 0 := by omega
  have hstate : (growChunk p d).state = .chunkData := by
    simp only [growChunk, h]
    rw [if_neg hleft]
  have hmore : (growChunk p d).chunkRemaining ≠ 0 := hleft
  unfold stepByte
  simp only [hstate, hmore, if_false, appendBody_eq]
  by_cases hroom : d.length < bodyMax - p.response.body.length
  · rw [if_pos hroom, if_pos (by simp [growChunk]; omega)]
    simp [growChunk, h, hleft, Nat.sub_sub]
  · rw [if_neg hroom, if_neg (by simp [growChunk]; omega)]
    rfl

lemma parseStatus_state (h : parseStatus p = some q) : q.state = p.state := by
  unfold parseStatus at h
  simp only at h
  split at h
  · cases h
  · split at h
    · cases h
    · split at h
      · cases h
      · obtain rfl := Option.some.inj h
        rfl

lemma parseHeader_state (h : parseHeader p = some q) : q.state = p.state := by
  unfold parseHeader at h
  simp only at h
  split at h
  · cases h
  split at h
  · split at h
    · cases h
    · obtain ⟨length, -, rfl⟩ := Option.map_eq_some_iff.mp h
      rfl
  split at h
  · split at h
    · cases h
    split at h
    · obtain rfl := Option.some.inj h
      rfl
    · cases h
  split at h
  · split at h
    all_goals
      obtain rfl := Option.some.inj h
      rfl
  split at h
  · split at h
    · cases h
    · obtain rfl := Option.some.inj h
      rfl
  · obtain rfl := Option.some.inj h
    rfl

lemma lineComplete_state (h : lineComplete p = some q) : q.state ≠ .error := by
  unfold lineComplete at h
  split at h
  · rw [parseStatus_state h]
    exact ParseState.noConfusion
  · next hstate =>
    split at h
    · obtain rfl := Option.some.inj h
      split
      · exact ParseState.noConfusion
      · split <;> exact ParseState.noConfusion
    · rw [parseHeader_state h, hstate]
      exact ParseState.noConfusion
  · obtain ⟨size, -, rfl⟩ := Option.map_eq_some_iff.mp h
    split <;> exact ParseState.noConfusion
  · next hstate =>
    obtain rfl := Option.some.inj h
    split
    · exact ParseState.noConfusion
    · rw [hstate]
      exact ParseState.noConfusion
  · cases h

lemma lineByte_state (h : lineByte p byte = some q) (hp : p.state ≠ .error) :
    q.state ≠ .error := by
  unfold lineByte at h
  split at h
  · obtain rfl := Option.some.inj h
    exact hp
  split at h
  · obtain ⟨q', hq', rfl⟩ := Option.map_eq_some_iff.mp h
    have hstate := lineComplete_state hq'
    exact hstate
  split at h
  · cases h
  · obtain rfl := Option.some.inj h
    exact hp

lemma crlfByte_state (h : crlfByte p byte = some q) (hp : p.state ≠ .error) :
    q.state ≠ .error := by
  unfold crlfByte at h
  split at h
  · cases h
  · obtain rfl := Option.some.inj h
    split
    · exact ParseState.noConfusion
    · exact hp

def outcome (r : Bool × Parser) : Option Parser := if r.1 then some r.2 else none

@[simp] lemma outcome_fail : outcome (fail p) = none := rfl

@[simp] lemma outcome_true : outcome (true, p) = some p := rfl

lemma growLength_nil (hmore : p.contentLength - p.bodyReceived ≠ 0) : growLength p [] = p := by
  have hne : p.bodyReceived ≠ p.contentLength := by omega
  simp [growLength, hne]

lemma growChunk_nil (hmore : p.chunkRemaining ≠ 0) : growChunk p [] = p := by
  simp [growChunk, hmore]

lemma growLength_state (h : p.state = .bodyLength) (d : List UInt8) :
    (growLength p d).state ≠ .error := by
  simp only [growLength, h]
  split <;> exact ParseState.noConfusion

lemma growChunk_state (h : p.state = .chunkData) (d : List UInt8) :
    (growChunk p d).state ≠ .error := by
  simp only [growChunk, h]
  split <;> exact ParseState.noConfusion

lemma foldlM_copy {grow : List UInt8 → Parser} {limit room take : Nat} {rest : List UInt8}
    (hstep : ∀ d byte, d.length < limit → stepByte (grow d) byte =
      if d.length < room then some (grow (d ++ [byte])) else none)
    (htake : take = min (rest.length + 1) limit) (hlimit : limit ≠ 0) :
    (byte :: rest).foldlM stepByte (grow []) =
      if ((byte :: rest).take take).length ≤ room then
        (rest.drop (take - 1)).foldlM stepByte (grow ((byte :: rest).take take)) else none := by
  have hdrop : (byte :: rest).drop take = rest.drop (take - 1) := by
    obtain ⟨k, hk⟩ := Nat.exists_eq_succ_of_ne_zero (show take ≠ 0 by omega)
    rw [hk, List.drop_succ_cons, Nat.succ_sub_one]
  have hcopy := foldlM_grow hstep ((byte :: rest).take take) [] (by simp; omega) (Nat.zero_le _)
  rw [List.length_nil, Nat.zero_add, List.nil_append] at hcopy
  conv_lhs => rw [← List.take_append_drop take (byte :: rest)]
  rw [List.foldlM_append, hcopy, hdrop]
  split <;> rfl

lemma outcome_byte {rest : List UInt8} (hrest : ∀ q, stepByte p byte = some q →
    outcome (feedFrom q rest) = rest.foldlM stepByte q) : outcome (match stepByte p byte with
      | none => fail p
      | some q => feedFrom q rest) = (byte :: rest).foldlM stepByte p := by
  rw [List.foldlM_cons]
  cases hstep : stepByte p byte with
  | none => rfl
  | some q => exact hrest q hstep

variable (data : List UInt8)

lemma feedFrom_eq (hp : p.state ≠ .error) :
    outcome (feedFrom p data) = data.foldlM stepByte p := by
  induction hn : data.length using Nat.strong_induction_on generalizing data p with
  | _ n ih =>
  cases data with
  | nil =>
    rw [feedFrom]
    rfl
  | cons byte rest =>
  rw [feedFrom]
  have hshort (k : Nat) : (rest.drop k).length < n := by
    rw [← hn, List.length_drop, List.length_cons]
    omega
  have hrest : rest.length < n := hshort 0
  have hline (hstate : stepByte p byte = lineByte p byte) :
      outcome (match lineByte p byte with
        | none => fail p
        | some q => feedFrom q rest) = (byte :: rest).foldlM stepByte p := by
    rw [← hstate]
    exact outcome_byte fun q hq => ih _ hrest rest (lineByte_state (hstate ▸ hq) hp) rfl
  cases hstate : p.state with
  | error => exact absurd hstate hp
  | complete => rw [foldlM_complete hstate, outcome_true]
  | bodyLength =>
    by_cases hmore : p.contentLength - p.bodyReceived = 0
    · have hstep : stepByte p byte = some { p with state :=
          if p.bodyReceived = p.contentLength then .complete else .bodyLength } := by
        unfold stepByte
        simp only [hstate, hmore, if_true]
      rw [List.foldlM_cons, hstep]
      simp only [hmore, Nat.min_zero, List.take_zero, appendBody_eq, List.length_nil,
        Nat.zero_le, if_true, List.append_nil, Nat.add_zero, Nat.zero_sub, List.drop_zero, hstate]
      refine ih _ hrest rest ?_ rfl
      split <;> exact ParseState.noConfusion
    · have hcopy := @foldlM_copy byte (growLength p) _ _ _ rest
        (fun d byte => stepByte_growLength hstate) rfl hmore
      rw [growLength_nil hmore] at hcopy
      rw [hcopy]
      simp only [appendBody_eq]
      by_cases hfit : ((byte :: rest).take
          (min (rest.length + 1) (p.contentLength - p.bodyReceived))).length ≤
          bodyMax - p.response.body.length
      · simp only [if_pos hfit]
        have hlen : ((byte :: rest).take
            (min (rest.length + 1) (p.contentLength - p.bodyReceived))).length =
            min (rest.length + 1) (p.contentLength - p.bodyReceived) := by
          rw [List.length_take, List.length_cons]
          omega
        rw [← ih _ (hshort _) _ (growLength_state hstate _) rfl]
        unfold growLength
        rw [hlen, hstate]
      · simp only [if_neg hfit, outcome_fail]
  | bodyClose =>
    have hgrow := @foldlM_grow (growClose p) (byte :: rest).length _
      (fun d byte _ => stepByte_growClose hstate) (byte :: rest) [] (by simp) (Nat.zero_le _)
    rw [show growClose p [] = p by simp [growClose], List.length_nil, Nat.zero_add,
      List.nil_append] at hgrow
    rw [hgrow]
    simp only [appendBody_eq]
    by_cases hfit : (byte :: rest).length ≤ bodyMax - p.response.body.length
    · simp only [if_pos hfit, outcome_true]
      rw [growClose, List.length_cons, hstate]
    · simp only [if_neg hfit, outcome_fail]
  | chunkData =>
    by_cases hmore : p.chunkRemaining = 0
    · have hstep : stepByte p byte = some { p with state := .chunkCrlf, crlf := 0 } := by
        unfold stepByte
        simp only [hstate, hmore, if_true]
      rw [List.foldlM_cons, hstep]
      simp only [hmore, Nat.min_zero, List.take_zero, appendBody_eq, List.length_nil,
        Nat.zero_le, if_true, List.append_nil, Nat.sub_zero, Nat.zero_sub, List.drop_zero]
      rw [← hmore]
      exact ih _ hrest rest ParseState.noConfusion rfl
    · have hcopy := @foldlM_copy byte (growChunk p) _ _ _ rest
        (fun d byte => stepByte_growChunk hstate) rfl hmore
      rw [growChunk_nil hmore] at hcopy
      rw [hcopy]
      simp only [appendBody_eq]
      by_cases hfit : ((byte :: rest).take (min (rest.length + 1) p.chunkRemaining)).length ≤
          bodyMax - p.response.body.length
      · simp only [if_pos hfit]
        have hlen : ((byte :: rest).take (min (rest.length + 1) p.chunkRemaining)).length =
            min (rest.length + 1) p.chunkRemaining := by
          rw [List.length_take, List.length_cons]
          omega
        rw [← ih _ (hshort _) _ (growChunk_state hstate _) rfl]
        unfold growChunk
        rw [hlen, hstate]
      · simp only [if_neg hfit, outcome_fail]
  | chunkCrlf =>
    have hstep : stepByte p byte = crlfByte p byte := by
      unfold stepByte
      rw [hstate]
    rw [← hstep]
    exact outcome_byte fun q hq => ih _ hrest rest (crlfByte_state (hstep ▸ hq) hp) rfl
  | status | headers | chunkSize | trailers => exact hline (by unfold stepByte; rw [hstate])

lemma appendBody_state (h : appendBody p [byte] = some q) : q.state = p.state := by
  rw [appendBody_eq] at h
  split at h
  · obtain rfl := Option.some.inj h
    rfl
  · cases h

lemma stepByte_state (h : stepByte p byte = some q) (hp : p.state ≠ .error) :
    q.state ≠ .error := by
  unfold stepByte at h
  split at h
  · cases h
  · obtain rfl := Option.some.inj h
    exact hp
  · split at h
    · obtain rfl := Option.some.inj h
      split
      · exact ParseState.noConfusion
      · exact hp
    · obtain ⟨p', hp', rfl⟩ := Option.map_eq_some_iff.mp h
      split
      · exact ParseState.noConfusion
      · rwa [appendBody_state hp']
  · obtain ⟨p', hp', rfl⟩ := Option.map_eq_some_iff.mp h
    exact fun herror => hp (appendBody_state hp' ▸ herror)
  · split at h
    · obtain rfl := Option.some.inj h
      exact ParseState.noConfusion
    · obtain ⟨p', hp', rfl⟩ := Option.map_eq_some_iff.mp h
      split
      · exact ParseState.noConfusion
      · rwa [appendBody_state hp']
  · exact crlfByte_state h hp
  · exact lineByte_state h hp

lemma foldlM_stepByte_state (hp : p.state ≠ .error)
    (h : data.foldlM stepByte p = some q) : q.state ≠ .error := by
  induction data generalizing p with
  | nil =>
    obtain rfl := Option.some.inj h
    exact hp
  | cons byte rest ih =>
    rw [List.foldlM_cons] at h
    obtain ⟨p', hstep, hrest⟩ := Option.bind_eq_some_iff.mp h
    exact ih (stepByte_state hstep hp) hrest

end

lemma feedAll_eq (pieces : List (List UInt8)) {p : Parser} (hp : p.state ≠ .error) :
    feedAll p pieces = pieces.flatten.foldlM stepByte p := by
  induction pieces generalizing p with
  | nil => rfl
  | cons piece rest ih =>
    have hfeed := feedFrom_eq piece hp
    rw [List.flatten_cons, List.foldlM_append, ← hfeed]
    unfold feedAll parserFeed
    rw [if_neg hp]
    cases hout : feedFrom p piece with
    | mk ok q =>
      cases ok with
      | false => rfl
      | true =>
        rw [hout] at hfeed
        exact ih (foldlM_stepByte_state piece hp hfeed.symm)

/-- However the input is cut into pieces, either a feed fails or the parser ends
the same. -/
theorem feed_segmentation {pieces pieces' : List (List UInt8)}
    (h : pieces.flatten = pieces'.flatten) :
    feedAll parserInit pieces = feedAll parserInit pieces' := by
  have hinit : parserInit.state ≠ .error := ParseState.noConfusion
  rw [feedAll_eq pieces hinit, feedAll_eq pieces' hinit, h]

/-- The same bytes in two pieces and in three. -/
theorem feed_segmentation_status_line :
    feedAll parserInit [ascii "HTTP/1.1", ascii " 200 OK\r\n\r\nbody"] =
      feedAll parserInit [ascii "HTTP/1.1 200 OK\r", ascii "\n\r\nbo", ascii "dy"] :=
  feed_segmentation (by decide)

end Mangrove.Net.Http
