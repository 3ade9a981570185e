import Mangrove.Bytes
import Mangrove.Lib.Text

/-! A command of the shell on its way to the new process, and when the kernel's words are the
shell's words: quotes have to be spent on blanks only. -/

namespace Mangrove.Shoot

open Text (isBlank)

def isQuote (c : UInt8) : Bool := c = 0x27 || c = 0x22

def skipSpaces (text : List UInt8) : List UInt8 := text.dropWhile isBlank

def commandStorageCapacity : Nat := 512

def maxArguments : Nat := 8

/-- The variables of `parse_word`. -/
structure Scan where
  quote : Option UInt8
  sawCharacter : Bool
  firstValue : Bool
  homeExpand : Bool
  word : List UInt8
deriving DecidableEq

def Scan.push (s : Scan) (value : UInt8) : Scan :=
  { s with
    homeExpand := if s.firstValue then s.quote ≠ some 0x27 else s.homeExpand
    firstValue := false
    word := s.word ++ [value]
    sawCharacter := true }

/-- The loop of `parse_word`, with the text it leaves. -/
def scanWord (used : Nat) : List UInt8 → Scan → Option (Scan × List UInt8)
  | [], s => some (s, [])
  | value :: rest, s =>
    if s.quote = some value then scanWord used rest { s with quote := none, sawCharacter := true }
    else if s.quote = none ∧ isQuote value then
      scanWord used rest { s with quote := some value, sawCharacter := true }
    else if s.quote = none ∧ (isBlank value ∨ value = 0x3e) then some (s, value :: rest)
    else if commandStorageCapacity ≤ used + s.word.length + 1 then none
    else scanWord used rest (s.push value)

/-- A word of the line, as it is being read. -/
structure Word where
  text : List UInt8
  homeExpand : Bool
deriving DecidableEq

def parseWord (used : Nat) (text : List UInt8) : Option (Word × List UInt8 × Nat) :=
  match scanWord used text ⟨none, false, true, true, []⟩ with
  | none => none
  | some (s, rest) =>
    if s.quote ≠ none ∨ s.sawCharacter = false ∨ commandStorageCapacity ≤ used + s.word.length then
      none
    else some (⟨s.word, s.homeExpand⟩, rest, used + s.word.length + 1)

variable {text rest : List UInt8} {s s' : Scan}

lemma scanWord_length {used : Nat} (h : scanWord used text s = some (s', rest)) :
    rest.length ≤ text.length ∧ (s.sawCharacter = false → s'.sawCharacter = true →
      rest.length < text.length) := by
  induction text generalizing s with
  | nil =>
    obtain ⟨rfl, rfl⟩ := Prod.mk.inj (Option.some.inj h)
    exact ⟨le_rfl, fun hs hs' => absurd hs (by simp [hs'])⟩
  | cons value text ih =>
    rw [List.length_cons]
    unfold scanWord at h
    split at h
    · have := (ih h).1
      exact ⟨by omega, fun _ _ => by omega⟩
    split at h
    · have := (ih h).1
      exact ⟨by omega, fun _ _ => by omega⟩
    split at h
    · obtain ⟨rfl, rfl⟩ := Prod.mk.inj (Option.some.inj h)
      exact ⟨le_rfl, fun hs hs' => absurd hs (by simp [hs'])⟩
    split at h
    · cases h
    · have := (ih h).1
      exact ⟨by omega, fun _ _ => by omega⟩

variable {word : Word}

lemma parseWord_length {used used' : Nat}
    (h : parseWord used text = some (word, rest, used')) : rest.length < text.length := by
  unfold parseWord at h
  split at h
  · cases h
  · next s rest' hscan =>
    split at h
    · cases h
    · next hcond =>
      obtain ⟨-, hrest⟩ := Prod.mk.inj (Option.some.inj h)
      obtain ⟨rfl, -⟩ := Prod.mk.inj hrest
      have hsaw : s.sawCharacter = true := by
        rw [← Bool.not_eq_false]
        exact fun hsaw => hcond (.inr (.inl hsaw))
      exact (scanWord_length hscan).2 rfl hsaw

lemma skipSpaces_length (text : List UInt8) : (skipSpaces text).length ≤ text.length :=
  (List.dropWhile_sublist _).length_le

/-- Why a line is refused. -/
inductive ParseError where
  | empty
  | tooManyArguments
  | invalidSyntax
deriving DecidableEq

structure Redirect where
  path : Word
  append : Bool
deriving DecidableEq

/-- A line that was accepted. -/
structure Command where
  name : List UInt8
  arguments : List (List UInt8)
  output : Option Redirect
deriving DecidableEq

/-- The words of a line, and where its output goes. -/
structure Words where
  words : List (List UInt8)
  output : Option Redirect
deriving DecidableEq

def redirectTarget (rest : List UInt8) : Bool × List UInt8 :=
  if rest.head? = some 0x3e then (true, skipSpaces (rest.drop 1)) else (false, skipSpaces rest)

lemma redirectTarget_length (rest : List UInt8) :
    (redirectTarget rest).2.length ≤ rest.length := by
  unfold redirectTarget
  split
  · have hskip := skipSpaces_length (rest.drop 1)
    rw [List.length_drop] at hskip
    exact hskip.trans (Nat.sub_le _ _)
  · exact skipSpaces_length rest

/-- The loop of `parse_command` on a text without leading blanks. -/
def wordsFrom (used : Nat) (text : List UInt8) (w : Words) : Except ParseError Words :=
  match text with
  | [] => .ok w
  | c :: rest =>
    if c = 0x3e then
      if w.output ≠ none then .error .invalidSyntax
      else if (redirectTarget rest).2 = [] ∨ (redirectTarget rest).2.head? = some 0x3e then
        .error .invalidSyntax
      else match _hword : parseWord used (redirectTarget rest).2 with
        | none => .error .invalidSyntax
        | some (word, after, used) =>
          if word.text = [] then .error .invalidSyntax
          else wordsFrom used (skipSpaces after)
            { w with output := some ⟨word, (redirectTarget rest).1⟩ }
    else if w.words.length = maxArguments + 1 then .error .tooManyArguments
    else match _hword : parseWord used (c :: rest) with
      | none => .error .invalidSyntax
      | some (word, after, used) =>
        wordsFrom used (skipSpaces after) { w with words := w.words ++ [word.text] }
termination_by text.length
decreasing_by
  · have hword := parseWord_length _hword
    have hskip := skipSpaces_length after
    have htarget := redirectTarget_length rest
    rw [List.length_cons]
    omega
  · have hword := parseWord_length _hword
    have hskip := skipSpaces_length after
    omega

def parseCommand (line : List UInt8) : Except ParseError Command :=
  if skipSpaces line = [] then .error .empty
  else match wordsFrom 0 (skipSpaces line) ⟨[], none⟩ with
    | .error e => .error e
    | .ok w => match w.words with
      | [] => .error .invalidSyntax
      | name :: arguments => .ok ⟨name, arguments, w.output⟩

def pathCapacity : Nat := 256

def binDirectory : List UInt8 := [0x2f, 0x62, 0x69, 0x6e, 0x2f]

def pathOf (name : List UInt8) : List UInt8 :=
  if name.head? = some 0x2f then name else binDirectory ++ name

def executablePath (name : List UInt8) : Option (List UInt8) :=
  if name.head? = some 0x2f then some (name.take (pathCapacity - 1))
  else if name = [] ∨ pathCapacity < name.length + 6 then none
  else some (binDirectory ++ name)

def cmdlineCapacity : Nat := 512

def needsQuotes (argument : List UInt8) : Bool := argument.any isBlank

def quoted (argument : List UInt8) : List UInt8 :=
  if needsQuotes argument then 0x22 :: (argument ++ [0x22]) else argument

def addArgument (cmdline argument : List UInt8) : List UInt8 :=
  if cmdline.length + 1 + (quoted argument).length < cmdlineCapacity then
    cmdline ++ 0x20 :: quoted argument
  else cmdline

def commandLine (path : List UInt8) (arguments : List (List UInt8)) : List UInt8 :=
  arguments.foldl addArgument path

def processMaxArguments : Nat := 16

def processCommandLineCapacity : Nat := 256

def splitWord : List UInt8 → Option UInt8 → List UInt8 × List UInt8
  | [], _ => ([], [])
  | c :: rest, some quote =>
    if c = quote then splitWord rest none
    else (c :: (splitWord rest (some quote)).1, (splitWord rest (some quote)).2)
  | c :: rest, none =>
    if isQuote c then splitWord rest (some c)
    else if isBlank c then ([], rest)
    else (c :: (splitWord rest none).1, (splitWord rest none).2)

def splitWords : Nat → List UInt8 → List (List UInt8)
  | 0, _ => []
  | _ + 1, [] => []
  | n + 1, c :: rest =>
    (splitWord (c :: rest) none).1 ::
      splitWords n (skipSpaces (splitWord (c :: rest) none).2)

def parseSpawnCmdline (cmdline : List UInt8) : Option (List (List UInt8)) :=
  let raw := cmdline.take (processCommandLineCapacity - 1)
  let arguments := splitWords processMaxArguments (skipSpaces raw)
  if arguments = [] then none else some arguments

/-- The stack page of a new process, with the arguments that were put on it. -/
structure Stack where
  frame : Buf
  argc : Nat
  argv : Nat
  pointer : Nat

def stackPage : Nat := 0x00007fffffeff000

def placeStrings (frame : Buf) : List (List UInt8) → Option (Nat × Buf × List Nat)
  | [] => some (0x1000, frame, [])
  | text :: rest =>
    match placeStrings frame rest with
    | none => none
    | some (offset, frame, pointers) =>
      if offset < text.length + 1 then none
      else
        let start := offset - (text.length + 1)
        some (start, frame.copy start (Buf.ofList (text ++ [0])) (text.length + 1),
          (stackPage + start) :: pointers)

def placePointers (offset : Nat) (frame : Buf) : List Nat → Option (Nat × Buf)
  | [] => some (offset, frame)
  | pointer :: rest =>
    match placePointers offset frame rest with
    | none => none
    | some (offset, frame) =>
      if offset < 8 then none else some (offset - 8, storeLe64 frame (offset - 8) pointer)

def setupUserStackArgs (frame : Buf) (arguments : List (List UInt8)) : Option Stack :=
  match placeStrings frame arguments with
  | none => none
  | some (offset, frame, pointers) =>
    match placePointers offset frame (pointers ++ [0]) with
    | none => none
    | some (offset, frame) =>
      some ⟨frame, arguments.length, stackPage + offset, stackPage + offset / 16 * 16⟩

def stringAt (frame : Buf) (address : Nat) : List UInt8 :=
  ((frame.skip (address - stackPage)).bytes (0x1000 - (address - stackPage))).takeWhile (· ≠ 0)

def Stack.arguments (s : Stack) : List (List UInt8) :=
  (List.range s.argc).map fun i =>
    stringAt s.frame (getLe64 s.frame (s.argv - stackPage + 8 * i))

/-- What the command meets outside of itself: which paths are files, whether the
target of a redirection can be opened, whether the kernel can load the program
and has room for the process, and what the new stack page holds. -/
structure Surroundings where
  isFile : List UInt8 → Bool
  redirects : Redirect → Bool
  admits : List (List UInt8) → Bool
  frame : Buf

def processSpawn (env : Surroundings) (cmdline : List UInt8) : Option Stack :=
  if cmdline = [] ∨ processCommandLineCapacity ≤ cmdline.length then none
  else match parseSpawnCmdline cmdline with
    | none => none
    | some arguments =>
      if arguments.head? = some [] ∨ env.admits arguments = false then none
      else setupUserStackArgs env.frame arguments

def executeExternal (env : Surroundings) (command : Command) : Option Stack :=
  match executablePath command.name with
  | none => none
  | some path =>
    if env.isFile path = false then none
    else if command.output.all env.redirects = false then none
    else processSpawn env (commandLine path command.arguments)

def Holds (frame : Buf) (start : Nat) (text : List UInt8) : Prop :=
  (∀ i < text.length, frame (start + i) = text.getD i 0) ∧ frame (start + text.length) = 0

lemma Holds.stringAt {frame : Buf} {start : Nat} {text : List UInt8}
    (h : Holds frame start text) (hzero : 0 ∉ text) (hfit : start + text.length < 0x1000) :
    stringAt frame (stackPage + start) = text := by
  obtain ⟨n, hn⟩ : ∃ n, 0x1000 - start = text.length + (n + 1) :=
    ⟨0x1000 - start - text.length - 1, by omega⟩
  have hbytes : (frame.skip start).bytes (0x1000 - start) =
      text ++ 0 :: ((frame.skip start).skip (text.length + 1)).bytes n := by
    rw [hn]
    apply List.ext_getElem
    · simp [Buf.bytes]
    · intro i hi hi'
      rcases Nat.lt_trichotomy i text.length with hlt | heq | hgt
      · have hbyte := h.1 i hlt
        rw [List.getD_eq_getElem _ _ hlt] at hbyte
        simp [Buf.bytes, Buf.skip, hbyte, List.getElem_append_left hlt]
      · subst heq
        simp [Buf.bytes, Buf.skip, h.2]
      · obtain ⟨k, rfl⟩ : ∃ k, i = text.length + (k + 1) := ⟨i - text.length - 1, by omega⟩
        simp [Buf.bytes, Buf.skip, List.getElem_append_right]
        congr 1
        omega
  have hnonzero : ∀ c ∈ text, decide (c ≠ 0) = true := by
    intro c hc
    exact decide_eq_true (fun hc0 => hzero (hc0 ▸ hc))
  unfold Shoot.stringAt
  rw [Nat.add_sub_cancel_left, hbytes, List.takeWhile_append_of_pos hnonzero]
  simp

lemma Holds.congr {frame frame' : Buf} {start : Nat} {text : List UInt8}
    (h : Holds frame start text) (heq : ∀ i, start ≤ i → frame' i = frame i) :
    Holds frame' start text :=
  ⟨fun i hi => (heq _ (by omega)).trans (h.1 i hi), (heq _ (by omega)).trans h.2⟩

def stringBytes (texts : List (List UInt8)) : Nat := (texts.map fun t => t.length + 1).sum

lemma stringBytes_cons (t : List UInt8) (texts : List (List UInt8)) :
    stringBytes (t :: texts) = t.length + 1 + stringBytes texts := by
  simp [stringBytes]

def Points (frame : Buf) (offset : Nat) (pointers : List Nat) (texts : List (List UInt8)) : Prop :=
  List.Forall₂ (fun pointer text => ∃ start, pointer = stackPage + start ∧ offset ≤ start ∧
    start + text.length < 0x1000 ∧ Holds frame start text) pointers texts

lemma Points.congr {frame frame' : Buf} {offset offset' : Nat} {pointers : List Nat}
    {texts : List (List UInt8)} (h : Points frame offset pointers texts)
    (hle : offset' ≤ offset) (heq : ∀ i, offset ≤ i → frame' i = frame i) :
    Points frame' offset' pointers texts := by
  apply List.Forall₂.imp _ h
  rintro pointer text ⟨start, hpointer, hstart, hfit, hholds⟩
  exact ⟨start, hpointer, hle.trans hstart, hfit,
    hholds.congr fun i hi => heq i (hstart.trans hi)⟩

variable (frame : Buf) {texts : List (List UInt8)}

lemma placeStrings_spec (hfit : stringBytes texts ≤ 0x1000) : ∃ frame' pointers,
      placeStrings frame texts = some (0x1000 - stringBytes texts, frame', pointers) ∧
      Points frame' (0x1000 - stringBytes texts) pointers texts := by
  induction texts with
  | nil => exact ⟨frame, [], rfl, .nil⟩
  | cons text texts ih =>
    rw [stringBytes_cons] at hfit ⊢
    obtain ⟨frame', pointers, hplace, hpoints⟩ := ih (by omega)
    have hroom : ¬ 0x1000 - stringBytes texts < text.length + 1 := by omega
    have hstart : 0x1000 - stringBytes texts - (text.length + 1) =
        0x1000 - (text.length + 1 + stringBytes texts) := by omega
    refine ⟨_, _, by rw [placeStrings, hplace]; simp only [if_neg hroom, hstart]; rfl, ?_⟩
    refine .cons ⟨_, rfl, le_rfl, by omega, ?_, ?_⟩ ?_
    · intro i hi
      rw [Buf.copy_of_mem (by omega) (by omega), Nat.add_sub_cancel_left, Buf.ofList]
      simp [List.getD_eq_getElem?_getD, List.getElem?_append_left hi]
    · rw [Buf.copy_of_mem (by omega) (by omega), Nat.add_sub_cancel_left, Buf.ofList]
      simp
    · exact hpoints.congr (by omega) fun i hi => Buf.copy_of_not_mem (by omega)

lemma placePointers_spec {offset : Nat} {pointers : List Nat}
    (hfit : 8 * pointers.length ≤ offset) (hpointers : ∀ p ∈ pointers, p < 2 ^ 64) :
    ∃ frame', placePointers offset frame pointers = some (offset - 8 * pointers.length, frame') ∧
      (∀ i, offset ≤ i → frame' i = frame i) ∧
      ∀ i (hi : i < pointers.length),
        getLe64 frame' (offset - 8 * pointers.length + 8 * i) = pointers[i] := by
  induction pointers with
  | nil => exact ⟨frame, rfl, fun _ _ => rfl, nofun⟩
  | cons pointer pointers ih =>
    rw [List.length_cons] at hfit
    rw [List.forall_mem_cons] at hpointers
    obtain ⟨frame', hplace, hframe, hget⟩ := ih (by omega) hpointers.2
    have hroom : ¬ offset - 8 * pointers.length < 8 := by omega
    have hbase : offset - 8 * pointers.length - 8 = offset - 8 * (pointers.length + 1) := by omega
    refine ⟨_, by rw [placePointers, hplace]; simp only [if_neg hroom, hbase]; rfl, ?_, ?_⟩
    · intro i hi
      rw [storeLe64_of_not_mem (by omega), hframe i hi]
    · intro i hi
      rw [List.length_cons] at hi ⊢
      cases i with
      | zero => exact getLe64_store hpointers.1
      | succ i =>
        rw [getLe64_store_of_ne (by omega), List.getElem_cons_succ, ← hget i (by omega)]
        congr 1
        omega

lemma setupUserStackArgs_spec
    (hfit : stringBytes texts + 8 * (texts.length + 1) ≤ 0x1000) (hzero : ∀ t ∈ texts, 0 ∉ t) :
    ∃ stack, setupUserStackArgs frame texts = some stack ∧ stack.arguments = texts := by
  have hstringsFit : stringBytes texts ≤ 0x1000 := by omega
  obtain ⟨frame', pointers, hstrings, hpoints⟩ := placeStrings_spec frame hstringsFit
  have hlength := hpoints.length_eq
  have hsmall : ∀ p ∈ pointers ++ [0], p < 2 ^ 64 := by
    intro p hp
    rcases List.mem_append.mp hp with hp | hp
    · obtain ⟨i, hi, rfl⟩ := List.getElem_of_mem hp
      obtain ⟨start, hpointer, -, hlt, -⟩ :=
        List.forall₂_iff_get.mp hpoints |>.2 i hi (by omega)
      rw [List.get_eq_getElem] at hpointer
      rw [hpointer, stackPage]
      omega
    · rw [List.mem_singleton.mp hp]
      decide
  have hpointersFit : 8 * (pointers ++ [0]).length ≤ 0x1000 - stringBytes texts := by
    simp only [List.length_append, List.length_singleton]
    omega
  obtain ⟨frame'', hplace, hframe, hget⟩ := placePointers_spec frame' hpointersFit hsmall
  refine ⟨_, by simp only [setupUserStackArgs, hstrings, hplace]; rfl, ?_⟩
  unfold Stack.arguments
  apply List.ext_getElem
  · simp
  · intro i hi hi'
    obtain ⟨start, hpointer, hstart, hlt, hholds⟩ :=
      List.forall₂_iff_get.mp hpoints |>.2 i (by omega) hi'
    have hvalue := hget i (by simp only [List.length_append, List.length_singleton]; omega)
    rw [List.getElem_append_left (by omega)] at hvalue
    simp only [List.get_eq_getElem] at hpointer hlt hholds
    simp only [List.getElem_map, List.getElem_range, Nat.add_sub_cancel_left]
    rw [hvalue, hpointer]
    exact (hholds.congr fun j hj => hframe j (hstart.trans hj)).stringAt
      (hzero _ (List.getElem_mem hi')) hlt

/-- A character that cannot stand in a word without quotes around it. -/
def isSpecial (c : UInt8) : Bool := isBlank c || isQuote c

inductive Stop where
  | blank
  | finish
  | unclosed
deriving DecidableEq

def stopOf : List UInt8 → Option UInt8 → Stop
  | [], none => .finish
  | [], some _ => .unclosed
  | c :: rest, some quote => if c = quote then stopOf rest none else stopOf rest (some quote)
  | c :: rest, none =>
    if isQuote c then stopOf rest (some c) else if isBlank c then .blank else stopOf rest none

def dropped : List UInt8 → Option UInt8 → Nat
  | [], _ => 0
  | c :: rest, some quote =>
    if c = quote then dropped rest none + 1 else dropped rest (some quote)
  | c :: rest, none =>
    if isQuote c then dropped rest (some c) + 1 else if isBlank c then 0 else dropped rest none

def Stop.bytes : Stop → Nat
  | .blank => 1
  | .finish => 0
  | .unclosed => 0

lemma splitWord_count (text : List UInt8) (quote : Option UInt8) :
    text.length = (splitWord text quote).1.length + (splitWord text quote).2.length +
        dropped text quote + (stopOf text quote).bytes ∧
      (stopOf text quote ≠ .blank → (splitWord text quote).2 = []) := by
  induction text, quote using splitWord.induct with
  | case1 quote => cases quote <;> simp [splitWord, dropped, stopOf, Stop.bytes]
  | case2 rest quote ih =>
    simp only [splitWord, dropped, stopOf, if_true, List.length_cons]
    exact ⟨by omega, ih.2⟩
  | case3 c rest quote hne ih =>
    simp only [splitWord, dropped, stopOf, hne, if_false, List.length_cons]
    exact ⟨by omega, ih.2⟩
  | case4 c rest hquote ih =>
    simp only [splitWord, dropped, stopOf, hquote, if_true, List.length_cons]
    exact ⟨by omega, ih.2⟩
  | case5 c rest hquote hblank =>
    simp [splitWord, dropped, stopOf, hquote, hblank, Stop.bytes]
  | case6 c rest hquote hblank ih =>
    simp only [splitWord, dropped, stopOf, hquote, hblank, if_false, List.length_cons,
      Bool.false_eq_true]
    exact ⟨by omega, ih.2⟩

lemma dropped_parity (text : List UInt8) (quote : Option UInt8) : dropped text quote % 2 =
      if quote.isSome = decide (stopOf text quote = .unclosed) then 0 else 1 := by
  induction text, quote using splitWord.induct with
  | case1 quote => cases quote <;> rfl
  | case2 rest quote ih =>
    simp only [dropped, stopOf, if_true, Option.isSome_some]
    cases hstop : decide (stopOf rest none = .unclosed) <;> simp [hstop] at ih ⊢ <;> omega
  | case3 c rest quote hne ih =>
    simp only [dropped, stopOf, hne, if_false]
    exact ih
  | case4 c rest hquote ih =>
    simp only [dropped, stopOf, hquote, if_true, Option.isSome_none]
    cases hstop : decide (stopOf rest (some c) = .unclosed) <;> simp [hstop] at ih ⊢ <;> omega
  | case5 c rest hquote hblank => simp [dropped, stopOf, hquote, hblank]
  | case6 c rest hquote hblank ih =>
    simp only [dropped, stopOf, hquote, hblank, if_false, Bool.false_eq_true]
    exact ih

lemma splitWord_plain_of_dropped {text : List UInt8} (h : dropped text none = 0) :
    ∀ c ∈ (splitWord text none).1, isSpecial c = false := by
  induction text with
  | nil => simp [splitWord]
  | cons c rest ih =>
    unfold dropped at h
    unfold splitWord
    split at h
    · cases h
    · next hquote =>
      split at h
      · next hblank => simp [hquote, hblank]
      · next hblank =>
        rw [if_neg hquote, if_neg hblank, List.forall_mem_cons]
        exact ⟨by simp [isSpecial, hquote, hblank], ih h⟩

def cost (word : List UInt8) : Nat := if word = [] ∨ word.any isSpecial then 2 else 0

lemma cost_splitWord {c : UInt8} {rest : List UInt8} (hc : isBlank c = false) :
    cost (splitWord (c :: rest) none).1 ≤ dropped (c :: rest) none +
      if stopOf (c :: rest) none = .unclosed then 1 else 0 := by
  have hparity := dropped_parity (c :: rest) none
  unfold cost
  split
  · next hcost =>
    have hpos : dropped (c :: rest) none ≠ 0 := by
      intro hzero
      rcases hcost with hnil | hspecial
      · unfold dropped at hzero
        unfold splitWord at hnil
        split at hzero
        · cases hzero
        · next hquote => simp [hquote, hc] at hnil
      · obtain ⟨d, hd, hspecial⟩ := List.any_eq_true.mp hspecial
        rw [splitWord_plain_of_dropped hzero d hd] at hspecial
        cases hspecial
    by_cases hstop : stopOf (c :: rest) none = .unclosed
    · rw [if_pos hstop]
      omega
    · rw [if_neg hstop]
      simp [hstop] at hparity
      omega
  · exact Nat.zero_le _

def weight (words : List (List UInt8)) : Nat := (words.map fun w => w.length + cost w + 1).sum

lemma weight_cons (w : List UInt8) (words : List (List UInt8)) :
    weight (w :: words) = w.length + cost w + 1 + weight words := by
  simp [weight]

lemma skipSpaces_head {c : UInt8} (h : skipSpaces text = c :: rest) : isBlank c = false := by
  have hne : text.dropWhile isBlank ≠ [] := by
    rw [← skipSpaces, h]
    exact List.cons_ne_nil c rest
  have hhead : (text.dropWhile isBlank).head hne = c := by
    simp only [show text.dropWhile isBlank = c :: rest from h, List.head_cons]
  rw [← hhead]
  exact List.head_dropWhile_not isBlank hne

lemma weight_splitWords (n : Nat) {text : List UInt8}
    (htext : ∀ c rest, text = c :: rest → isBlank c = false) :
    weight (splitWords n text) ≤ text.length + 2 := by
  induction n generalizing text with
  | zero => simp [splitWords, weight]
  | succ n ih =>
    cases text with
    | nil => simp [splitWords, weight]
    | cons c rest =>
      have hcost := @cost_splitWord c rest (htext c rest rfl)
      obtain ⟨hcount, hrest⟩ := splitWord_count (c :: rest) none
      rw [splitWords, weight_cons]
      cases hstop : stopOf (c :: rest) none with
      | blank =>
        have hle := skipSpaces_length (splitWord (c :: rest) none).2
        have hwords := @ih (skipSpaces (splitWord (c :: rest) none).2)
          fun d more hd => skipSpaces_head hd
        simp only [hstop, Stop.bytes, reduceCtorEq, if_false] at hcost hcount
        omega
      | finish | unclosed =>
        have hnil := hrest (by simp [hstop])
        have hnone : weight (splitWords n (skipSpaces [])) = 0 := by
          cases n <;> simp [splitWords, weight, skipSpaces]
        simp only [hstop, Stop.bytes, reduceCtorEq, if_false, if_true] at hcost hcount
        rw [hnil, hnone]
        omega

def tail (arguments : List (List UInt8)) : List UInt8 :=
  arguments.flatMap fun a => 0x20 :: quoted a

variable (a : List UInt8) (arguments : List (List UInt8))

lemma tail_cons : tail (a :: arguments) = 0x20 :: (quoted a ++ tail arguments) := by
  simp [tail]

def spent (a : List UInt8) : Nat := if needsQuotes a then 2 else 0

lemma quoted_length : (quoted a).length = a.length + spent a := by
  unfold quoted spent
  split
  · simp
  · rfl

lemma spent_le_cost : spent a ≤ cost a := by
  unfold spent cost
  split
  · next hquotes =>
    obtain ⟨c, hc, hblank⟩ := List.any_eq_true.mp hquotes
    rw [if_pos (.inr (List.any_eq_true.mpr ⟨c, hc, by simp [isSpecial, hblank]⟩))]
  · exact Nat.zero_le _

lemma tail_length_le : (tail arguments).length ≤ weight arguments := by
  induction arguments with
  | nil => simp [tail]
  | cons a arguments ih =>
    have hle := spent_le_cost a
    rw [tail_cons, weight_cons, List.length_cons, List.length_append, quoted_length]
    omega

lemma commandLine_cases (path : List UInt8) (arguments : List (List UInt8)) :
    commandLine path arguments = path ++ tail arguments ∨
      ∃ a ∈ arguments, (commandLine path arguments).length + 1 + (quoted a).length ≤
        (path ++ tail arguments).length := by
  induction arguments generalizing path with
  | nil => simp [commandLine, tail]
  | cons a arguments ih =>
    have hsplit : path ++ tail (a :: arguments) = (path ++ 0x20 :: quoted a) ++ tail arguments := by
      rw [tail_cons]
      simp
    have hstep : commandLine path (a :: arguments) =
        commandLine (addArgument path a) arguments := rfl
    by_cases hroom : path.length + 1 + (quoted a).length < cmdlineCapacity
    · rw [hstep, addArgument, if_pos hroom, hsplit]
      refine (ih _).imp_right ?_
      rintro ⟨b, hb, hle⟩
      exact ⟨b, List.mem_cons_of_mem a hb, hle⟩
    · rw [hstep, addArgument, if_neg hroom]
      refine .inr ⟨a, List.mem_cons_self, ?_⟩
      have hle : (commandLine path arguments).length ≤ (path ++ tail arguments).length := by
        rcases ih path with heq | ⟨b, -, hle⟩
        · rw [heq]
        · omega
      rw [tail_cons]
      simp only [List.length_append, List.length_cons] at hle ⊢
      omega

/-- An argument that the kernel reads as the shell wrote it. -/
def Deliverable (a : List UInt8) : Prop :=
  a ≠ [] ∧ if needsQuotes a then 0x22 ∉ a else ∀ c ∈ a, isQuote c = false

instance (a : List UInt8) : Decidable (Deliverable a) := by
  unfold Deliverable
  infer_instance

variable {a : List UInt8}

lemma splitWord_append (ha : ∀ c ∈ a, isSpecial c = false) (rest : List UInt8) :
    splitWord (a ++ rest) none = (a ++ (splitWord rest none).1, (splitWord rest none).2) := by
  induction a with
  | nil => rfl
  | cons c a ih =>
    rw [List.forall_mem_cons, isSpecial, Bool.or_eq_false_iff] at ha
    rw [List.cons_append, splitWord, ha.1.1, ha.1.2, ih ha.2]
    rfl

lemma splitWord_inside {quote : UInt8} (ha : quote ∉ a) (rest : List UInt8) :
    splitWord (a ++ quote :: rest) (some quote) =
        (a ++ (splitWord rest none).1, (splitWord rest none).2) ∧
      dropped (a ++ quote :: rest) (some quote) = dropped rest none + 1 := by
  induction a with
  | nil => simp [splitWord, dropped]
  | cons c a ih =>
    rw [List.mem_cons, not_or] at ha
    obtain ⟨hword, hdropped⟩ := ih ha.2
    have hne := Ne.symm ha.1
    rw [List.cons_append, splitWord, dropped, if_neg hne, if_neg hne, hword, hdropped]
    exact ⟨rfl, rfl⟩

lemma Deliverable.splitWord (h : Deliverable a) (rest : List UInt8) :
    Shoot.splitWord (quoted a ++ rest) none =
      (a ++ (Shoot.splitWord rest none).1, (Shoot.splitWord rest none).2) := by
  obtain ⟨-, hquotes⟩ := h
  unfold quoted
  split at hquotes
  · next hneeds =>
    rw [if_pos hneeds, List.cons_append, List.append_assoc, List.singleton_append,
      Shoot.splitWord, if_pos (show isQuote 0x22 from rfl)]
    exact (splitWord_inside hquotes rest).1
  · next hneeds =>
    rw [if_neg hneeds]
    apply splitWord_append
    intro c hc
    have hblank : isBlank c = false := by
      rw [← Bool.not_eq_true]
      exact fun hblank => hneeds (List.any_eq_true.mpr ⟨c, hc, hblank⟩)
    rw [isSpecial, hblank, hquotes c hc]
    rfl

lemma quoted_head (ha : a ≠ []) : ∃ c rest, quoted a = c :: rest ∧ isBlank c = false := by
  unfold quoted
  split
  · exact ⟨0x22, _, rfl, rfl⟩
  · next hneeds =>
    obtain ⟨c, rest, rfl⟩ := List.exists_cons_of_ne_nil ha
    refine ⟨c, rest, rfl, ?_⟩
    rw [← Bool.not_eq_true]
    exact fun hblank => hneeds (List.any_eq_true.mpr ⟨c, List.mem_cons_self, hblank⟩)

lemma skipSpaces_quoted (ha : a ≠ []) (rest : List UInt8) :
    skipSpaces (quoted a ++ rest) = quoted a ++ rest := by
  obtain ⟨c, more, hquoted, hblank⟩ := quoted_head ha
  rw [hquoted, List.cons_append, skipSpaces, List.dropWhile_cons_of_neg (by simp [hblank])]

variable {n : Nat}

lemma splitWords_quoted (h : Deliverable a)
    (arguments : List (List UInt8)) (hnext : ∀ b ∈ arguments.head?, b ≠ []) :
    splitWords (n + 1) (quoted a ++ tail arguments) =
      a :: match arguments with
        | [] => []
        | b :: more => splitWords n (quoted b ++ tail more) := by
  obtain ⟨c, rest, hquoted, -⟩ := quoted_head h.1
  have hword := h.splitWord (tail arguments)
  rw [hquoted, List.cons_append] at hword
  rw [hquoted, List.cons_append, splitWords, hword]
  cases arguments with
  | nil =>
    have hnone : splitWords n (skipSpaces []) = [] := by cases n <;> rfl
    simp [tail, Shoot.splitWord, hnone]
  | cons b more =>
    have hblank : Shoot.splitWord (tail (b :: more)) none = ([], quoted b ++ tail more) := by
      rw [tail_cons]
      rfl
    rw [hblank, List.append_nil, skipSpaces_quoted (hnext b (by simp))]

lemma splitWords_delivered {n : Nat} {a : List UInt8} {arguments : List (List UInt8)}
    (ha : Deliverable a) (harguments : ∀ b ∈ arguments, Deliverable b)
    (hn : arguments.length < n) : splitWords n (quoted a ++ tail arguments) = a :: arguments := by
  induction arguments generalizing n a with
  | nil =>
    obtain ⟨n, rfl⟩ := Nat.exists_eq_succ_of_ne_zero (Nat.ne_of_gt hn)
    rw [splitWords_quoted ha [] (by simp)]
  | cons b more ih =>
    rw [List.forall_mem_cons] at harguments
    rw [List.length_cons] at hn
    obtain ⟨n, rfl⟩ := Nat.exists_eq_succ_of_ne_zero (show n ≠ 0 by omega)
    rw [splitWords_quoted ha (b :: more) (by simpa using harguments.1.1)]
    exact congrArg (a :: ·) (ih harguments.1 harguments.2 (by omega))

def Balanced (a : List UInt8) : Prop := cost a = spent a

lemma Balanced.ne_nil (h : Balanced a) : a ≠ [] := by
  rintro rfl
  cases h

lemma Balanced.plain (h : Balanced a) (hneeds : needsQuotes a = false) :
    ∀ c ∈ a, isQuote c = false := by
  intro c hc
  rw [← Bool.not_eq_true]
  intro hquote
  unfold Balanced cost spent at h
  rw [if_pos (.inr (List.any_eq_true.mpr ⟨c, hc, by simp [isSpecial, hquote]⟩)), hneeds] at h
  cases h

variable {arguments : List (List UInt8)}

lemma tail_length_eq (h : ∀ a ∈ arguments, Balanced a) :
    (tail arguments).length = weight arguments := by
  induction arguments with
  | nil => rfl
  | cons a arguments ih =>
    rw [List.forall_mem_cons] at h
    have hcost : cost a = spent a := h.1
    rw [tail_cons, weight_cons, List.length_cons, List.length_append, quoted_length, ih h.2, hcost]
    omega

lemma dropped_eq_two (hneeds : needsQuotes a = true) (harguments : ∀ b ∈ arguments, Balanced b)
    (h : splitWords n (quoted a ++ tail arguments) = a :: arguments) :
    (splitWord (0x22 :: (a ++ 0x22 :: tail arguments)) none).1 = a ∧
      dropped (0x22 :: (a ++ 0x22 :: tail arguments)) none = 2 := by
  have htext : quoted a ++ tail arguments = 0x22 :: (a ++ 0x22 :: tail arguments) := by
    simp [quoted, hneeds]
  cases n with
  | zero => cases h
  | succ n =>
    rw [htext, splitWords] at h
    obtain ⟨hword, hrest⟩ := List.cons.inj h
    refine ⟨hword, ?_⟩
    obtain ⟨hcount, hend⟩ := splitWord_count (0x22 :: (a ++ 0x22 :: tail arguments)) none
    have hparity := dropped_parity (0x22 :: (a ++ 0x22 :: tail arguments)) none
    have hpos : dropped (0x22 :: (a ++ 0x22 :: tail arguments)) none ≠ 0 := by
      rw [dropped, if_pos (show isQuote 0x22 from rfl)]
      omega
    have hweight := @weight_splitWords n
      (skipSpaces (splitWord (0x22 :: (a ++ 0x22 :: tail arguments)) none).2)
      fun c more hc => skipSpaces_head hc
    have hskip := skipSpaces_length (splitWord (0x22 :: (a ++ 0x22 :: tail arguments)) none).2
    have hnone : (splitWord (0x22 :: (a ++ 0x22 :: tail arguments)) none).2 = [] →
        (tail arguments).length = 0 := by
      intro hnil
      rw [hnil] at hrest
      have hempty : arguments = [] := by
        rw [← hrest]
        cases n <;> rfl
      simp [hempty, tail]
    rw [hrest, ← tail_length_eq harguments] at hweight
    rw [hword] at hcount
    cases hstop : stopOf (0x22 :: (a ++ 0x22 :: tail arguments)) none with
    | blank =>
      simp [hstop, Stop.bytes] at hcount hparity
      omega
    | finish =>
      have hnil := hend (by simp [hstop])
      have hzero := hnone hnil
      simp [hstop, Stop.bytes, hnil] at hcount
      omega
    | unclosed =>
      have hnil := hend (by simp [hstop])
      have hzero := hnone hnil
      simp [hstop, Stop.bytes, hnil] at hcount hparity
      omega

lemma not_mem_of_splitWords
    (hneeds : needsQuotes a = true) (harguments : ∀ b ∈ arguments, Balanced b)
    (h : splitWords n (quoted a ++ tail arguments) = a :: arguments) : 0x22 ∉ a := by
  intro hmem
  obtain ⟨hword, htwo⟩ := dropped_eq_two hneeds harguments h
  obtain ⟨u, v, ha, hu⟩ := List.eq_append_cons_of_mem hmem
  obtain ⟨hinside, hdropped⟩ := splitWord_inside hu (v ++ 0x22 :: tail arguments)
  have htext : a ++ 0x22 :: tail arguments = u ++ 0x22 :: (v ++ 0x22 :: tail arguments) := by
    simp [ha]
  rw [splitWord, if_pos (show isQuote 0x22 from rfl), htext, hinside, ha] at hword
  rw [dropped, if_pos (show isQuote 0x22 from rfl), htext, hdropped] at htwo
  have hplain := splitWord_plain_of_dropped (Nat.add_right_cancel (Nat.add_right_cancel htwo))
  rw [List.append_cancel_left hword] at hplain
  exact Bool.noConfusion (hplain 0x22 List.mem_cons_self)

lemma splitWords_argument (hbalanced : Balanced a) (harguments : ∀ b ∈ arguments, Balanced b)
    (h : splitWords n (quoted a ++ tail arguments) = a :: arguments) : Deliverable a := by
  refine ⟨hbalanced.ne_nil, ?_⟩
  cases hneeds : needsQuotes a with
  | true => exact not_mem_of_splitWords hneeds harguments h
  | false => exact hbalanced.plain hneeds

lemma deliverable_of_splitWords (ha : Balanced a) (harguments : ∀ b ∈ arguments, Balanced b)
    (h : splitWords n (quoted a ++ tail arguments) = a :: arguments) :
    Deliverable a ∧ ∀ b ∈ arguments, Deliverable b := by
  induction arguments generalizing n a with
  | nil => exact ⟨splitWords_argument ha harguments h, by simp⟩
  | cons b more ih =>
    have hdeliverable := splitWords_argument ha harguments h
    refine ⟨hdeliverable, ?_⟩
    rw [List.forall_mem_cons] at harguments ⊢
    cases n with
    | zero => cases h
    | succ n =>
      have hnext : ∀ d ∈ (b :: more).head?, d ≠ [] := by
        simpa using harguments.1.ne_nil
      rw [splitWords_quoted hdeliverable (b :: more) hnext] at h
      exact ih harguments.1 harguments.2 (List.cons.inj h).2

variable {used : Nat} {text rest : List UInt8}

lemma scanWord_nonzero
    (h : scanWord used text s = some (s', rest)) (htext : 0 ∉ text) (hs : 0 ∉ s.word) :
    0 ∉ s'.word ∧ 0 ∉ rest := by
  induction text generalizing s with
  | nil =>
    obtain ⟨rfl, rfl⟩ := Prod.mk.inj (Option.some.inj h)
    exact ⟨hs, htext⟩
  | cons value text ih =>
    have htail : 0 ∉ text := fun hmem => htext (List.mem_cons_of_mem value hmem)
    unfold scanWord at h
    split at h
    · exact ih h htail hs
    split at h
    · exact ih h htail hs
    split at h
    · obtain ⟨rfl, rfl⟩ := Prod.mk.inj (Option.some.inj h)
      exact ⟨hs, htext⟩
    split at h
    · cases h
    · have hvalue : (0 : UInt8) ≠ value := fun heq => htext (heq ▸ List.mem_cons_self)
      exact ih h htail (by simp [Scan.push, hs, hvalue])

variable {used' : Nat}

lemma parseWord_nonzero (h : parseWord used text = some (word, rest, used')) (htext : 0 ∉ text) :
    0 ∉ word.text ∧ 0 ∉ rest := by
  unfold parseWord at h
  split at h
  · cases h
  · next s rest' hscan =>
    split at h
    · cases h
    · obtain ⟨hword, hrest⟩ := Prod.mk.inj (Option.some.inj h)
      obtain ⟨rfl, -⟩ := Prod.mk.inj hrest
      subst hword
      exact scanWord_nonzero hscan htext (by simp)

lemma skipSpaces_nonzero (h : 0 ∉ text) : 0 ∉ skipSpaces text :=
  fun hmem => h ((List.dropWhile_sublist _).subset hmem)

lemma redirectTarget_nonzero (h : 0 ∉ rest) : 0 ∉ (redirectTarget rest).2 := by
  unfold redirectTarget
  split
  · exact skipSpaces_nonzero fun hmem => h (List.mem_of_mem_drop hmem)
  · exact skipSpaces_nonzero h

def Words.Formed (w : Words) : Prop :=
  w.words.length ≤ maxArguments + 1 ∧ ∀ word ∈ w.words, 0 ∉ word

lemma wordsFrom_formed {w w' : Words}
    (h : wordsFrom used text w = .ok w') (htext : 0 ∉ text) (hw : w.Formed) : w'.Formed := by
  fun_induction wordsFrom used text w with
  | case1 used w =>
    cases h
    exact hw
  | case2 | case3 | case4 | case5 | case7 | case8 => cases h
  | case6 used w rest houtput htarget word after used' hword hempty ih =>
    have hrest : 0 ∉ rest := fun hmem => htext (List.mem_cons_of_mem _ hmem)
    obtain ⟨-, hafter⟩ := parseWord_nonzero hword (redirectTarget_nonzero hrest)
    exact ih h (skipSpaces_nonzero hafter) hw
  | case9 used w c rest hc hcount word after used' hword ih =>
    obtain ⟨htext', hafter⟩ := parseWord_nonzero hword htext
    apply ih h (skipSpaces_nonzero hafter)
    obtain ⟨hlength, hwords⟩ := hw
    refine ⟨?_, ?_⟩
    · simp only [List.length_append, List.length_singleton]
      omega
    · intro word' hmem
      rcases List.mem_append.mp hmem with hmem | hmem
      · exact hwords word' hmem
      · rw [List.mem_singleton.mp hmem]
        exact htext'

variable {line : List UInt8} {command : Command}

lemma parseCommand_formed (h : parseCommand line = .ok command) (hline : 0 ∉ line) :
    command.arguments.length ≤ maxArguments ∧ 0 ∉ command.name ∧
      ∀ a ∈ command.arguments, 0 ∉ a := by
  unfold parseCommand at h
  split at h
  · cases h
  split at h
  · cases h
  · next w hwords =>
    obtain ⟨hlength, hzero⟩ :=
      wordsFrom_formed hwords (skipSpaces_nonzero hline) ⟨by simp, by simp⟩
    split at h
    · cases h
    · next name arguments heq =>
      cases h
      rw [heq, List.length_cons] at hlength
      rw [heq, List.forall_mem_cons] at hzero
      exact ⟨Nat.le_of_succ_le_succ hlength, hzero⟩

lemma quoted_nonzero {a : List UInt8} (h : 0 ∉ a) : 0 ∉ quoted a := by
  unfold quoted
  split
  · simp [h]
  · exact h

variable {path : List UInt8} {arguments : List (List UInt8)}

lemma commandLine_nonzero (hpath : 0 ∉ path)
    (harguments : ∀ a ∈ arguments, 0 ∉ a) : 0 ∉ commandLine path arguments := by
  induction arguments generalizing path with
  | nil => exact hpath
  | cons a arguments ih =>
    rw [List.forall_mem_cons] at harguments
    apply ih _ harguments.2
    unfold addArgument
    split
    · simp [hpath, quoted_nonzero harguments.1]
    · exact hpath

variable {c : UInt8}

lemma commandLine_head (h : path.head? = some c)
    (arguments : List (List UInt8)) : (commandLine path arguments).head? = some c := by
  induction arguments generalizing path with
  | nil => exact h
  | cons a arguments ih =>
    apply ih
    unfold addArgument
    split
    · rw [List.head?_append, h, Option.some_or]
    · exact h

lemma commandLine_of_fits {path : List UInt8} {arguments : List (List UInt8)}
    (h : (path ++ tail arguments).length < cmdlineCapacity) :
    commandLine path arguments = path ++ tail arguments := by
  induction arguments generalizing path with
  | nil => simp [commandLine, tail]
  | cons a arguments ih =>
    have hsplit : path ++ tail (a :: arguments) = (path ++ 0x20 :: quoted a) ++ tail arguments := by
      rw [tail_cons]
      simp
    have hroom : path.length + 1 + (quoted a).length < cmdlineCapacity := by
      rw [hsplit] at h
      simp only [List.length_append, List.length_cons] at h
      omega
    have hadd : addArgument path a = path ++ 0x20 :: quoted a := if_pos hroom
    rw [hsplit] at h ⊢
    rw [← ih h, ← hadd]
    rfl

lemma executablePath_cases {name : List UInt8} (h : executablePath name = some path) :
    path.head? = some 0x2f ∧ (0 ∉ name → 0 ∉ path) ∧
      (path = pathOf name ∨ processCommandLineCapacity ≤ (pathOf name).length) := by
  unfold executablePath at h
  split at h
  · next hhead =>
    obtain rfl := Option.some.inj h
    refine ⟨?_, fun hzero hmem => hzero (List.mem_of_mem_take hmem), ?_⟩
    · rw [List.head?_take, hhead]
      rfl
    · rw [pathOf, if_pos hhead]
      by_cases hlength : name.length ≤ pathCapacity - 1
      · exact .inl (List.take_of_length_le hlength)
      · simp only [pathCapacity] at hlength
        exact .inr (by simp only [processCommandLineCapacity]; omega)
  · next hhead =>
    split at h
    · cases h
    · obtain rfl := Option.some.inj h
      exact ⟨rfl, fun hzero => by simp [binDirectory, hzero], .inl (by rw [pathOf, if_neg hhead])⟩

lemma splitWord_sublist (text : List UInt8) (quote : Option UInt8) :
    (splitWord text quote).1.Sublist text ∧ (splitWord text quote).2.Sublist text := by
  induction text, quote using splitWord.induct with
  | case1 quote => simp [splitWord]
  | case2 rest quote ih =>
    simp only [splitWord, if_true]
    exact ⟨ih.1.cons quote, ih.2.cons quote⟩
  | case3 c rest quote hne ih =>
    simp only [splitWord, hne, if_false]
    exact ⟨ih.1.cons_cons c, ih.2.cons c⟩
  | case4 c rest hquote ih =>
    simp only [splitWord, hquote, if_true]
    exact ⟨ih.1.cons c, ih.2.cons c⟩
  | case5 c rest hquote hblank => simp [splitWord, hquote, hblank]
  | case6 c rest hquote hblank ih =>
    simp only [splitWord, hquote, hblank, if_false, Bool.false_eq_true]
    exact ⟨ih.1.cons_cons c, ih.2.cons c⟩

lemma splitWords_nonzero (n : Nat) (h : 0 ∉ text) :
    (splitWords n text).length ≤ n ∧ ∀ word ∈ splitWords n text, 0 ∉ word := by
  induction n generalizing text with
  | zero => simp [splitWords]
  | succ n ih =>
    cases text with
    | nil => simp [splitWords]
    | cons c rest =>
      obtain ⟨hword, hrest⟩ := splitWord_sublist (c :: rest) none
      obtain ⟨hlength, hwords⟩ := ih (skipSpaces_nonzero fun hmem => h (hrest.subset hmem))
      rw [splitWords, List.length_cons, List.forall_mem_cons]
      exact ⟨by omega, fun hmem => h (hword.subset hmem), hwords⟩

lemma stringBytes_le_weight (words : List (List UInt8)) : stringBytes words ≤ weight words := by
  induction words with
  | nil => exact le_rfl
  | cons word words ih =>
    rw [stringBytes_cons, weight_cons]
    omega

lemma processSpawn_eq {env : Surroundings} (hhead : text.head? = some 0x2f) :
    processSpawn env text =
      if processCommandLineCapacity ≤ text.length ∨
        env.admits (splitWords processMaxArguments text) = false then none
      else setupUserStackArgs env.frame (splitWords processMaxArguments text) := by
  obtain ⟨rest, rfl⟩ := List.head?_eq_some_iff.mp hhead
  unfold processSpawn
  by_cases hlong : processCommandLineCapacity ≤ (0x2f :: rest : List UInt8).length
  · rw [if_pos (.inr hlong), if_pos (.inl hlong)]
  · have htake : (0x2f :: rest : List UInt8).take (processCommandLineCapacity - 1) =
        0x2f :: rest := List.take_of_length_le (by omega)
    have hskip : skipSpaces (0x2f :: rest) = 0x2f :: rest := rfl
    have hparse : parseSpawnCmdline (0x2f :: rest) =
        some (splitWords processMaxArguments (0x2f :: rest)) := by
      unfold parseSpawnCmdline
      simp only [htake, hskip]
      exact if_neg (List.cons_ne_nil _ _)
    have hfirst : (splitWords processMaxArguments (0x2f :: rest)).head? ≠ some [] := by
      rw [processMaxArguments, splitWords, splitWord, if_neg (by decide), if_neg (by decide)]
      simp
    rw [if_neg (by simpa using hlong), hparse]
    simp only [hfirst, hlong, false_or]

lemma setupUserStackArgs_words (hhead : text.head? = some 0x2f)
    (hzero : 0 ∉ text) (hshort : text.length < processCommandLineCapacity) :
    ∃ stack, setupUserStackArgs frame (splitWords processMaxArguments text) = some stack ∧
      stack.arguments = splitWords processMaxArguments text := by
  obtain ⟨hcount, hwords⟩ := splitWords_nonzero processMaxArguments hzero
  have hweight : weight (splitWords processMaxArguments text) ≤ text.length + 2 := by
    apply weight_splitWords
    rintro c rest rfl
    obtain rfl := Option.some.inj hhead
    rfl
  have hbytes := stringBytes_le_weight (splitWords processMaxArguments text)
  apply setupUserStackArgs_spec frame _ hwords
  simp only [processCommandLineCapacity] at hshort
  simp only [processMaxArguments] at hcount hweight hbytes ⊢
  omega

def openSurroundings : Surroundings := ⟨fun _ => true, fun _ => true, fun _ => true, Buf.zero⟩

lemma arguments_iff (hpath : executablePath command.name = some path) (hname : 0 ∉ command.name)
    (harguments : ∀ a ∈ command.arguments, 0 ∉ a) (words : List (List UInt8)) :
    (∀ env stack, executeExternal env command = some stack → stack.arguments = words) ↔
      processCommandLineCapacity ≤ (commandLine path command.arguments).length ∨
      splitWords processMaxArguments (commandLine path command.arguments) = words := by
  obtain ⟨hhead, hzero, -⟩ := executablePath_cases hpath
  have hline := commandLine_nonzero (hzero hname) harguments
  have hlineHead := commandLine_head hhead command.arguments
  by_cases hlong : processCommandLineCapacity ≤ (commandLine path command.arguments).length
  · refine iff_of_true ?_ (.inl hlong)
    intro env stack h
    simp only [executeExternal, hpath, processSpawn_eq hlineHead, hlong, true_or, if_true,
      ite_self, reduceCtorEq] at h
  have hstack := fun frame => setupUserStackArgs_words frame hlineHead hline (by omega)
  constructor
  · intro h
    obtain ⟨stack, hsetup, hwords⟩ := hstack Buf.zero
    have hstart : executeExternal openSurroundings command = some stack := by
      simp [executeExternal, openSurroundings, hpath, processSpawn_eq hlineHead, hlong, hsetup]
    exact .inr (hwords.symm.trans (h _ stack hstart))
  · rintro (hlong' | hwords) env stack h
    · exact absurd hlong' hlong
    obtain ⟨stack', hsetup, hstackWords⟩ := hstack env.frame
    rw [executeExternal, hpath] at h
    simp only [processSpawn_eq hlineHead, hlong, false_or, hsetup] at h
    split at h
    · cases h
    split at h
    · cases h
    split at h
    · cases h
    · rw [← Option.some.inj h, hstackWords, hwords]

/-- Nothing is started, or the path and every argument come through. -/
def Command.Delivered (command : Command) : Prop :=
  ∀ path, executablePath command.name = some path →
    processCommandLineCapacity ≤ (commandLine path command.arguments).length ∨
    path = pathOf command.name ∧ (∀ c ∈ path, isSpecial c = false) ∧
      (path ++ tail command.arguments).length < processCommandLineCapacity ∧
      ∀ a ∈ command.arguments, Deliverable a

lemma balanced_of_weight {arguments : List (List UInt8)}
    (h : weight arguments ≤ (tail arguments).length + 1) : ∀ a ∈ arguments, Balanced a := by
  induction arguments with
  | nil => simp
  | cons a arguments ih =>
    have hle := spent_le_cost a
    have htail := tail_length_le arguments
    rw [tail_cons, weight_cons, List.length_cons, List.length_append, quoted_length] at h
    have heven : cost a = 0 ∨ cost a = 2 := by unfold cost; split <;> simp
    have heven' : spent a = 0 ∨ spent a = 2 := by unfold spent; split <;> simp
    rw [List.forall_mem_cons]
    exact ⟨by unfold Balanced; omega, ih (by omega)⟩

section

variable (h : ∀ c ∈ path, isSpecial c = false)

include h

lemma plain_needsQuotes : needsQuotes path = false := by
  rw [← Bool.not_eq_true]
  intro hneeds
  obtain ⟨c, hc, hblank⟩ := List.any_eq_true.mp hneeds
  have hplain := h c hc
  simp [isSpecial, hblank] at hplain

lemma plain_quoted : quoted path = path := by
  rw [quoted, plain_needsQuotes h]
  rfl

lemma plain_balanced (hne : path ≠ []) : Balanced path := by
  have hany : path.any isSpecial = false := by simpa using h
  rw [Balanced, cost, spent, plain_needsQuotes h, hany]
  simp [hne]

lemma plain_deliverable (hne : path ≠ []) : Deliverable path := by
  refine ⟨hne, ?_⟩
  rw [plain_needsQuotes h]
  intro c hc
  have hplain := h c hc
  rw [isSpecial, Bool.or_eq_false_iff] at hplain
  exact hplain.2

end

lemma balanced_of_splitWords (hhead : path.head? = some 0x2f) {n : Nat}
    (h : splitWords n (commandLine path arguments) = path :: arguments) :
    commandLine path arguments = path ++ tail arguments ∧ (∀ c ∈ path, isSpecial c = false) ∧
      ∀ a ∈ arguments, Balanced a := by
  have hweight := @weight_splitWords n (commandLine path arguments) (by
    intro c rest heq
    have hlineHead := commandLine_head hhead arguments
    rw [heq] at hlineHead
    obtain rfl := Option.some.inj hlineHead
    rfl)
  rw [h, weight_cons] at hweight
  have htail := tail_length_le arguments
  have hpathCost : cost path = 0 → ∀ c ∈ path, isSpecial c = false := by
    intro hcost c hc
    rw [← Bool.not_eq_true]
    intro hspecial
    rw [cost, if_pos (.inr (List.any_eq_true.mpr ⟨c, hc, hspecial⟩))] at hcost
    cases hcost
  have heven : cost path = 0 ∨ cost path = 2 := by unfold cost; split <;> simp
  rcases commandLine_cases path arguments with hall | ⟨a, ha, hmissing⟩
  · rw [hall, List.length_append] at hweight
    exact ⟨hall, hpathCost (by omega), balanced_of_weight (by omega)⟩
  · rw [List.length_append, quoted_length] at hmissing
    have hbalanced := @balanced_of_weight arguments (by omega) a ha
    have hnil := List.length_pos_iff.mpr hbalanced.ne_nil
    omega

lemma splitWords_first_length {n : Nat} {word : List UInt8} {words : List (List UInt8)}
    (h : splitWords n text = word :: words) : word.length ≤ text.length := by
  cases n with
  | zero => cases h
  | succ n =>
    cases text with
    | nil => cases h
    | cons c rest =>
      rw [← (List.cons.inj h).1]
      exact (splitWord_sublist (c :: rest) none).1.length_le

/-- The child gets the words of the line, whatever it meets, exactly if its
command can be delivered. -/
theorem arguments_delivered_iff {line : List UInt8} {command : Command} (hline : 0 ∉ line)
    (hparse : parseCommand line = .ok command) :
    (∀ env stack, executeExternal env command = some stack →
        stack.arguments = pathOf command.name :: command.arguments) ↔
      command.Delivered := by
  obtain ⟨hcount, hname, harguments⟩ := parseCommand_formed hparse hline
  unfold Command.Delivered
  cases hpath : executablePath command.name with
  | none =>
    refine iff_of_true ?_ (by simp)
    intro env stack h
    rw [executeExternal, hpath] at h
    cases h
  | some path =>
    obtain ⟨hhead, -, hsame⟩ := executablePath_cases hpath
    have hne : path ≠ [] := by
      rintro rfl
      cases hhead
    rw [arguments_iff hpath hname harguments]
    simp only [Option.some.injEq, forall_eq']
    by_cases hlong : processCommandLineCapacity ≤ (commandLine path command.arguments).length
    · exact iff_of_true (.inl hlong) (.inl hlong)
    apply or_congr_right
    constructor
    · intro hwords
      have hfirst := splitWords_first_length hwords
      obtain rfl : path = pathOf command.name := hsame.resolve_right (by omega)
      obtain ⟨hall, hplain, hbalanced⟩ := balanced_of_splitWords hhead hwords
      refine ⟨rfl, hplain, by rw [← hall]; omega, ?_⟩
      have hsplit : splitWords processMaxArguments
          (quoted (pathOf command.name) ++ tail command.arguments) =
          pathOf command.name :: command.arguments := by
        rw [plain_quoted hplain, ← hall, hwords]
      exact (deliverable_of_splitWords (plain_balanced hplain hne) hbalanced hsplit).2
    · rintro ⟨hpathOf, hplain, hfits, hdeliverable⟩
      have hall := @commandLine_of_fits path command.arguments (by
        simp only [processCommandLineCapacity, cmdlineCapacity] at hfits ⊢
        omega)
      rw [hall, ← hpathOf]
      have hwords := @splitWords_delivered processMaxArguments path command.arguments
        (plain_deliverable hplain hne) hdeliverable
        (by simp only [processMaxArguments, maxArguments] at hcount ⊢; omega)
      rwa [plain_quoted hplain] at hwords

/-- The line `ls "a b"`. -/
def quotedLine : List UInt8 := [0x6c, 0x73, 0x20, 0x22, 0x61, 0x20, 0x62, 0x22]

lemma wordsFrom_word {after : List UInt8}
    {w : Words} (hc : c ≠ 0x3e) (hcount : w.words.length ≠ maxArguments + 1)
    (h : parseWord used (c :: rest) = some (word, after, used')) : wordsFrom used (c :: rest) w =
      wordsFrom used' (skipSpaces after) { w with words := w.words ++ [word.text] } := by
  rw [wordsFrom, if_neg hc, if_neg hcount]
  split
  · next hnone => simp [h] at hnone
  · next word' after' used'' hsome =>
    rw [h] at hsome
    cases hsome
    rfl

lemma parseCommand_two_words {name argument : Word} {d : UInt8}
    {more : List UInt8} (hline : skipSpaces line = c :: rest)
    (hc : c ≠ 0x3e) (hname : parseWord 0 (c :: rest) = some (name, more, used))
    (hmore : ∃ after, skipSpaces more = d :: after ∧
      parseWord used (d :: after) = some (argument, [], used')) (hd : d ≠ 0x3e) :
    parseCommand line = .ok ⟨name.text, [argument.text], none⟩ := by
  obtain ⟨after, hafter, hargument⟩ := hmore
  have hwords : wordsFrom 0 (c :: rest) ⟨[], none⟩ =
      .ok ⟨[name.text, argument.text], none⟩ := by
    rw [wordsFrom_word hc (by simp [maxArguments]) hname, hafter,
      wordsFrom_word hd (by simp [maxArguments]) hargument]
    simp [skipSpaces, wordsFrom]
  rw [parseCommand, hline, if_neg (List.cons_ne_nil c rest), hwords]

lemma parseCommand_quotedLine :
    parseCommand quotedLine = .ok ⟨[0x6c, 0x73], [[0x61, 0x20, 0x62]], none⟩ := by
  have hname : parseWord 0 quotedLine =
      some (⟨[0x6c, 0x73], true⟩, quotedLine.drop 2, 3) := by decide +kernel
  have hargument : parseWord 3 (quotedLine.drop 3) =
      some (⟨[0x61, 0x20, 0x62], true⟩, [], 7) := by decide +kernel
  exact parseCommand_two_words rfl (by decide) hname ⟨_, rfl, hargument⟩ (by decide)

/-- An argument with a blank in it. -/
theorem quotedLine_delivered :
    0 ∉ quotedLine ∧ parseCommand quotedLine = .ok ⟨[0x6c, 0x73], [[0x61, 0x20, 0x62]], none⟩ ∧
    ∀ env stack, executeExternal env ⟨[0x6c, 0x73], [[0x61, 0x20, 0x62]], none⟩ = some stack →
      stack.arguments = pathOf [0x6c, 0x73] :: [[0x61, 0x20, 0x62]] :=
  ⟨by decide, parseCommand_quotedLine,
    (arguments_delivered_iff (by decide) parseCommand_quotedLine).mpr
      (by intro path h; obtain rfl := Option.some.inj h; exact .inr (by decide +kernel))⟩

/-- The line `ls ''`. -/
def emptyLine : List UInt8 := [0x6c, 0x73, 0x20, 0x27, 0x27]

/-- An empty argument is not among the words that the kernel finds. -/
theorem empty_argument_lost : parseCommand emptyLine = .ok ⟨[0x6c, 0x73], [[]], none⟩ ∧
    (executeExternal openSurroundings ⟨[0x6c, 0x73], [[]], none⟩).map Stack.arguments =
      some [pathOf [0x6c, 0x73]] := by
  have hname : parseWord 0 emptyLine =
      some (⟨[0x6c, 0x73], true⟩, emptyLine.drop 2, 3) := by decide +kernel
  have hargument : parseWord 3 (emptyLine.drop 3) = some (⟨[], true⟩, [], 4) := by decide +kernel
  exact ⟨parseCommand_two_words rfl (by decide) hname ⟨_, rfl, hargument⟩ (by decide),
    by decide +kernel⟩

end Mangrove.Shoot
