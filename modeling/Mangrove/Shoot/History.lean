import Mangrove.Lib.Steps

/-! The command history of the line editor: a ring of strings, filled up to a limit that may
be smaller, and its file of one line for each entry. It should hold the last texts. -/

namespace Mangrove.Shoot

/-- The storage is seen as one string per slot. -/
structure History where
  slots : Nat → List UInt8
  entryCapacity : Nat
  capacity : Nat
  storageCapacity : Nat
  count : Nat
  first : Nat
  enabled : Bool

def lineEditorHistoryInit (slots : Nat → List UInt8) (entryCapacity capacity : Nat) : History where
  slots := slots
  entryCapacity := entryCapacity
  capacity := capacity
  storageCapacity := capacity
  count := 0
  first := 0
  enabled := true

def cut (entryCapacity : Nat) (text : List UInt8) : List UInt8 := text.take (entryCapacity - 1)

def lineEditorHistoryAddText (h : History) (text : List UInt8) : Bool × History :=
  if h.enabled = false ∨ h.capacity = 0 ∨ h.storageCapacity = 0 ∨ h.entryCapacity = 0 ∨
      text.length = 0 then (false, h)
  else if h.count < h.capacity then
    (true, { h with
      count := h.count + 1
      slots := Function.update h.slots ((h.first + h.count) % h.storageCapacity)
        (cut h.entryCapacity text) })
  else
    (true, { h with
      first := (h.first + 1) % h.storageCapacity
      slots := Function.update h.slots h.first (cut h.entryCapacity text) })

def lineEditorHistorySetCapacity (h : History) (capacity : Nat) : Bool × History :=
  if h.storageCapacity < capacity then (false, h)
  else if capacity = 0 then (true, { h with capacity := 0, count := 0, first := 0 })
  else if capacity < h.count then
    (true, { h with
      first := (h.first + (h.count - capacity)) % h.storageCapacity
      count := capacity
      capacity := capacity })
  else (true, { h with capacity := capacity })

def lineEditorHistoryAt (h : History) (index : Nat) : Option (List UInt8) :=
  if h.count ≤ index ∨ h.storageCapacity = 0 then none
  else some (h.slots ((h.first + index) % h.storageCapacity))

def History.entries (h : History) : List (List UInt8) :=
  (List.range h.count).filterMap (lineEditorHistoryAt h)

/-- The calls that change or read a history. -/
inductive Call where
  | add (text : List UInt8)
  | setCapacity (capacity : Nat)

def History.call (h : History) : Call → History
  | .add text => (lineEditorHistoryAddText h text).2
  | .setCapacity capacity => (lineEditorHistorySetCapacity h capacity).2

def Call.Valid (storage : Nat) : Call → Prop
  | .add text => text ≠ []
  | .setCapacity capacity => 0 < capacity ∧ capacity ≤ storage

def History.play (h : History) (calls : List Call) : History := calls.foldl History.call h

/-- The lines that can be recalled, and how many of them are kept. -/
structure Recall where
  texts : List (List UInt8)
  limit : Nat

def Recall.keep (texts : List (List UInt8)) (limit : Nat) : Recall :=
  ⟨texts.drop (texts.length - limit), limit⟩

def Recall.call (entryCapacity : Nat) (r : Recall) : Call → Recall
  | .add text => .keep (r.texts ++ [cut entryCapacity text]) r.limit
  | .setCapacity capacity => .keep r.texts capacity

def Recall.play (entryCapacity : Nat) (r : Recall) (calls : List Call) : Recall :=
  calls.foldl (Recall.call entryCapacity) r

section

variable {slots : Nat → List UInt8} {storage first n : Nat}

def window (slots : Nat → List UInt8) (storage first n : Nat) : List (List UInt8) :=
  (List.range n).map fun i => slots ((first + i) % storage)

lemma window_length : (window slots storage first n).length = n := by
  simp [window]

lemma window_succ : window slots storage first (n + 1) =
    window slots storage first n ++ [slots ((first + n) % storage)] := by
  rw [window, List.range_succ, List.map_append]
  rfl

lemma slot_ne {i j : Nat} (hij : i < j) (hj : j < i + storage) :
    (first + i) % storage ≠ (first + j) % storage :=
  mod_ne (Nat.add_lt_add_left hij first) (by omega)

variable {text : List UInt8}

lemma window_update {k : Nat} (hk : n ≤ k) (hlt : k < storage) :
    window (Function.update slots ((first + k) % storage) text) storage first n =
      window slots storage first n := by
  apply List.map_congr_left
  intro i hi
  rw [List.mem_range] at hi
  exact Function.update_of_ne (slot_ne (by omega) (by omega)) _ _

lemma window_behind (hfirst : first < storage) (hn : n < storage) :
    window (Function.update slots first text) storage ((first + 1) % storage) n =
      window slots storage ((first + 1) % storage) n := by
  apply List.map_congr_left
  intro i hi
  rw [List.mem_range] at hi
  have hne := @slot_ne storage first 0 (1 + i) (by omega) (by omega)
  rw [Nat.add_zero, Nat.mod_eq_of_lt hfirst] at hne
  rw [Nat.mod_add_mod, Nat.add_assoc]
  exact Function.update_of_ne hne.symm _ _

lemma window_drop (d : Nat) : (window slots storage first (d + n)).drop d =
    window slots storage ((first + d) % storage) n := by
  apply List.ext_getElem
  · simp [window]
  · intro i hi hi'
    simp only [window, List.getElem_drop, List.getElem_map, List.getElem_range, Nat.mod_add_mod,
      Nat.add_assoc]

end

/-- An enabled history whose counters lie within its storage. -/
structure Formed (storage entryCapacity : Nat) (h : History) : Prop where
  enabled : h.enabled = true
  modulus : h.storageCapacity = storage
  entry : h.entryCapacity = entryCapacity
  first : h.first < storage
  count : h.count ≤ h.capacity
  positive : 0 < h.capacity
  capacity : h.capacity ≤ storage

/-- The slot behind the newest entry is the one the text is written to, or holds
it already. -/
def Call.Fits (h : History) : Call → Prop
  | .add text => h.count < h.capacity ∨ h.capacity = h.storageCapacity ∨
      h.slots ((h.first + h.count) % h.storageCapacity) = cut h.entryCapacity text
  | .setCapacity _ => True

section

variable {storage entryCapacity : Nat} {h : History}

lemma Formed.entries_eq (hf : Formed storage entryCapacity h) :
    h.entries = window h.slots storage h.first h.count := by
  have hpos := hf.first
  have hstorage := hf.modulus
  rw [History.entries, window, ← List.filterMap_eq_map]
  apply List.filterMap_congr
  intro i hi
  rw [List.mem_range] at hi
  rw [lineEditorHistoryAt, if_neg (by omega), hf.modulus]
  rfl

variable {c : Call}

section

variable (hf : Formed storage entryCapacity h)

include hf

lemma Formed.call (hc : c.Valid storage) : Formed storage entryCapacity (h.call c) := by
  obtain ⟨henabled, hstorage, hentry, hfirst, hcount, hpositive, hcapacity⟩ := hf
  have hmod (i : Nat) : i % h.storageCapacity < storage := by
    rw [hstorage]
    exact Nat.mod_lt _ (by omega)
  cases c with
  | add text =>
    unfold History.call lineEditorHistoryAddText
    dsimp only
    split
    · exact ⟨henabled, hstorage, hentry, hfirst, hcount, hpositive, hcapacity⟩
    split
    · next hroom => exact ⟨henabled, hstorage, hentry, hfirst, hroom, hpositive, hcapacity⟩
    · exact ⟨henabled, hstorage, hentry, hmod _, hcount, hpositive, hcapacity⟩
  | setCapacity capacity =>
    obtain ⟨hpos, hle⟩ := hc
    unfold History.call lineEditorHistorySetCapacity
    dsimp only
    rw [if_neg (by omega), if_neg (by omega)]
    split
    · exact ⟨henabled, hstorage, hentry, hmod _, le_rfl, hpos, hle⟩
    · exact ⟨henabled, hstorage, hentry, hfirst, by dsimp only; omega, hpos, hle⟩

lemma Formed.entries_add (hentry : 0 < entryCapacity)
    {text : List UInt8} (htext : text ≠ []) : (h.call (.add text)).entries =
        ((Recall.mk h.entries h.capacity).call entryCapacity (.add text)).texts ↔
      (Call.add text).Fits h := by
  have hnext := hf.call (c := .add text) htext
  have hlength : text.length ≠ 0 := by simpa using htext
  have hstorage := hf.modulus
  have hfirst := hf.first
  have hcount := hf.count
  have hcapacity := hf.capacity
  have hpositive := hf.positive
  have hsame := hf.entry
  rw [hnext.entries_eq, Recall.call, Recall.keep, hf.entries_eq]
  dsimp only [Call.Fits]
  have hcall : h.call (.add text) = if h.count < h.capacity then
      { h with
        count := h.count + 1
        slots := Function.update h.slots ((h.first + h.count) % h.storageCapacity)
          (cut h.entryCapacity text) }
      else { h with
        first := (h.first + 1) % h.storageCapacity
        slots := Function.update h.slots h.first (cut h.entryCapacity text) } := by
    unfold History.call lineEditorHistoryAddText
    dsimp only
    rw [if_neg (by rw [hf.enabled]; simp only [Bool.true_eq_false, false_or]; omega)]
    split <;> rfl
  rw [hcall, List.length_append, window_length, List.length_singleton]
  split
  · next hroom =>
    refine iff_of_true ?_ (.inl hroom)
    dsimp only
    rw [window_succ, hstorage, window_update le_rfl (by omega), Function.update_self, hsame,
      show h.count + 1 - h.capacity = 0 by omega, List.drop_zero]
  · next hroom =>
    obtain ⟨m, hm⟩ : ∃ m, h.count = 1 + m := ⟨h.count - 1, by omega⟩
    dsimp only
    rw [hstorage, hsame, show h.count + 1 - h.capacity = 1 by omega,
      List.drop_append_of_le_length (by rw [window_length]; omega), hm, window_drop 1,
      Nat.add_comm 1 m, window_succ, window_behind hfirst (by omega), List.append_cancel_left_eq,
      List.singleton_inj, Nat.mod_add_mod]
    by_cases hwhole : h.capacity = storage
    · have hhere : (h.first + 1 + m) % storage = h.first := by
        rw [show h.first + 1 + m = h.first + storage by omega, Nat.add_mod_right,
          Nat.mod_eq_of_lt hfirst]
      rw [hhere]
      exact iff_of_true (Function.update_self _ _ _) (.inr (.inl hwhole))
    · have hne := @slot_ne storage h.first 0 (1 + m) (by omega) (by omega)
      rw [Nat.add_zero, Nat.mod_eq_of_lt hfirst, ← Nat.add_assoc] at hne
      rw [Function.update_of_ne hne.symm, Nat.add_comm m 1, ← Nat.add_assoc]
      constructor
      · exact fun hslot => .inr (.inr hslot)
      · rintro (hlt | hcap | hslot)
        · omega
        · exact absurd hcap hwhole
        · exact hslot

lemma Formed.entries_setCapacity {capacity : Nat}
    (hc : (Call.setCapacity capacity).Valid storage) : (h.call (.setCapacity capacity)).entries =
      ((Recall.mk h.entries h.capacity).call entryCapacity (.setCapacity capacity)).texts := by
  have hnext := hf.call hc
  obtain ⟨hpos, hle⟩ := hc
  have hstorage := hf.modulus
  have hcall : h.call (.setCapacity capacity) = if capacity < h.count then
      { h with
        first := (h.first + (h.count - capacity)) % h.storageCapacity
        count := capacity
        capacity := capacity }
      else { h with capacity := capacity } := by
    unfold History.call lineEditorHistorySetCapacity
    dsimp only
    rw [if_neg (by omega), if_neg (by omega)]
    split <;> rfl
  rw [hnext.entries_eq, Recall.call, Recall.keep, hf.entries_eq, hcall, window_length]
  split
  · next hlt =>
    obtain ⟨d, hd⟩ : ∃ d, h.count = d + capacity := ⟨h.count - capacity, by omega⟩
    rw [hd, Nat.add_sub_cancel, window_drop, hstorage]
  · rw [show h.count - capacity = 0 by omega, List.drop_zero]

lemma Formed.entries_call (hentry : 0 < entryCapacity) (hc : c.Valid storage) :
    (h.call c).entries = ((Recall.mk h.entries h.capacity).call entryCapacity c).texts ↔
      c.Fits h := by
  cases c with
  | add text => exact hf.entries_add hentry hc
  | setCapacity capacity => exact iff_of_true (hf.entries_setCapacity hc) trivial

lemma Formed.limit_call (hc : c.Valid storage) (texts : List (List UInt8)) :
    ((Recall.mk texts h.capacity).call entryCapacity c).limit = (h.call c).capacity := by
  have hstorage := hf.modulus
  cases c with
  | add text =>
    unfold History.call lineEditorHistoryAddText
    dsimp only [Recall.call, Recall.keep]
    split_ifs <;> rfl
  | setCapacity capacity =>
    obtain ⟨hpos, hle⟩ := hc
    unfold History.call lineEditorHistorySetCapacity
    dsimp only [Recall.call, Recall.keep]
    rw [if_neg (by omega), if_neg (by omega)]
    split_ifs <;> rfl

end

end

variable {storage entryCapacity : Nat} {h : History} {calls : List Call}

lemma Formed.play (hf : Formed storage entryCapacity h)
    (hcalls : ∀ c ∈ calls, c.Valid storage) : Formed storage entryCapacity (h.play calls) := by
  induction calls generalizing h with
  | nil => exact hf
  | cons c calls ih =>
    rw [List.forall_mem_cons] at hcalls
    exact ih (hf.call hcalls.1) hcalls.2

lemma formed_init (hstorage : 0 < storage) (slots : Nat → List UInt8) :
    Formed storage entryCapacity (lineEditorHistoryInit slots entryCapacity storage) :=
  ⟨rfl, rfl, rfl, hstorage, Nat.zero_le _, hstorage, le_rfl⟩

def InOrder (h : History) (calls : List Call) : Prop :=
  ∀ done, done <+: calls →
    (h.play done).entries = (Recall.play h.entryCapacity ⟨h.entries, h.capacity⟩ done).texts

abbrev AllFit : History → List Call → Prop := AllFine History.call fun h c => c.Fits h

lemma inOrder_cons {c : Call} :
    InOrder h (c :: calls) ↔ ∀ done, done <+: calls → ((h.call c).play done).entries =
      (Recall.play h.entryCapacity
        ((Recall.mk h.entries h.capacity).call h.entryCapacity c) done).texts := by
  constructor
  · intro hall done hdone
    exact hall (c :: done) ((List.prefix_cons_inj c).mpr hdone)
  · intro hall done hdone
    cases done with
    | nil => rfl
    | cons d done =>
      obtain ⟨rfl, hrest⟩ := List.cons_prefix_cons.mp hdone
      exact hall done hrest

lemma inOrder_iff (hf : Formed storage entryCapacity h) (hentry : 0 < entryCapacity)
    (hcalls : ∀ c ∈ calls, c.Valid storage) : InOrder h calls ↔ AllFit h calls := by
  induction calls generalizing h with
  | nil =>
    refine iff_of_true (fun done hdone => ?_) trivial
    rw [List.prefix_nil.mp hdone]
    rfl
  | cons c calls ih =>
    rw [List.forall_mem_cons] at hcalls
    have hnext := hf.call hcalls.1
    have hone := hf.entries_call hentry hcalls.1
    have hlimit := hf.limit_call hcalls.1 h.entries
    have hrecall (hfirst : (h.call c).entries =
        ((Recall.mk h.entries h.capacity).call entryCapacity c).texts) :
        (Recall.mk h.entries h.capacity).call entryCapacity c =
          ⟨(h.call c).entries, (h.call c).capacity⟩ := by
      rw [hfirst, ← hlimit]
    show _ ↔ c.Fits h ∧ AllFit (h.call c) calls
    rw [inOrder_cons, ← hone, ← ih hnext hcalls.2, InOrder, hnext.entry, hf.entry]
    constructor
    · intro hall
      have hfirst := hall [] List.nil_prefix
      rw [hrecall hfirst] at hall
      exact ⟨hfirst, hall⟩
    · rintro ⟨hfirst, hall⟩
      rw [hrecall hfirst]
      exact hall

def historyEntryCapacity : Nat := 512

def rewriteFile (h : History) : Option (List UInt8) :=
  ((List.range h.count).mapM (lineEditorHistoryAt h)).map fun entries =>
    entries.flatMap fun entry => entry ++ [0x0a]

def withoutReturn (line : List UInt8) : List UInt8 :=
  if line.getLast? = some 0x0d then line.dropLast else line

def loadLine (h : History) (line : List UInt8) : History :=
  if withoutReturn line = [] then h else (lineEditorHistoryAddText h (withoutReturn line)).2

/-- The variables of `load_file`. -/
structure Loading where
  history : History
  line : List UInt8
  oversized : Bool

def loadByte (s : Loading) (character : UInt8) : Loading :=
  if character = 0x0a then
    ⟨if s.oversized then s.history else loadLine s.history s.line, [], false⟩
  else if s.oversized then s
  else if historyEntryCapacity ≤ s.line.length + 1 then { s with oversized := true }
  else { s with line := s.line ++ [character] }

def loadFile (h : History) (contents : List UInt8) : History :=
  let s := contents.foldl loadByte ⟨h, [], false⟩
  if s.line ≠ [] ∧ s.oversized = false then loadLine s.history s.line else s.history

/-- An empty history as `shoot_history_init` sets it up, there with 4096 slots. -/
def freshHistory (storage limit : Nat) : History :=
  (lineEditorHistorySetCapacity
    (lineEditorHistoryInit (fun _ => []) historyEntryCapacity storage) limit).2

lemma foldl_loadByte {line text : List UInt8} (hnewline : 0x0a ∉ text)
    (hlength : line.length + text.length < historyEntryCapacity) :
    text.foldl loadByte ⟨h, line, false⟩ = ⟨h, line ++ text, false⟩ := by
  induction text generalizing line with
  | nil => rw [List.append_nil, List.foldl_nil]
  | cons c text ih =>
    rw [List.mem_cons, not_or] at hnewline
    rw [List.length_cons] at hlength
    have hbyte : loadByte ⟨h, line, false⟩ c = ⟨h, line ++ [c], false⟩ := by
      unfold loadByte
      rw [if_neg (Ne.symm hnewline.1), if_neg Bool.false_ne_true, if_neg (by simp only; omega)]
    rw [List.foldl_cons, hbyte, ih hnewline.2 (by simp; omega), List.append_assoc]
    rfl

def LineOk (entry : List UInt8) : Prop :=
  0x0a ∉ entry ∧ entry.length < historyEntryCapacity

variable {entries : List (List UInt8)}

lemma loadFile_lines (hentries : ∀ e ∈ entries, LineOk e) :
    loadFile h (entries.flatMap fun e => e ++ [0x0a]) = entries.foldl loadLine h := by
  have hfold : (entries.flatMap fun e => e ++ [0x0a]).foldl loadByte ⟨h, [], false⟩ =
      ⟨entries.foldl loadLine h, [], false⟩ := by
    induction entries generalizing h with
    | nil => rfl
    | cons e entries ih =>
      rw [List.forall_mem_cons] at hentries
      rw [List.flatMap_cons, List.foldl_append, List.foldl_append,
        foldl_loadByte hentries.1.1 (by simpa using hentries.1.2), List.foldl_cons, List.foldl_nil,
        List.foldl_cons, List.nil_append]
      exact ih hentries.2
  rw [loadFile, hfold]
  rfl

lemma withoutReturn_length (line : List UInt8) : (withoutReturn line).length ≤ line.length := by
  unfold withoutReturn
  split
  · rw [List.length_dropLast]
    omega
  · exact le_rfl

variable {text : List UInt8}

lemma Formed.add_room {entryCapacity : Nat} (hf : Formed storage entryCapacity h)
    (hentry : 0 < entryCapacity) (hroom : h.count < h.capacity) (htext : text ≠ []) :
    (lineEditorHistoryAddText h text).2.entries = h.entries ++ [cut entryCapacity text] ∧
      (lineEditorHistoryAddText h text).2.count = h.count + 1 ∧
      (lineEditorHistoryAddText h text).2.capacity = h.capacity := by
  have hlength : h.entries.length = h.count := by
    rw [hf.entries_eq, window_length]
  have hentries := (hf.entries_add hentry htext).mpr (.inl hroom)
  dsimp only [Recall.call, Recall.keep] at hentries
  rw [List.length_append, hlength, List.length_singleton,
    show h.count + 1 - h.capacity = 0 by omega, List.drop_zero] at hentries
  have hcapacity := hf.capacity
  have hsize : text.length ≠ 0 := by simpa using htext
  refine ⟨hentries, ?_⟩
  unfold lineEditorHistoryAddText
  rw [if_neg (by rw [hf.enabled, hf.modulus, hf.entry]; simp only [Bool.true_eq_false, false_or]; omega),
    if_pos hroom]
  exact ⟨rfl, rfl⟩

lemma foldl_loadLine (hf : Formed storage historyEntryCapacity h) {lines : List (List UInt8)}
    (hlines : ∀ e ∈ lines, LineOk e) (hroom : h.count + lines.length ≤ h.capacity) :
    (lines.foldl loadLine h).entries =
      h.entries ++ (lines.map withoutReturn).filter (· ≠ []) := by
  induction lines generalizing h with
  | nil => simp
  | cons line lines ih =>
    rw [List.forall_mem_cons] at hlines
    rw [List.length_cons] at hroom
    rw [List.foldl_cons, loadLine]
    split
    · next hempty =>
      rw [ih hf hlines.2 (by omega), List.map_cons, hempty]
      simp
    · next htext =>
      have hshort := withoutReturn_length line
      have hlt := hlines.1.2
      obtain ⟨hentries, hcount, hcapacity⟩ := hf.add_room (by decide) (by omega) htext
      have hnext : Formed storage historyEntryCapacity
          (lineEditorHistoryAddText h (withoutReturn line)).2 :=
        hf.call (c := .add (withoutReturn line)) htext
      have hcut : cut historyEntryCapacity (withoutReturn line) = withoutReturn line :=
        List.take_of_length_le (by omega)
      rw [ih hnext hlines.2 (by rw [hcount, hcapacity]; omega), hentries, hcut, List.map_cons,
        List.filter_cons_of_pos (by simpa using htext), List.append_assoc]
      rfl

lemma mapM_of_some {α β : Type} {f : α → Option β} {g : α → β} {l : List α}
    (h : ∀ x ∈ l, f x = some (g x)) : l.mapM f = some (l.map g) := by
  induction l with
  | nil => rfl
  | cons x l ih =>
    rw [List.forall_mem_cons] at h
    rw [List.mapM_cons, h.1, ih h.2]
    rfl

lemma Formed.rewriteFile_eq {entryCapacity : Nat} (hf : Formed storage entryCapacity h) :
    rewriteFile h = some (h.entries.flatMap fun e => e ++ [0x0a]) := by
  have hstorage := hf.modulus
  have hfirst := hf.first
  have hat : ∀ i ∈ List.range h.count, lineEditorHistoryAt h i =
      some (h.slots ((h.first + i) % storage)) := by
    intro i hi
    rw [List.mem_range] at hi
    rw [lineEditorHistoryAt, if_neg (by omega), hstorage]
  rw [rewriteFile, mapM_of_some hat, hf.entries_eq]
  rfl

lemma formed_fresh {limit : Nat} (hpos : 0 < limit) (hle : limit ≤ storage) :
    Formed storage historyEntryCapacity (freshHistory storage limit) ∧
      (freshHistory storage limit).capacity = limit ∧ (freshHistory storage limit).count = 0 := by
  have hinit : Formed storage historyEntryCapacity
      (lineEditorHistoryInit (fun _ => []) historyEntryCapacity storage) :=
    formed_init (by omega) _
  refine ⟨hinit.call (c := .setCapacity limit) ⟨hpos, hle⟩, ?_⟩
  have hroom := Nat.not_lt.mpr hle
  simp [freshHistory, lineEditorHistorySetCapacity, lineEditorHistoryInit, hroom, hpos.ne']

lemma Formed.reload (hf : Formed storage historyEntryCapacity h)
    (hentries : ∀ e ∈ h.entries, LineOk e) :
    (loadFile (freshHistory storage h.capacity) (h.entries.flatMap fun e => e ++ [0x0a])).entries =
      (h.entries.map withoutReturn).filter (· ≠ []) := by
  obtain ⟨hfresh, hcapacity, hcount⟩ := formed_fresh hf.positive hf.capacity
  have hlength : h.entries.length = h.count := by
    rw [hf.entries_eq, window_length]
  have hempty : (freshHistory storage h.capacity).entries = [] := by
    rw [History.entries, hcount]
    rfl
  have hle := hf.count
  rw [loadFile_lines hentries, foldl_loadLine hfresh hentries (by omega), hempty, List.nil_append]

lemma flatten_withoutReturn (entries : List (List UInt8)) :
    (entries.map withoutReturn).flatten.length ≤ entries.flatten.length ∧
      ((entries.map withoutReturn).flatten.length = entries.flatten.length →
        ∀ e ∈ entries, e.getLast? ≠ some 0x0d) := by
  induction entries with
  | nil => simp
  | cons e entries ih =>
    have hle := withoutReturn_length e
    rw [List.map_cons, List.flatten_cons, List.flatten_cons, List.length_append,
      List.length_append, List.forall_mem_cons]
    refine ⟨by omega, fun heq => ⟨fun hreturn => ?_, ih.2 (by omega)⟩⟩
    have hne : e ≠ [] := by
      rintro rfl
      cases hreturn
    have hpos := List.length_pos_iff.mpr hne
    rw [withoutReturn, if_pos hreturn, List.length_dropLast] at heq
    omega

lemma stripped_eq_iff (hentries : ∀ e ∈ entries, e ≠ []) :
    (entries.map withoutReturn).filter (· ≠ []) = entries ↔
      ∀ e ∈ entries, e.getLast? ≠ some 0x0d := by
  constructor
  · intro heq
    apply (flatten_withoutReturn entries).2
    conv_rhs => rw [← heq]
    rw [List.flatten_filter_ne_nil]
  · intro hreturn
    have hmap : entries.map withoutReturn = entries := by
      conv_rhs => rw [← List.map_id entries]
      apply List.map_congr_left
      intro e he
      exact if_neg (hreturn e he)
    rw [hmap, List.filter_eq_self]
    intro e he
    simpa using hentries e he

def Plain (text : List UInt8) : Prop := 0x0a ∉ text ∧ text.getLast? ≠ some 0x0d

def Reloads (h : History) (calls : List Call) : Prop :=
  ∀ done, done <+: calls → ∃ file, rewriteFile (h.play done) = some file ∧
    (loadFile (freshHistory h.storageCapacity (h.play done).capacity) file).entries =
      (Recall.play h.entryCapacity ⟨h.entries, h.capacity⟩ done).texts

lemma mem_recall {r : Recall} (h : text ∈ (r.play entryCapacity calls).texts) :
    text ∈ r.texts ∨ ∃ whole, Call.add whole ∈ calls ∧ text = cut entryCapacity whole := by
  induction calls generalizing r with
  | nil => exact .inl h
  | cons c calls ih =>
    rcases ih (r := r.call entryCapacity c) h with hmem | ⟨whole, hwhole, rfl⟩
    · cases c with
      | add whole =>
        rcases List.mem_append.mp (List.mem_of_mem_drop hmem) with hmem | hmem
        · exact .inl hmem
        · exact .inr ⟨whole, List.mem_cons_self, List.mem_singleton.mp hmem⟩
      | setCapacity capacity => exact .inl (List.mem_of_mem_drop hmem)
    · exact .inr ⟨whole, List.mem_cons_of_mem _ hwhole, rfl⟩

lemma mem_recall_add {r : Recall} (h : 0 < r.limit) :
    cut entryCapacity text ∈ (r.call entryCapacity (.add text)).texts := by
  dsimp only [Recall.call, Recall.keep]
  rw [List.drop_append_of_le_length (by simp; omega)]
  exact List.mem_append_right _ List.mem_cons_self

lemma recall_limit {storage : Nat} {h : History} (hf : Formed storage entryCapacity h)
    (hcalls : ∀ c ∈ calls, c.Valid storage) (texts : List (List UInt8)) :
    ((Recall.mk texts h.capacity).play entryCapacity calls).limit = (h.play calls).capacity := by
  induction calls generalizing h texts with
  | nil => rfl
  | cons c calls ih =>
    rw [List.forall_mem_cons] at hcalls
    have hlimit := hf.limit_call hcalls.1 texts
    have hrest := ih (hf.call hcalls.1) hcalls.2
      ((Recall.mk texts h.capacity).call entryCapacity c).texts
    rw [← hlimit] at hrest
    exact hrest

lemma reloads_iff {storage : Nat} {h : History} (hf : Formed storage historyEntryCapacity h)
    (hempty : h.entries = []) (hcalls : ∀ c ∈ calls, c.Valid storage)
    (hplain : ∀ text, Call.add text ∈ calls → Plain text) (horder : InOrder h calls) :
    Reloads h calls ↔
      ∀ text, Call.add text ∈ calls → (cut historyEntryCapacity text).getLast? ≠ some 0x0d := by
  have hvalid {done : List Call} (hdone : done <+: calls) : ∀ c ∈ done, c.Valid storage :=
    fun c hc => hcalls c (hdone.subset hc)
  have hentries {done : List Call} (hdone : done <+: calls) : ∀ e ∈ (h.play done).entries,
      LineOk e ∧ e ≠ [] ∧ ∃ text, Call.add text ∈ calls ∧ e = cut historyEntryCapacity text := by
    intro e he
    rw [horder done hdone, hf.entry, hempty] at he
    obtain hnil | ⟨text, htext, rfl⟩ := mem_recall he
    · cases hnil
    · have hmem := hdone.subset htext
      have hne := hcalls _ hmem
      have hpos := List.length_pos_iff.mpr hne
      refine ⟨⟨fun hnewline => (hplain text hmem).1 (List.mem_of_mem_take hnewline), ?_⟩, ?_,
        text, hmem, rfl⟩
      · have hlength : (cut historyEntryCapacity text).length ≤ 511 := List.length_take_le _ _
        exact Nat.lt_succ_of_le hlength
      · rw [← List.length_pos_iff, cut, List.length_take]
        simp only [historyEntryCapacity]
        omega
  have hreload {done : List Call} (hdone : done <+: calls) :
      (∃ file, rewriteFile (h.play done) = some file ∧
        (loadFile (freshHistory h.storageCapacity (h.play done).capacity) file).entries =
          (Recall.play h.entryCapacity ⟨h.entries, h.capacity⟩ done).texts) ↔
        ∀ e ∈ (h.play done).entries, e.getLast? ≠ some 0x0d := by
    have hplay := hf.play (hvalid hdone)
    rw [← stripped_eq_iff fun e he => (hentries hdone e he).2.1,
      ← hplay.reload fun e he => (hentries hdone e he).1, hplay.rewriteFile_eq, hf.modulus,
      ← horder done hdone]
    simp
  constructor
  · intro hall text htext
    obtain ⟨before, after, rfl⟩ := List.append_of_mem htext
    have hdone : before ++ [Call.add text] <+: before ++ Call.add text :: after :=
      ⟨after, by simp⟩
    apply (hreload hdone).mp (hall _ hdone)
    have hbefore := hvalid ((List.prefix_append before [Call.add text]).trans hdone)
    rw [horder _ hdone, hf.entry, Recall.play, List.foldl_append]
    apply mem_recall_add
    have hlimit := recall_limit hf hbefore h.entries
    rw [Recall.play] at hlimit
    rw [hlimit]
    exact (hf.play hbefore).positive
  · intro hreturn done hdone
    rw [hreload hdone]
    intro e he
    obtain ⟨-, -, text, htext, rfl⟩ := hentries hdone e he
    exact hreturn text htext

/-- From an empty history on, the entries are the last texts in order exactly if
every call fits; and then, for texts of one line, the file gives them back
exactly if none of them is cut behind a carriage return. -/
theorem history_in_order_iff {storage entryCapacity : Nat} (hstorage : 0 < storage)
    (hentry : 0 < entryCapacity) (slots : Nat → List UInt8) {calls : List Call}
    (hcalls : ∀ c ∈ calls, c.Valid storage) :
    (InOrder (lineEditorHistoryInit slots entryCapacity storage) calls ↔
      AllFit (lineEditorHistoryInit slots entryCapacity storage) calls) ∧
    (entryCapacity = historyEntryCapacity → (∀ text, Call.add text ∈ calls → Plain text) →
      AllFit (lineEditorHistoryInit slots entryCapacity storage) calls →
      (Reloads (lineEditorHistoryInit slots entryCapacity storage) calls ↔
        ∀ text, Call.add text ∈ calls → (cut historyEntryCapacity text).getLast? ≠ some 0x0d)) := by
  have hinit : Formed storage entryCapacity (lineEditorHistoryInit slots entryCapacity storage) :=
    formed_init hstorage slots
  have horder := inOrder_iff hinit hentry hcalls
  refine ⟨horder, fun hsame hplain hfit => ?_⟩
  subst hsame
  exact reloads_iff hinit rfl hcalls hplain (horder.mpr hfit)

def roomyCalls : List Call := [.add [0x6c, 0x73], .setCapacity 2, .add [0x70, 0x77, 0x64]]

/-- Calls for which the history has room. -/
theorem roomyCalls_in_order :
    InOrder (lineEditorHistoryInit (fun _ => []) historyEntryCapacity 3) roomyCalls ∧
      Reloads (lineEditorHistoryInit (fun _ => []) historyEntryCapacity 3) roomyCalls := by
  have hvalid : ∀ c ∈ roomyCalls, c.Valid 3 := by simp [roomyCalls, Call.Valid]
  have hfit : AllFit (lineEditorHistoryInit (fun _ => []) historyEntryCapacity 3) roomyCalls :=
    ⟨.inl (by decide), trivial, .inl (by decide), trivial⟩
  obtain ⟨horder, hreload⟩ :=
    @history_in_order_iff 3 historyEntryCapacity (by decide) (by decide) (fun _ => []) _ hvalid
  exact ⟨horder.mpr hfit, (hreload rfl (by simp [roomyCalls, Plain]) hfit).mpr
    (by simp [roomyCalls, cut, historyEntryCapacity])⟩

/-- With three slots and a limit of two, the third text is written over the
first and an unused slot is shown as the newest entry. -/
theorem newest_entry_lost : ((lineEditorHistoryInit (fun _ => []) historyEntryCapacity 3).play
        [.setCapacity 2, .add [0x61], .add [0x62], .add [0x63]]).entries = [[0x62], []] ∧
      (Recall.play historyEntryCapacity ⟨[], 3⟩
        [.setCapacity 2, .add [0x61], .add [0x62], .add [0x63]]).texts = [[0x62], [0x63]] := by
  decide

end Mangrove.Shoot
