import Mangrove.Bytes

/-! The handle table of a process, and the map of capabilities it stands for. A handle packs
a slot number and the slot's generation; the first one can be redirected and restored. -/

namespace Mangrove.Handles

open Function (update update_eq_self update_idem update_of_ne update_self)

open Prog (wp wp_bind wp_get_bind wp_modify_bind wp_require wp_upFrom)

inductive ObjectType where
  | invalid
  | process
  | thread
  | file
  | directory
  | console
  | networkIcmp
  | networkDatagram
  | networkStream
  | ipcEndpoint
  | ipcRequest
deriving DecidableEq

/-- What the handle table reads of an `object_t`. -/
structure KernelObject where
  address : Nat
  type : ObjectType
deriving DecidableEq

def rightRead : UInt32 := 1

def rightWrite : UInt32 := 2

abbrev Handle := UInt32

def initialConsoleHandle : Handle := 0x00010001

/-- A `process_handle_slot_t`. -/
structure Slot where
  object : Option KernelObject
  rights : UInt32
  generation : UInt16
  active : Bool

/-- The fields of `process_t` that the handle functions use, with the reference
counts of the objects. -/
structure Process where
  active : Bool
  slots : Nat → Slot
  outputRedirected : Bool
  redirectedOutputSavedHandle : Handle
  refCount : KernelObject → Nat

abbrev HandleProg := Prog Process Unit

def processHandleSlots : Nat := 16

def encodeHandle (index : Nat) (generation : UInt16) : Handle :=
  generation.toUInt32 <<< 16 ||| (UInt32.ofNat index + 1)

def decodeHandle (handle : Handle) : Option (Nat × UInt16) :=
  let slot := handle &&& 0xffff
  let generation := (handle >>> 16).toUInt16
  if slot = 0 ∨ generation = 0 then none else some ((slot - 1).toNat, generation)

variable {i : Nat}

lemma toNat_encodeHandle (hi : i < 65535) (g : UInt16) :
    (encodeHandle i g).toNat = (i + 1) + 2 ^ 16 * g.toNat := by
  have hg := g.toNat_lt
  have hslot : (UInt32.ofNat i + 1).toNat = i + 1 := by
    rw [UInt32.toNat_add, UInt32.toNat_ofNat_of_lt' (by have : UInt32.size = 4294967296 := rfl; omega)]
    show (i + 1) % 2 ^ 32 = i + 1
    omega
  have hgen : (g.toUInt32 <<< 16).toNat = g.toNat <<< 16 := by
    rw [UInt32.toNat_shiftLeft, UInt16.toNat_toUInt32]
    show g.toNat <<< 16 % 2 ^ 32 = _
    rw [Nat.shiftLeft_eq]
    omega
  rw [encodeHandle, UInt32.toNat_or, hslot, hgen, Nat.or_comm, or_shift_eq_add (by omega)]

lemma slot_toNat (h : Handle) : (h &&& 0xffff).toNat = h.toNat % 2 ^ 16 := by
  rw [UInt32.toNat_and]
  exact Nat.and_two_pow_sub_one_eq_mod _ 16

lemma generation_toNat (h : Handle) : (h >>> 16).toUInt16.toNat = h.toNat / 2 ^ 16 := by
  have := h.toNat_lt
  rw [UInt32.toNat_toUInt16, UInt32.toNat_shiftRight]
  show h.toNat >>> 16 % 2 ^ 16 = _
  rw [Nat.shiftRight_eq_div_pow]
  omega

variable {g : UInt16}

lemma decodeHandle_encode (hi : i < 65535) (hg : g ≠ 0) :
    decodeHandle (encodeHandle i g) = some (i, g) := by
  have h := toNat_encodeHandle hi g
  have hslot := slot_toNat (encodeHandle i g)
  have hgen := generation_toNat (encodeHandle i g)
  rw [h] at hslot hgen
  have hg' : (encodeHandle i g >>> 16).toUInt16 = g := UInt16.toNat_inj.mp (by omega)
  have hne : encodeHandle i g &&& 0xffff ≠ 0 := fun h0 => by
    rw [h0] at hslot
    simp at hslot
    omega
  unfold decodeHandle
  simp only [hg', hne, hg, or_self, if_false]
  rw [UInt32.toNat_sub_of_le _ _ ?_, hslot]
  · show some ((i + 1 + 2 ^ 16 * g.toNat) % 2 ^ 16 - 1, g) = _
    congr 2
    omega
  · rw [UInt32.le_iff_toNat_le, hslot]
    show 1 ≤ _
    omega

lemma decodeHandle_some {h : Handle} (hd : decodeHandle h = some (i, g)) :
    h = encodeHandle i g ∧ g ≠ 0 := by
  unfold decodeHandle at hd
  simp only at hd
  split at hd
  · cases hd
  · next hne =>
    push Not at hne
    have hslot := slot_toNat h
    have hgen := generation_toNat h
    obtain ⟨rfl, rfl⟩ := Prod.mk.inj (Option.some.inj hd)
    have hpos : (h &&& 0xffff).toNat ≠ 0 := fun h0 => hne.1 (UInt32.toNat_inj.mp h0)
    have hsub : ((h &&& 0xffff) - 1).toNat = h.toNat % 2 ^ 16 - 1 := by
      rw [UInt32.toNat_sub_of_le _ _ ?_, hslot]
      · rfl
      · rw [UInt32.le_iff_toNat_le]
        show 1 ≤ _
        omega
    refine ⟨UInt32.toNat_inj.mp ?_, hne.2⟩
    rw [hsub, toNat_encodeHandle (by omega), hgen]
    omega

lemma encodeHandle_inj {j : Nat} {g' : UInt16} (hi : i < 65535) (hj : j < 65535)
    (h : encodeHandle i g = encodeHandle j g') : i = j ∧ g = g' := by
  have hnat := congrArg UInt32.toNat h
  rw [toNat_encodeHandle hi, toNat_encodeHandle hj] at hnat
  exact ⟨by omega, UInt16.toNat_inj.mp (by omega)⟩

def objectReference (object : KernelObject) : HandleProg Unit := do
  let p ← Prog.get
  Prog.require (p.refCount object ≠ 0 ∧ p.refCount object ≠ 2 ^ 32 - 1) ()
  Prog.modify fun p =>
    { p with refCount := update p.refCount object (p.refCount object + 1) }

def objectRelease (object : KernelObject) : HandleProg Unit :=
  Prog.modify fun p =>
    { p with refCount := update p.refCount object (p.refCount object - 1) }

def releaseAny : Option KernelObject → HandleProg Unit
  | none => pure ()
  | some object => objectRelease object

def setSlot (index : Nat) (slot : Slot) : HandleProg Unit :=
  Prog.modify fun p => { p with slots := update p.slots index slot }

def Slot.cleared (slot : Slot) : Slot := { slot with object := none, rights := 0, active := false }

def nextGeneration (generation : UInt16) : UInt16 :=
  if generation + 1 = 0 then 1 else generation + 1

def processHandleInstall (object : KernelObject) (rights : UInt32) : HandleProg Handle := do
  let p ← Prog.get
  Prog.require (p.active = true ∧ p.refCount object ≠ 0 ∧
    rights &&& ~~~(rightRead ||| rightWrite) = 0) ()
  match (List.range processHandleSlots).find? fun i => !(p.slots i).active with
  | none => Prog.fail ()
  | some i => do
    objectReference object
    let generation := nextGeneration (p.slots i).generation
    setSlot i ⟨some object, rights, generation, true⟩
    return encodeHandle i generation

def slotOf (p : Process) (handle : Handle) : Option Nat :=
  match decodeHandle handle with
  | none => none
  | some (index, generation) =>
    if index < processHandleSlots ∧ (p.slots index).active = true ∧
        (p.slots index).generation = generation then some index
    else none

def processHandleLookupAny (p : Process) (handle : Handle) (type : ObjectType)
    (requiredRights : UInt32) : Option KernelObject :=
  match slotOf p handle with
  | none => none
  | some index =>
    match (p.slots index).object with
    | none => none
    | some object =>
      if (type = .invalid ∨ object.type = type) ∧
          (p.slots index).rights &&& requiredRights = requiredRights then some object
      else none

def processHandleLookup (p : Process) (handle : Handle) (type : ObjectType)
    (requiredRights : UInt32) : Option KernelObject :=
  if p.active = true then processHandleLookupAny p handle type requiredRights else none

def optional {α : Type} (x : HandleProg α) : HandleProg (Option α) := fun p =>
  match x p with
  | (.ok a, p') => (.ok (some a), p')
  | (.error _, p') => (.ok none, p')

def processHandleLookupReference (handle : Handle) (type : ObjectType) (requiredRights : UInt32) :
    HandleProg KernelObject := do
  let p ← Prog.get
  match processHandleLookupAny p handle type requiredRights with
  | none => Prog.fail ()
  | some object => do
    objectReference object
    return object

def processHandleClose (handle : Handle) : HandleProg Unit := do
  let p ← Prog.get
  match slotOf p handle with
  | none => Prog.fail ()
  | some index => do
    setSlot index (p.slots index).cleared
    releaseAny (p.slots index).object

def closeSlot (i : Nat) : HandleProg Unit := do
  let p ← Prog.get
  if (p.slots i).active = true then do
    setSlot i (p.slots i).cleared
    releaseAny (p.slots i).object
  else return ()

def processHandleCloseAll : HandleProg Unit :=
  Prog.upFrom (fun i _ => closeSlot i) 0 processHandleSlots ()

def processExit : HandleProg Unit := do
  let p ← Prog.get
  Prog.require (p.active = true) ()
  Prog.modify fun p => { p with active := false }
  processHandleCloseAll

def swapOutput (output current : KernelObject) (saved : Handle) : HandleProg Handle := do
  let p ← Prog.get
  if p.outputRedirected = true ∨ (p.slots 0).active = false ∨ (p.slots 0).object = none then do
    let _ ← optional (processHandleClose saved)
    objectRelease output
    objectRelease current
    Prog.fail ()
  else do
    setSlot 0 { p.slots 0 with object := some output, rights := rightWrite }
    Prog.modify fun p => { p with outputRedirected := true, redirectedOutputSavedHandle := saved }
    releaseAny (p.slots 0).object
    objectRelease current
    return saved

/-- `isCurrent`: the caller is the process itself. -/
def processRedirectOutput (isCurrent : Bool) (outputHandle : Handle) : HandleProg Handle := do
  let p ← Prog.get
  Prog.require (isCurrent = true ∧ p.active = true) ()
  let output ← optional (processHandleLookupReference outputHandle .file rightWrite)
  let current ← optional (processHandleLookupReference initialConsoleHandle .console rightWrite)
  match output, current with
  | some output, some current =>
    match ← optional (processHandleInstall current rightWrite) with
    | none => do
      objectRelease output
      objectRelease current
      Prog.fail ()
    | some saved => swapOutput output current saved
  | output, current => do
    releaseAny output
    releaseAny current
    Prog.fail ()

def processRestoreOutput (isCurrent : Bool) (savedHandle : Handle) : HandleProg Unit := do
  let p ← Prog.get
  Prog.require (isCurrent = true ∧ p.active = true) ()
  match decodeHandle savedHandle with
  | none => Prog.fail ()
  | some (savedIndex, savedGeneration) => do
    Prog.require (savedIndex < processHandleSlots) ()
    let saved ← processHandleLookupReference savedHandle .console rightWrite
    let p ← Prog.get
    if p.outputRedirected = false ∨ savedHandle ≠ p.redirectedOutputSavedHandle ∨
        (p.slots 0).active = false ∨ (p.slots 0).generation ≠ 1 ∨
        (p.slots savedIndex).active = false ∨
        (p.slots savedIndex).generation ≠ savedGeneration ∨
        (p.slots savedIndex).object ≠ some saved then do
      objectRelease saved
      Prog.fail ()
    else do
      setSlot savedIndex (p.slots savedIndex).cleared
      let q ← Prog.get
      setSlot 0 { q.slots 0 with object := some saved, rights := rightWrite }
      Prog.modify fun p => { p with outputRedirected := false, redirectedOutputSavedHandle := 0 }
      releaseAny (q.slots 0).object
      releaseAny (p.slots savedIndex).object

def Counts (p p' : Process) : Prop := ∃ f, p' = { p with refCount := f }

lemma Counts.refl (p : Process) : Counts p p := ⟨_, rfl⟩

lemma Counts.trans {p q r : Process} (h : Counts p q) (h' : Counts q r) : Counts p r := by
  obtain ⟨f, rfl⟩ := h
  obtain ⟨g, rfl⟩ := h'
  exact ⟨g, rfl⟩

section

variable {p : Process} {object : KernelObject} {rights : UInt32} {handle : Handle} {type : ObjectType}

variable {E : Unit → Process → Prop}

lemma wp_optional {α : Type} {x : HandleProg α} {Q : Option α → Process → Prop}
    : wp (optional x) Q E p ↔ wp x (fun a => Q (some a)) (fun _ => Q none) p := by
  unfold wp optional
  rcases x p with ⟨a | a, p'⟩ <;> rfl

lemma objectReference_spec :
    wp (objectReference object) (fun _ => Counts p) (fun _ => Counts p) p := by
  refine wp_get_bind.mpr (wp_bind.mpr (wp_require.mpr ⟨fun _ => ?_,
    fun _ => Counts.refl p⟩))
  exact ⟨_, rfl⟩

lemma releaseAny_spec {o : Option KernelObject} : wp (releaseAny o) (fun _ => Counts p) E p := by
  cases o with
  | none => exact Counts.refl p
  | some object => exact ⟨_, rfl⟩

lemma processHandleInstall_spec :
    wp (processHandleInstall object rights) (fun h p' => ∃ i f, i < processHandleSlots ∧
        (p.slots i).active = false ∧ p.active = true ∧
        h = encodeHandle i (nextGeneration (p.slots i).generation) ∧
        p' = { p with
          slots := update p.slots i
            ⟨some object, rights, nextGeneration (p.slots i).generation, true⟩
          refCount := f })
      (fun _ => Counts p) p := by
  refine wp_get_bind.mpr (wp_bind.mpr (wp_require.mpr ⟨fun hc => ?_,
    fun _ => Counts.refl p⟩))
  cases hfind : (List.range processHandleSlots).find? fun i => !(p.slots i).active with
  | none => exact Counts.refl p
  | some i =>
    have hi := List.mem_range.mp (List.mem_of_find?_eq_some hfind)
    have hfree : (p.slots i).active = false := by simpa using List.find?_some hfind
    refine objectReference_spec.bind fun _ q hq => ?_
    obtain ⟨f, rfl⟩ := hq
    exact ⟨i, f, hi, hfree, hc.1, rfl, rfl⟩

variable {requiredRights : UInt32}

lemma processHandleLookupReference_spec :
    wp (processHandleLookupReference handle type requiredRights) (fun o p' =>
        processHandleLookupAny p handle type requiredRights = some o ∧ Counts p p')
      (fun _ => Counts p) p := by
  refine wp_get_bind.mpr ?_
  cases hlookup : processHandleLookupAny p handle type requiredRights with
  | none => exact Counts.refl p
  | some object => exact objectReference_spec.bind fun _ q hq => ⟨rfl, hq⟩

lemma processHandleClose_spec :
    wp (processHandleClose handle) (fun _ p' => ∃ i f, slotOf p handle = some i ∧
        p' = { p with slots := update p.slots i (p.slots i).cleared, refCount := f })
      (fun _ p' => slotOf p handle = none ∧ Counts p p') p := by
  refine wp_get_bind.mpr ?_
  cases hslot : slotOf p handle with
  | none => exact ⟨rfl, Counts.refl p⟩
  | some i =>
    refine wp_modify_bind.mpr (releaseAny_spec.mono (fun _ q hq => ?_)
      fun _ _ h => h)
    obtain ⟨f, rfl⟩ := hq
    exact ⟨i, f, rfl, rfl⟩

def clearedBelow (p : Process) (k i : Nat) : Slot :=
  if i < k ∧ (p.slots i).active = true then (p.slots i).cleared else p.slots i

lemma processHandleCloseAll_spec : wp processHandleCloseAll
      (fun _ p' => ∃ f, p' = { p with slots := clearedBelow p processHandleSlots, refCount := f })
      (fun _ _ => False) p := by
  refine (wp_upFrom (I := fun k _ q => ∃ f, q = { p with slots := clearedBelow p k, refCount := f })
    ⟨p.refCount, ?_⟩ fun k _ q _ _ hq => ?_).mono (fun _ _ hq => ?_) fun _ _ h => h
  · have hzero : clearedBelow p 0 = p.slots := by
      funext i
      simp [clearedBelow]
    rw [hzero]
  · obtain ⟨f, rfl⟩ := hq
    have hround : clearedBelow p (k + 1) = update (clearedBelow p k) k
        (if (p.slots k).active = true then (p.slots k).cleared else p.slots k) := by
      funext i
      by_cases hik : i = k
      · subst hik
        simp [clearedBelow]
      · rw [update_of_ne hik]
        unfold clearedBelow
        simp only [show i < k + 1 ↔ i < k by omega]
    have hk : clearedBelow p k k = p.slots k := by simp [clearedBelow]
    refine wp_get_bind.mpr ?_
    simp only [hk]
    split
    · next hactive =>
      refine wp_modify_bind.mpr (releaseAny_spec.mono (fun _ q hq => ?_)
        fun _ _ h => h)
      obtain ⟨g, rfl⟩ := hq
      refine ⟨g, ?_⟩
      rw [hround, if_pos hactive]
    · next hactive =>
      refine ⟨f, ?_⟩
      rw [hround, if_neg hactive, ← hk, update_eq_self]
  · simpa using hq

lemma processExit_spec : wp processExit
      (fun _ p' => ∃ f, p' = { p with
        active := false
        slots := clearedBelow p processHandleSlots
        refCount := f })
      (fun _ => Counts p) p := by
  refine wp_get_bind.mpr (wp_bind.mpr (wp_require.mpr ⟨fun _ => ?_,
    fun _ => Counts.refl p⟩))
  refine wp_modify_bind.mpr ?_
  exact processHandleCloseAll_spec.mono (fun _ _ h => h) fun _ _ h => h.elim

def Spent (p p' : Process) : Prop :=
  Counts p p' ∨ ∃ i f, i < processHandleSlots ∧ (p.slots i).active = false ∧ p' = { p with
    slots := update p.slots i ⟨none, 0, nextGeneration (p.slots i).generation, false⟩
    refCount := f }

lemma slotOf_some (h : slotOf p handle = some i) :
    handle = encodeHandle i (p.slots i).generation ∧ (p.slots i).generation ≠ 0 ∧
      i < processHandleSlots ∧ (p.slots i).active = true := by
  unfold slotOf at h
  split at h
  · cases h
  · next index generation hd =>
    split at h
    · next hc =>
      obtain rfl := Option.some.inj h
      obtain ⟨hh, hg⟩ := decodeHandle_some hd
      rw [← hc.2.2] at hh hg
      exact ⟨hh, hg, hc.1, hc.2.1⟩
    · cases h

lemma slotOf_encode (hi : i < processHandleSlots) (hg : (p.slots i).generation ≠ 0)
    (ha : (p.slots i).active = true) : slotOf p (encodeHandle i (p.slots i).generation) = some i := by
  unfold slotOf
  rw [decodeHandle_encode (by unfold processHandleSlots at hi; omega) hg]
  exact if_pos ⟨hi, ha, rfl⟩

lemma slotOf_console (h : slotOf p initialConsoleHandle = some i) :
    i = 0 ∧ (p.slots i).generation = 1 := by
  obtain ⟨heq, -, hi, -⟩ := slotOf_some h
  have hinj := encodeHandle_inj (by decide) (by unfold processHandleSlots at hi; omega)
    ((show encodeHandle 0 1 = initialConsoleHandle from rfl).trans heq)
  exact ⟨hinj.1.symm, hinj.2.symm⟩

lemma processHandleLookupAny_some
    (h : processHandleLookupAny p handle type requiredRights = some object) :
    ∃ i, slotOf p handle = some i ∧ (p.slots i).object = some object := by
  unfold processHandleLookupAny at h
  split at h
  · cases h
  · next i hi =>
    split at h
    · cases h
    · next o ho =>
      split at h
      · exact ⟨i, hi, ho.trans h⟩
      · cases h

lemma nextGeneration_ne_zero (g : UInt16) : nextGeneration g ≠ 0 := by
  unfold nextGeneration
  split
  · decide
  · assumption

lemma swapOutput_spec {output current : KernelObject} {saved : Handle} :
    wp (swapOutput output current saved) (fun h p' => h = saved ∧ p.outputRedirected = false ∧
        ∃ f, p' = { p with
          slots := update p.slots 0
            { p.slots 0 with object := some output, rights := rightWrite }
          outputRedirected := true
          redirectedOutputSavedHandle := saved
          refCount := f })
      (fun _ p' => slotOf p saved = none ∨ ∃ i f, slotOf p saved = some i ∧
        p' = { p with slots := update p.slots i (p.slots i).cleared, refCount := f }) p := by
  refine wp_get_bind.mpr ?_
  split
  · refine wp_bind.mpr (wp_optional.mpr (processHandleClose_spec.mono (fun _ q hq => ?_)
      fun _ q hq => ?_))
    · obtain ⟨i, f, hi, rfl⟩ := hq
      exact .inr ⟨i, _, hi, rfl⟩
    · exact .inl hq.1
  · next hc =>
    push Not at hc
    refine wp_modify_bind.mpr (wp_modify_bind.mpr ?_)
    refine releaseAny_spec.bind fun _ q hq => ?_
    obtain ⟨f, rfl⟩ := hq
    exact ⟨rfl, by simpa using hc.1, _, rfl⟩

lemma optionalLookup_spec :
    wp (optional (processHandleLookupReference handle type requiredRights)) (fun r p' =>
      Counts p p' ∧ ∀ o, r = some o → processHandleLookupAny p handle type requiredRights = some o)
      E p := by
  refine wp_optional.mpr (processHandleLookupReference_spec.mono (fun o q hq => ?_) fun _ q hq => ?_)
  · refine ⟨hq.2, fun o' ho' => ?_⟩
    obtain rfl := Option.some.inj ho'
    exact hq.1
  · exact ⟨hq, by simp⟩

variable {isCurrent : Bool}

lemma processRedirectOutput_spec :
    wp (processRedirectOutput isCurrent handle) (fun saved p' => ∃ output current i f,
        processHandleLookupAny p handle .file rightWrite = some output ∧
        processHandleLookupAny p initialConsoleHandle .console rightWrite = some current ∧
        i < processHandleSlots ∧ (p.slots i).active = false ∧ p.active = true ∧
        saved = encodeHandle i (nextGeneration (p.slots i).generation) ∧
        p.outputRedirected = false ∧
        p' = { p with
          slots := update (update p.slots i
            ⟨some current, rightWrite, nextGeneration (p.slots i).generation, true⟩) 0
              { p.slots 0 with object := some output, rights := rightWrite }
          outputRedirected := true
          redirectedOutputSavedHandle := saved
          refCount := f })
      (fun _ => Spent p) p := by
  refine wp_get_bind.mpr (wp_bind.mpr (wp_require.mpr ⟨fun _ => ?_,
    fun _ => .inl (Counts.refl p)⟩))
  refine optionalLookup_spec.bind fun output q hq => ?_
  obtain ⟨⟨f, rfl⟩, houtput⟩ := hq
  refine optionalLookup_spec.bind fun current q hq => ?_
  obtain ⟨⟨f, rfl⟩, hcurrent⟩ := hq
  have hgive {o o' : Option KernelObject} : wp (do
      releaseAny o
      releaseAny o'
      Prog.fail () : HandleProg Handle) (fun _ _ => False) (fun _ => Spent p)
      { p with refCount := f } := by
    refine releaseAny_spec.bind fun _ q hq => releaseAny_spec.bind fun _ r hr => .inl ?_
    exact (Counts.trans ⟨f, rfl⟩ hq).trans hr
  rcases output with _ | output
  · exact hgive.mono (fun _ _ h => h.elim) fun _ _ h => h
  rcases current with _ | current
  · exact hgive.mono (fun _ _ h => h.elim) fun _ _ h => h
  refine wp_bind.mpr (wp_optional.mpr (processHandleInstall_spec.mono (fun saved q hq => ?_)
    fun _ q hq => ?_))
  rotate_left
  · obtain ⟨g, rfl⟩ := hq
    exact .inl ⟨_, rfl⟩
  obtain ⟨i, g, hi, hfree, hactive, hsaved, rfl⟩ := hq
  have hi0 : i ≠ 0 := by
    obtain ⟨j, hj, -⟩ := processHandleLookupAny_some (hcurrent current rfl)
    have hj0 : j = 0 := (slotOf_console hj).1
    have hused := (slotOf_some hj).2.2.2
    rintro rfl
    rw [hj0] at hused
    exact absurd (hused.symm.trans hfree) (by decide)
  refine swapOutput_spec.mono (fun h r hr => ?_) fun _ r hr => ?_
  · obtain ⟨rfl, hnot, f', rfl⟩ := hr
    refine ⟨output, current, i, f', houtput output rfl, hcurrent current rfl, hi, hfree, hactive,
      hsaved, hnot, ?_⟩
    dsimp only
    rw [update_of_ne hi0.symm]
  · refine .inr ⟨i, ?_⟩
    have hslot (q : Process) (hq : q.slots i =
        ⟨some current, rightWrite, nextGeneration (p.slots i).generation, true⟩) :
        slotOf q saved = some i := by
      have h := slotOf_encode (p := q) hi
      rw [hq] at h
      exact hsaved ▸ h (nextGeneration_ne_zero _) rfl
    rcases hr with hr | ⟨j, f', hj, rfl⟩
    · rw [hslot _ (update_self ..)] at hr
      cases hr
    · rw [hslot _ (update_self ..)] at hj
      obtain rfl := Option.some.inj hj
      refine ⟨f', hi, hfree, ?_⟩
      dsimp only
      rw [update_idem, update_self]
      rfl

lemma processRestoreOutput_spec :
    wp (processRestoreOutput isCurrent handle) (fun _ p' => ∃ i saved f,
        slotOf p handle = some i ∧ (p.slots i).object = some saved ∧
        p.outputRedirected = true ∧ handle = p.redirectedOutputSavedHandle ∧
        (p.slots 0).active = true ∧ (p.slots 0).generation = 1 ∧
        p' = { p with
          slots := update (update p.slots i (p.slots i).cleared) 0
            { update p.slots i (p.slots i).cleared 0 with
              object := some saved, rights := rightWrite }
          outputRedirected := false
          redirectedOutputSavedHandle := 0
          refCount := f })
      (fun _ => Counts p) p := by
  refine wp_get_bind.mpr (wp_bind.mpr (wp_require.mpr ⟨fun _ => ?_,
    fun _ => Counts.refl p⟩))
  cases hd : decodeHandle handle with
  | none => exact Counts.refl p
  | some decoded =>
  obtain ⟨index, generation⟩ := decoded
  refine wp_bind.mpr (wp_require.mpr ⟨fun _ => ?_, fun _ => Counts.refl p⟩)
  refine processHandleLookupReference_spec.bind fun saved q hq => ?_
  obtain ⟨hlookup, f, rfl⟩ := hq
  refine wp_get_bind.mpr ?_
  split
  · exact ⟨_, rfl⟩
  · next hc =>
    push Not at hc
    obtain ⟨i, hi, ho⟩ := processHandleLookupAny_some hlookup
    have hindex : index = i := by
      obtain ⟨heq, hg, hlt, -⟩ := slotOf_some hi
      rw [heq, decodeHandle_encode (by unfold processHandleSlots at hlt; omega) hg] at hd
      cases hd
      rfl
    subst hindex
    refine wp_modify_bind.mpr (wp_get_bind.mpr ?_)
    refine wp_modify_bind.mpr (wp_modify_bind.mpr ?_)
    refine releaseAny_spec.bind fun _ q hq => ?_
    obtain ⟨g, rfl⟩ := hq
    refine releaseAny_spec.mono (fun _ q hq => ?_) fun _ _ h => h
    obtain ⟨g', rfl⟩ := hq
    refine ⟨index, saved, g', hi, ho, ?_, hc.2.1, ?_, hc.2.2.2.1, rfl⟩
    · simpa using hc.1
    · simpa using hc.2.2.1

end

open Function (update update_of_ne update_self)

/-- The abstract table: which handle stands for which object, with which rights. -/
structure Caps where
  held : Handle → Option (KernelObject × UInt32)
  redirect : Option KernelObject
  closed : Handle → Prop

namespace Caps

def behind (c : Caps) (handle : Handle) (object : KernelObject) : KernelObject :=
  if handle = initialConsoleHandle then c.redirect.getD object else object

def lookup (c : Caps) (handle : Handle) (type : ObjectType) (requiredRights : UInt32) :
    Option KernelObject :=
  match c.held handle with
  | none => none
  | some (object, rights) =>
    if (type = .invalid ∨ (c.behind handle object).type = type) ∧
        rights &&& requiredRights = requiredRights then some (c.behind handle object)
    else none

def install (c : Caps) (handle : Handle) (object : KernelObject) (rights : UInt32) : Caps :=
  { c with held := update c.held handle (some (object, rights)) }

def close (c : Caps) (handle : Handle) : Caps :=
  { c with
    held := update c.held handle none
    closed := fun h => c.closed h ∨ h = handle }

def closeAll (c : Caps) : Caps :=
  { c with
    held := fun _ => none
    closed := fun h => c.closed h ∨ c.held h ≠ none }

end Caps

/-- The operations on a process that touch its handles. -/
inductive Op where
  | install (object : KernelObject) (rights : UInt32)
  | close (handle : Handle)
  | redirect (isCurrent : Bool) (output : Handle)
  | restore (isCurrent : Bool) (saved : Handle)
  | exit
  | counts (refCount : KernelObject → Nat)

def Op.run : Op → HandleProg Handle
  | install object rights => processHandleInstall object rights
  | close handle => do
    processHandleClose handle
    return handle
  | redirect isCurrent output => processRedirectOutput isCurrent output
  | restore isCurrent saved => do
    processRestoreOutput isCurrent saved
    return saved
  | exit => do
    processExit
    return 0
  | counts refCount => do
    Prog.modify fun p => { p with refCount := refCount }
    return 0

def Caps.after (c : Caps) (handle : Handle) : Op → Caps
  | .install object rights => c.install handle object rights
  | .close _ => c.close handle
  | .redirect _ output =>
    match c.lookup output .file rightWrite, c.lookup initialConsoleHandle .console rightWrite with
    | some output, some console =>
      { c.install handle console rightWrite with redirect := some output }
    | _, _ => c
  | .restore _ _ => { c.close handle with redirect := none }
  | .exit => c.closeAll
  | .counts _ => c

/-- A process beside the abstract table, and how often each slot was installed. -/
structure Sys where
  process : Process
  caps : Caps
  installs : Nat → Nat

def countInstalls (installs : Nat → Nat) (p p' : Process) (i : Nat) : Nat :=
  if (p'.slots i).generation = (p.slots i).generation then installs i else installs i + 1

def Sys.next (s : Sys) (op : Op) : Sys :=
  match op.run s.process with
  | (.ok handle, p) => ⟨p, s.caps.after handle op, countInstalls s.installs s.process p⟩
  | (.error _, p) => ⟨p, s.caps, countInstalls s.installs s.process p⟩

/-- A step under a condition on the process and the operation, after which no
slot has been installed again 65535 times. -/
def Step (cond : Process → Op → Prop) (s s' : Sys) : Prop :=
  ∃ op, cond s.process op ∧ s' = s.next op ∧ ∀ i, s'.installs i ≤ 65535

/-- A process as it is created. -/
structure Fresh (s : Sys) : Prop where
  active : s.process.active = true
  slots : ∀ i, s.process.slots i = ⟨none, 0, 0, false⟩
  outputRedirected : s.process.outputRedirected = false
  held : ∀ h, s.caps.held h = none
  redirect : s.caps.redirect = none
  closed : ∀ h, ¬ s.caps.closed h
  installs : ∀ i, s.installs i = 0

/-- Lookups find exactly what the map has, and a closed handle finds nothing. -/
structure Refines (s : Sys) : Prop where
  lookup : ∀ handle type requiredRights,
    processHandleLookup s.process handle type requiredRights =
      s.caps.lookup handle type requiredRights
  closed : ∀ handle type requiredRights, s.caps.closed handle →
    processHandleLookup s.process handle type requiredRights = none

/-- A redirection that finds a file to write to and the console behind the first handle finds
this handle with the right to write and no other. -/
def KeepsRights (p : Process) : Op → Prop
  | .redirect _ output => (processHandleLookupAny p output .file rightWrite).isSome = true →
      (processHandleLookupAny p initialConsoleHandle .console rightWrite).isSome = true →
      (p.slots 0).rights = rightWrite
  | _ => True

def Issued (installs : Nat → Nat) (handle : Handle) : Prop :=
  ∃ i < processHandleSlots, ∃ g : UInt16, g ≠ 0 ∧ g.toNat ≤ installs i ∧ handle = encodeHandle i g

/-- The slots and the abstract table have the same handles. -/
structure Inv (s : Sys) : Prop where
  count : ∀ i, (s.process.slots i).generation.toNat = s.installs i
  held : ∀ h o r, s.caps.held h = some (o, r) → ∃ i, slotOf s.process h = some i ∧
    (s.process.slots i).rights = r ∧ (s.process.slots i).object = some (s.caps.behind h o)
  used : ∀ h i, slotOf s.process h = some i → s.caps.held h ≠ none
  pos : ∀ i, i < processHandleSlots → (s.process.slots i).active = true →
    (s.process.slots i).generation ≠ 0
  closed : ∀ h, s.caps.closed h → Issued s.installs h ∧ s.caps.held h = none
  dead : s.process.active = false → ∀ h, s.caps.held h = none
  early : s.installs 0 = 0 → s.process.outputRedirected = false ∧ s.caps.redirect = none
  redirected : s.caps.held initialConsoleHandle ≠ none →
    (s.process.outputRedirected = true ↔ s.caps.redirect.isSome)
  saved : s.process.outputRedirected = true →
    Issued s.installs s.process.redirectedOutputSavedHandle ∧
    s.process.redirectedOutputSavedHandle ≠ initialConsoleHandle ∧
    ∀ o r, s.caps.held initialConsoleHandle = some (o, r) → r = rightWrite ∧
      ∀ o' r', s.caps.held s.process.redirectedOutputSavedHandle = some (o', r') → o' = o

variable {s : Sys}

lemma Fresh.inv (h : Fresh s) : Inv s := by
  refine ⟨fun i => ?_, fun g o r hg => ?_, fun g i hg => ?_, fun i _ hi => ?_, fun g hg => ?_,
    fun _ => h.held, fun _ => ⟨h.outputRedirected, h.redirect⟩, fun hg => ?_, fun hr => ?_⟩
  · rw [h.slots, h.installs]
    rfl
  · rw [h.held] at hg
    cases hg
  · obtain ⟨-, -, -, hactive⟩ := slotOf_some hg
    rw [h.slots] at hactive
    cases hactive
  · rw [h.slots] at hi
    cases hi
  · exact (h.closed g hg).elim
  · exact (hg (h.held _)).elim
  · rw [h.outputRedirected] at hr
    cases hr

lemma Inv.lookupAny (h : Inv s) (handle : Handle) (type : ObjectType)
    (requiredRights : UInt32) : processHandleLookupAny s.process handle type requiredRights =
      s.caps.lookup handle type requiredRights := by
  unfold processHandleLookupAny Caps.lookup
  cases hheld : s.caps.held handle with
  | none =>
    cases hslot : slotOf s.process handle with
    | none => rfl
    | some i => exact absurd hheld (h.used handle i hslot)
  | some cap =>
    obtain ⟨o, r⟩ := cap
    obtain ⟨i, hslot, hrights, hobject⟩ := h.held handle o r hheld
    simp only [hslot, hobject, hrights]

lemma Inv.refines (h : Inv s) : Refines s := by
  have hlookup (handle : Handle) (type : ObjectType) (requiredRights : UInt32) :
      processHandleLookup s.process handle type requiredRights =
        s.caps.lookup handle type requiredRights := by
    unfold processHandleLookup
    split
    · exact h.lookupAny handle type requiredRights
    · next hactive =>
      have hheld := h.dead (by simpa using hactive) handle
      unfold Caps.lookup
      rw [hheld]
  refine ⟨hlookup, fun handle type requiredRights hclosed => ?_⟩
  rw [hlookup]
  unfold Caps.lookup
  rw [(h.closed handle hclosed).2]

lemma Caps.lookup_some {c : Caps} {handle : Handle} {type : ObjectType} {requiredRights : UInt32}
    {object : KernelObject} (h : c.lookup handle type requiredRights = some object) :
    ∃ o r, c.held handle = some (o, r) ∧ c.behind handle o = object := by
  unfold Caps.lookup at h
  split at h
  · cases h
  · next o r hheld =>
    split at h
    · exact ⟨o, r, hheld, Option.some.inj h⟩
    · cases h

section

variable {p : Process} {i j : Nat} {slot : Slot} {handle : Handle}

lemma slotOf_iff : slotOf p handle = some i ↔ i < processHandleSlots ∧
    (p.slots i).active = true ∧ (p.slots i).generation ≠ 0 ∧
      handle = encodeHandle i (p.slots i).generation := by
  constructor
  · intro h
    obtain ⟨heq, hg, hi, ha⟩ := slotOf_some h
    exact ⟨hi, ha, hg, heq⟩
  · rintro ⟨hi, ha, hg, rfl⟩
    exact slotOf_encode hi hg ha

lemma slotOf_inj {h' : Handle} (h : slotOf p handle = some i) (hi : slotOf p h' = some i) :
    handle = h' := by
  rw [(slotOf_some h).1, (slotOf_some hi).1]

lemma slotOf_update {q : Process} (h : q.slots = update p.slots i slot) :
    slotOf q handle = some j ↔ (j = i ∧ i < processHandleSlots ∧ slot.active = true ∧
      slot.generation ≠ 0 ∧ handle = encodeHandle i slot.generation) ∨
      (j ≠ i ∧ slotOf p handle = some j) := by
  rw [slotOf_iff, h]
  by_cases hj : j = i
  · subst hj
    simp
  · simp [hj, slotOf_iff]

lemma toNat_succ (g : UInt16) : (g + 1).toNat = (g.toNat + 1) % 2 ^ 16 := UInt16.toNat_add g 1

lemma nextGeneration_toNat {g : UInt16} (h : g.toNat + 1 ≤ 65535) :
    (nextGeneration g).toNat = g.toNat + 1 := by
  have hsucc := toNat_succ g
  unfold nextGeneration
  split
  · next h0 =>
    rw [h0] at hsucc
    change 0 = _ at hsucc
    omega
  · omega

lemma nextGeneration_ne (g : UInt16) : nextGeneration g ≠ g := by
  intro heq
  have hsucc := toNat_succ g
  unfold nextGeneration at heq
  split at heq
  · next h0 =>
    subst heq
    exact absurd h0 (by decide)
  · rw [heq] at hsucc
    omega

lemma countInstalls_new {installs : Nat → Nat} {q : Process}
    (h : q.slots = update p.slots i slot) (hg : slot.generation ≠ (p.slots i).generation) :
    countInstalls installs p q = update installs i (installs i + 1) := by
  funext k
  unfold countInstalls
  rw [h]
  by_cases hk : k = i
  · subst hk
    rw [update_self, update_self, if_neg hg]
  · rw [update_of_ne hk, update_of_ne hk, if_pos rfl]

variable {installs : Nat → Nat}

lemma countInstalls_congr {q q' : Process}
    (h : ∀ k, (q'.slots k).generation = (q.slots k).generation) :
    countInstalls installs p q' = countInstalls installs p q := by
  funext k
  unfold countInstalls
  rw [h k]

lemma countInstalls_same {q : Process}
    (h : ∀ k, (q.slots k).generation = (p.slots k).generation) :
    countInstalls installs p q = installs := by
  funext k
  exact if_pos (h k)

end

end Mangrove.Handles
