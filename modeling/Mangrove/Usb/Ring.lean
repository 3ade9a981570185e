import Mangrove.Lib.Steps

/-! The transfer rings of the xHCI driver. A transfer is handed over with its first TRB, and an
aborted one leaves the Cycle bits of the others. -/

namespace Mangrove.Usb

open Function (update)

/-- `control` is without its Cycle bit, which `xhci_prepare_trb` masks off. -/
structure Words where
  param1 : UInt32
  param2 : UInt32
  status : UInt32
  control : BitVec 31
deriving DecidableEq

structure Trb where
  words : Words
  cycle : Bool

/-- TRBs are named by their index where the source has addresses. -/
structure Ring where
  trbs : Nat → Trb
  physBase : UInt64
  size : Nat
  enqueueIdx : Nat
  dequeueIdx : Nat
  cycleState : Bool

def ringAlloc (size : Nat) (physBase : UInt64) : Ring :=
  ⟨fun _ => ⟨⟨0, 0, 0, 0⟩, false⟩, physBase, size, 0, 0, true⟩

def prepareTrb (words : Words) (producerCycle : Bool) : Trb := ⟨words, !producerCycle⟩

def publishPreparedTrb (trb : Trb) (producerCycle : Bool) : Trb := { trb with cycle := producerCycle }

/-- The Link TRB to the start of the ring, with Toggle Cycle. -/
def linkWords (physBase : UInt64) : Words :=
  ⟨physBase.toUInt32, (physBase >>> 32).toUInt32, 0, 0xC01⟩

def Ring.after (r : Ring) (index : Nat) : Nat := if index + 1 = r.size - 1 then 0 else index + 1

def Ring.enqueueInternal (r : Ring) (words : Words) (publish : Bool) : Option (Ring × Nat × Bool) :=
  if r.after r.enqueueIdx = r.dequeueIdx then none
  else
    let index := r.enqueueIdx
    let cycle := r.cycleState
    let r := { r with
      trbs := update r.trbs index (prepareTrb words cycle), enqueueIdx := index + 1 }
    let r := if r.enqueueIdx = r.size - 1 then
      { r with
        trbs := update r.trbs r.enqueueIdx
          (publishPreparedTrb (prepareTrb (linkWords r.physBase) cycle) cycle)
        cycleState := !cycle
        enqueueIdx := 0 } else r
    let r := if publish then
      { r with trbs := update r.trbs index (publishPreparedTrb (r.trbs index) cycle) } else r
    some (r, index, cycle)

def Ring.abortUnpublished (r : Ring) (savedEnqueueIdx : Nat) (savedCycleState : Bool) : Ring :=
  if r.size - 1 ≤ savedEnqueueIdx then r
  else { r with enqueueIdx := savedEnqueueIdx, cycleState := savedCycleState }

def Ring.publishTrb (r : Ring) (index : Nat) (producerCycle : Bool) : Option Ring :=
  if r.size - 1 ≤ index then none
  else some { r with trbs := update r.trbs index (publishPreparedTrb (r.trbs index) producerCycle) }

def Ring.reclaimTransfer (r : Ring) (index : Nat) : Option Ring :=
  if r.size - 1 ≤ index ∨ index ≠ r.dequeueIdx then none
  else some { r with dequeueIdx := r.after r.dequeueIdx }

def Ring.reclaimWalk (r : Ring) (endIndex : Nat) : Nat → Nat → Option Ring
  | 0, _ => none
  | fuel + 1, index =>
    if index = endIndex then some { r with dequeueIdx := r.after index }
    else r.reclaimWalk endIndex fuel (r.after index)

def Ring.reclaimTd (r : Ring) (startIndex endIndex : Nat) : Option Ring :=
  if r.size - 1 ≤ startIndex ∨ r.size - 1 ≤ endIndex ∨ startIndex ≠ r.dequeueIdx then none
  else r.reclaimWalk endIndex (r.size - 1) startIndex

/-- The driver and the controller at one ring. `building` is the transfer begun: the index and
producer cycle of its first TRB, which are also the saved ones, and its TRBs. -/
structure Sys where
  ring : Ring
  index : Nat
  cycle : Bool
  building : Option (Nat × Bool × List Words)
  published : List Words
  consumed : List Words
  reclaimed : Nat

def Sys.init (size : Nat) (physBase : UInt64) : Sys :=
  ⟨ringAlloc size physBase, 0, true, none, [], [], 0⟩

/-- The calls of the driver, and a step of the controller. -/
inductive Act where
  | start (words : Words)
  | more (words : Words)
  | publish
  | abort
  | reclaimTransfer
  | reclaimTd (others : Nat)
  | consume
deriving DecidableEq

/-- A call that fails changes nothing, so it is no step. The TD that is reclaimed is the oldest
TRB with `others` after it, and only consumed ones are. -/
def Sys.step (s : Sys) : Act → Option Sys
  | .start words =>
    if s.building.isSome then none
    else (s.ring.enqueueInternal words false).map fun (ring, index, cycle) =>
      { s with ring, building := some (index, cycle, [words]) }
  | .more words => s.building.bind fun (index, cycle, built) =>
    (s.ring.enqueueInternal words true).map fun (ring, _, _) =>
      { s with ring, building := some (index, cycle, built ++ [words]) }
  | .publish => s.building.bind fun (index, cycle, built) =>
    (s.ring.publishTrb index cycle).map fun ring =>
      { s with ring, building := none, published := s.published ++ built }
  | .abort => s.building.map fun (index, cycle, _) =>
    { s with ring := s.ring.abortUnpublished index cycle, building := none }
  | .reclaimTransfer =>
    if s.reclaimed < s.consumed.length then
      (s.ring.reclaimTransfer s.ring.dequeueIdx).map fun ring =>
        { s with ring, reclaimed := s.reclaimed + 1 }
    else none
  | .reclaimTd others =>
    if s.reclaimed + others < s.consumed.length then
      (s.ring.reclaimTd s.ring.dequeueIdx
        ((s.ring.dequeueIdx + others) % (s.ring.size - 1))).map fun ring =>
        { s with ring, reclaimed := s.reclaimed + others + 1 }
    else none
  | .consume =>
    if (s.ring.trbs s.index).cycle ≠ s.cycle then none
    else if s.index = s.ring.size - 1 then some { s with index := 0, cycle := !s.cycle }
    else some { s with
      index := s.index + 1, consumed := s.consumed ++ [(s.ring.trbs s.index).words] }

/-- When a transfer is published, the TRB after it is not left over from an aborted one. -/
def Sys.Clean (s : Sys) (act : Act) : Prop :=
  act = .publish → (s.ring.trbs s.ring.enqueueIdx).cycle ≠ s.ring.cycleState

instance (s : Sys) (act : Act) : Decidable (s.Clean act) := inferInstanceAs (Decidable (_ → _))

section

variable {n k j : Nat}

/-- The Cycle bit of the `k`-th TRB ever put on a ring with `n` places. -/
def lapCycle (n k : Nat) : Bool := k / n % 2 = 0

lemma lapCycle_succ (k : Nat) :
    lapCycle n (k + 1) = if (k + 1) % n = 0 then !lapCycle n k else lapCycle n k := by
  simp only [lapCycle, Nat.succ_div, Nat.dvd_iff_mod_eq_zero]
  split
  · rw [← decide_not, decide_eq_decide]
    omega
  · rfl

lemma succ_mod (hn : 0 < n) (k : Nat) :
    (k + 1) % n = if k % n + 1 = n then 0 else k % n + 1 := by
  have hlt := Nat.mod_lt k hn
  rw [← Nat.mod_add_mod]
  split
  next h => rw [h, Nat.mod_self]
  · exact Nat.mod_eq_of_lt (by omega)

end

/-- All that a successful enqueue does to a ring. -/
structure Enqueued (r : Ring) (words : Words) (publish : Bool) (r' : Ring) : Prop where
  room : r.after r.enqueueIdx ≠ r.dequeueIdx
  size : r'.size = r.size
  dequeueIdx : r'.dequeueIdx = r.dequeueIdx
  enqueueIdx : r'.enqueueIdx = r.after r.enqueueIdx
  cycleState : r'.cycleState =
    if r.enqueueIdx + 1 = r.size - 1 then !r.cycleState else r.cycleState
  trb : r'.trbs r.enqueueIdx = ⟨words, if publish then r.cycleState else !r.cycleState⟩
  other : ∀ j < r.size - 1, j ≠ r.enqueueIdx → r'.trbs j = r.trbs j
  link : (r'.trbs (r.size - 1)).cycle =
    if r.enqueueIdx + 1 = r.size - 1 then r.cycleState else (r.trbs (r.size - 1)).cycle

def Sys.built (s : Sys) : List Words := s.building.elim [] fun b => b.2.2

/-- The TRBs put on the ring so far, aborted ones apart. -/
def Sys.queue (s : Sys) : List Words := s.published ++ s.built

/-- The controller has no TRB to consume. -/
def Sys.Idle (s : Sys) : Prop := (s.ring.trbs s.index).cycle ≠ s.cycle

/-- The consumed TRBs are the first of the published ones, and all of them when the controller
is idle; the others are in the ring as they were published. A call that finds no room finds all
places but one in use. -/
structure Sys.Orderly (s : Sys) : Prop where
  consumed : s.consumed <+: s.published
  idle : s.Idle → s.consumed = s.published
  kept : ∀ k, s.consumed.length ≤ k → k < s.published.length →
    s.published[k]? = some (s.ring.trbs (k % (s.ring.size - 1))).words
  full : ∀ words publish, s.ring.enqueueInternal words publish = none →
    s.published.length + s.built.length = s.reclaimed + (s.ring.size - 2)

variable {n i : Nat} {s s' : Sys} {r r' : Ring} {c : Bool} {words : Words} {built : List Words}

lemma enqueueInternal_some {publish : Bool}
    (hi : r.enqueueIdx < r.size - 1) (h : r.enqueueInternal words publish = some (r', i, c)) :
    Enqueued r words publish r' ∧ i = r.enqueueIdx ∧ c = r.cycleState := by
  unfold Ring.enqueueInternal at h
  split at h
  · cases h
  next hroom =>
  simp only [Option.some.injEq, Prod.mk.injEq] at h
  obtain ⟨rfl, rfl, rfl⟩ := h
  refine ⟨?_, rfl, rfl⟩
  have hne : r.size - 1 ≠ r.enqueueIdx := by omega
  by_cases hlast : r.enqueueIdx + 1 = r.size - 1
  all_goals
    cases publish
    all_goals
      refine ⟨hroom, ?_, ?_, ?_, ?_, ?_, ?_, ?_⟩ <;>
        simp +contextual [hlast, hne, hne.symm, Ring.after, prepareTrb, publishPreparedTrb,
          Function.update_apply]
    all_goals omega

/-- Positions are counted from the first TRB on; position `k` is at index `k % n`. -/
structure Sys.Inv (n : Nat) (s : Sys) : Prop where
  size : s.ring.size = n + 1
  reclaimed : s.reclaimed ≤ s.consumed.length
  consumed : s.consumed <+: s.published
  room : s.queue.length < s.reclaimed + n
  enqueueIdx : s.ring.enqueueIdx = s.queue.length % n
  cycleState : s.ring.cycleState = lapCycle n s.queue.length
  dequeueIdx : s.ring.dequeueIdx = s.reclaimed % n
  building : ∀ i c built, s.building = some (i, c, built) →
    i = s.published.length % n ∧ c = lapCycle n s.published.length ∧ built ≠ []
  words : ∀ k, s.consumed.length ≤ k → k < s.queue.length →
    s.queue[k]? = some (s.ring.trbs (k % n)).words
  cycles : ∀ k, s.consumed.length ≤ k → k < s.queue.length → k ≠ s.published.length →
    (s.ring.trbs (k % n)).cycle = lapCycle n k
  stop : (s.ring.trbs (s.published.length % n)).cycle = !lapCycle n s.published.length
  link : ∀ k, 0 < k → k % n = 0 → s.consumed.length ≤ k → k ≤ s.queue.length →
    (s.ring.trbs n).cycle = !lapCycle n k
  controller : s.index = s.consumed.length % n ∧ s.cycle = lapCycle n s.consumed.length ∨
    s.index = n ∧ 0 < s.consumed.length ∧ s.consumed.length % n = 0 ∧
      s.cycle = !lapCycle n s.consumed.length

lemma inv_init (hn : 2 ≤ n) (physBase : UInt64) : (Sys.init (n + 1) physBase).Inv n := by
  constructor <;> simp [Sys.init, Sys.queue, Sys.built, ringAlloc, lapCycle]
  all_goals omega

namespace Sys.Inv

variable (h : s.Inv n) (hn : 2 ≤ n)

include h

lemma lengths : s.consumed.length ≤ s.published.length ∧
    s.published.length ≤ s.queue.length := by
  refine ⟨h.consumed.length_le, ?_⟩
  rw [Sys.queue, List.length_append]
  omega

lemma reclaim (count : Nat) (hle : s.reclaimed + count ≤ s.consumed.length) :
    { s with
      ring := { s.ring with dequeueIdx := (s.reclaimed + count) % n }
      reclaimed := s.reclaimed + count : Sys }.Inv n :=
  { h with
    reclaimed := hle
    room := h.room.trans_le (by dsimp only; omega)
    dequeueIdx := rfl }

lemma pred_size : s.ring.size - 1 = n := by
  rw [h.size, Nat.add_sub_cancel]

include hn

lemma after_mod (k : Nat) : s.ring.after (k % n) = (k + 1) % n := by
  rw [Ring.after, h.pred_size, succ_mod (by omega)]

lemma enqueue (hr : s.ring.enqueueInternal words (!s.built.isEmpty) = some (r, i, c))
    {first : Nat} {cycle : Bool} (hfirst : first = s.published.length % n)
    (hcycle : cycle = lapCycle n s.published.length) :
    { s with ring := r, building := some (first, cycle, s.built ++ [words]) : Sys }.Inv n := by
  obtain ⟨hc, hp⟩ := h.lengths
  have hmod (k : Nat) := Nat.mod_lt k (by omega : n > 0)
  have hsize := h.pred_size
  obtain ⟨he, -, -⟩ := enqueueInternal_some (by rw [hsize, h.enqueueIdx]; exact hmod _) hr
  have hq : { s with ring := r, building := some (first, cycle, s.built ++ [words]) : Sys }.queue =
      s.queue ++ [words] := by simp [Sys.queue, Sys.built]
  have hroom : s.queue.length + 1 < s.reclaimed + n := by
    have hne := he.room
    rw [h.enqueueIdx, h.after_mod hn, h.dequeueIdx] at hne
    exact lt_of_le_of_ne h.room fun heq => hne (by simp [heq])
  have hle := h.reclaimed
  -- less than a lap apart, so at another place
  have hother {k : Nat} (hk : s.consumed.length ≤ k) (hlt : k < s.queue.length) :
      r.trbs (k % n) = s.ring.trbs (k % n) := by
    refine he.other _ (by rw [hsize]; exact hmod k) ?_
    rw [h.enqueueIdx]
    exact mod_ne hlt (by omega)
  have htrb := he.trb
  have hwrap : (s.ring.enqueueIdx + 1 = s.ring.size - 1) ↔ (s.queue.length + 1) % n = 0 := by
    rw [hsize, h.enqueueIdx, succ_mod (by omega)]
    split <;> omega
  rw [h.enqueueIdx, h.cycleState] at htrb
  have hlength : (s.queue ++ [words]).length = s.queue.length + 1 := by simp
  refine { h with
    size := he.size.trans h.size
    room := by rwa [hq, hlength]
    enqueueIdx := ?enqueueIdx, cycleState := ?cycleState
    dequeueIdx := he.dequeueIdx.trans h.dequeueIdx
    building := ?building, words := ?words, cycles := ?cycles, stop := ?stop, link := ?link }
  case enqueueIdx =>
    rw [hq, hlength, ← h.after_mod hn, ← h.enqueueIdx]
    exact he.enqueueIdx
  case cycleState =>
    rw [hq, hlength, lapCycle_succ, ← h.cycleState]
    simpa only [hwrap] using he.cycleState
  case building =>
    intro i c built hb
    obtain ⟨rfl, rfl, rfl⟩ := hb
    exact ⟨hfirst, hcycle, by simp⟩
  case words =>
    intro k hk hlt
    rw [hq, hlength] at hlt
    rw [hq]
    rcases Nat.lt_succ_iff_lt_or_eq.mp hlt with hlt | rfl
    · rw [List.getElem?_append_left hlt, h.words k hk hlt]
      exact congrArg (some ·.words) (hother hk hlt).symm
    · rw [List.getElem?_concat_length]
      exact congrArg (some ·.words) htrb.symm
  case cycles =>
    intro k hk hlt hne
    rw [hq, hlength] at hlt
    rcases Nat.lt_succ_iff_lt_or_eq.mp hlt with hlt | rfl
    · exact (congrArg Trb.cycle (hother hk hlt)).trans (h.cycles k hk hlt hne)
    · have hbuilt : s.built.isEmpty = false := by
        rw [List.isEmpty_eq_false_iff]
        rintro hnil
        exact hne (by simp [Sys.queue, hnil])
      exact (congrArg Trb.cycle htrb).trans (by simp [hbuilt])
  case stop =>
    rcases Nat.lt_or_ge s.published.length s.queue.length with hlt | hge
    · exact (congrArg Trb.cycle (hother hc hlt)).trans h.stop
    · have heq := le_antisymm hge hp
      have hbuilt : s.built = [] := by simpa [Sys.queue] using heq
      rw [heq] at htrb
      exact (congrArg Trb.cycle htrb).trans (by simp [hbuilt])
  case link =>
    intro k hpos hk hck hke
    rw [hq, hlength] at hke
    have hlink := he.link
    simp only [hwrap] at hlink
    rw [hsize] at hlink
    refine hlink.trans ?_
    by_cases hlast : (s.queue.length + 1) % n = 0
    · rw [if_pos hlast, h.cycleState]
      obtain rfl := eq_of_mod_eq hke (by dsimp only at hck; omega) (hk.trans hlast.symm)
      rw [lapCycle_succ, if_pos hlast, Bool.not_not]
    · rw [if_neg hlast]
      refine h.link k hpos hk hck ?_
      rcases hke.lt_or_eq with hlt | rfl
      · omega
      · exact absurd hk hlast

lemma publish (hb : s.building = some (i, c, built)) (hr : s.ring.publishTrb i c = some r)
    (hclean : s.Clean .publish) :
    { s with ring := r, building := none, published := s.published ++ built : Sys }.Inv n := by
  obtain ⟨hc, hp⟩ := h.lengths
  obtain ⟨rfl, rfl, hne⟩ := h.building _ _ _ hb
  have hbuilt : s.built = built := by rw [Sys.built, hb]; rfl
  have hqueue : s.queue = s.published ++ built := by rw [Sys.queue, hbuilt]
  have hq : { s with ring := r, building := none, published := s.published ++ built : Sys }.queue =
      s.queue := by
    rw [hqueue]
    simp [Sys.queue, Sys.built]
  have hlt : s.published.length < s.queue.length := by
    have := List.length_pos_iff.mpr hne
    rw [hqueue, List.length_append]
    omega
  have hroom := h.room
  have hle := h.reclaimed
  unfold Ring.publishTrb at hr
  split at hr
  · cases hr
  obtain rfl := Option.some.inj hr
  refine { h with
    consumed := h.consumed.trans (List.prefix_append _ _)
    room := hq ▸ hroom
    enqueueIdx := hq ▸ h.enqueueIdx
    cycleState := hq ▸ h.cycleState
    building := nofun
    words := ?words, cycles := ?cycles, stop := ?stop, link := ?link }
  case words =>
    intro k hk hkq
    rw [hq] at hkq ⊢
    rw [h.words k hk hkq]
    by_cases heq : k % n = s.published.length % n
    · simp [heq, publishPreparedTrb]
    · simp [heq]
  case cycles =>
    intro k hk hkq hkp
    rw [hq] at hkq
    rcases Nat.lt_trichotomy k s.published.length with hlt | rfl | hgt
    · have hkn := mod_ne (n := n) hlt (by dsimp only at hk; omega)
      simpa [hkn] using h.cycles k hk hkq hlt.ne
    · simp [publishPreparedTrb]
    · simpa [(mod_ne (n := n) hgt (by omega)).symm] using h.cycles k hk hkq hgt.ne'
  case stop =>
    have hstop := Bool.eq_not_iff.mpr (hclean rfl)
    rw [h.enqueueIdx, h.cycleState] at hstop
    rw [← hqueue]
    simpa [(mod_ne (n := n) hlt (by omega)).symm] using hstop
  case link =>
    intro k hpos hk hck hke
    rw [hq] at hke
    have hlast := (Nat.mod_lt s.published.length (by omega : n > 0)).ne'
    simpa [hlast] using h.link k hpos hk hck hke

lemma abort (hb : s.building = some (i, c, built)) :
    { s with ring := s.ring.abortUnpublished i c, building := none : Sys }.Inv n := by
  obtain ⟨hc, hp⟩ := h.lengths
  obtain ⟨rfl, rfl, -⟩ := h.building _ _ _ hb
  have hq (r : Ring) : { s with ring := r, building := none : Sys }.queue = s.published := by
    simp [Sys.queue, Sys.built]
  have hroom := h.room
  have hmod := Nat.mod_lt s.published.length (by omega : n > 0)
  rw [Ring.abortUnpublished, if_neg (by rw [h.size]; omega)]
  refine { h with
    room := by rw [hq]; exact hp.trans_lt hroom
    enqueueIdx := by rw [hq]
    cycleState := by rw [hq]
    building := nofun
    words := ?words, cycles := ?cycles, link := ?link }
  case words =>
    intro k hk hlt
    rw [hq] at hlt ⊢
    rw [← h.words k hk (by omega), Sys.queue, List.getElem?_append_left hlt]
  case cycles =>
    intro k hk hlt hne
    rw [hq] at hlt
    exact h.cycles k hk (by omega) hne
  case link =>
    intro k hpos hk hck hke
    rw [hq] at hke
    exact h.link k hpos hk hck (by omega)

lemma consume (hs : s.step .consume = some s') : s'.Inv n := by
  obtain ⟨hc, hp⟩ := h.lengths
  have hsize := h.pred_size
  have hmod := Nat.mod_lt s.consumed.length (by omega : n > 0)
  simp only [Sys.step, hsize] at hs
  split at hs
  · cases hs
  next hcycle =>
  rw [not_not] at hcycle
  rcases h.controller with ⟨hi, hcy⟩ | ⟨hi, hpos, hlap, hcy⟩
  · rw [if_neg (by omega)] at hs
    obtain rfl := Option.some.inj hs
    rw [hi, hcy] at hcycle
    have hlt : s.consumed.length < s.published.length := by
      refine lt_of_le_of_ne hc fun heq => ?_
      rw [heq, h.stop] at hcycle
      exact absurd hcycle (Bool.not_ne_self _)
    have hword := h.words _ le_rfl (hlt.trans_le hp)
    rw [Sys.queue, List.getElem?_append_left hlt, ← hi] at hword
    have hle {k : Nat} {w : Words} (hk : (s.consumed ++ [w]).length ≤ k) : s.consumed.length ≤ k :=
      le_trans (by simp) hk
    refine { h with
      reclaimed := h.reclaimed.trans (by simp)
      words := fun k hk => h.words k (hle hk)
      cycles := fun k hk => h.cycles k (hle hk)
      link := fun k hpos hk hck => h.link k hpos hk (hle hck)
      consumed := ?consumed, controller := ?controller }
    case consumed =>
      obtain ⟨rest, hrest⟩ := h.consumed
      rw [← hrest, List.getElem?_append_right le_rfl, Nat.sub_self, ← List.head?_eq_getElem?,
        List.head?_eq_some_iff] at hword
      obtain ⟨tail, rfl⟩ := hword
      exact ⟨tail, by rw [← hrest]; simp⟩
    case controller =>
      simp only [List.length_append, List.length_singleton, hi, hcy, lapCycle_succ]
      by_cases hlast : (s.consumed.length + 1) % n = 0
      · refine .inr ⟨?_, by omega, hlast, by rw [if_pos hlast, Bool.not_not]⟩
        rw [succ_mod (by omega)] at hlast
        split at hlast <;> omega
      · refine .inl ⟨?_, by rw [if_neg hlast]⟩
        rw [succ_mod (by omega)] at hlast ⊢
        split at hlast <;> simp_all
  · rw [if_pos hi] at hs
    obtain rfl := Option.some.inj hs
    exact { h with controller := .inl ⟨hlap.symm, by rw [hcy, Bool.not_not]⟩ }

lemma reclaimWalk_some {start fuel others : Nat} (hfuel : others < fuel) (hothers : others < n)
    (hr : s.ring.reclaimWalk ((start + others) % n) fuel (start % n) = some r) :
    r = { s.ring with dequeueIdx := (start + others + 1) % n } := by
  induction fuel generalizing start others with
  | zero => omega
  | succ fuel ih =>
    rw [Ring.reclaimWalk, h.after_mod hn] at hr
    split at hr
    next heq =>
      have := eq_of_mod_eq (by omega) (by omega) heq
      obtain rfl : others = 0 := by omega
      exact (Option.some.inj hr).symm
    next hne =>
      cases others with
      | zero => exact absurd rfl hne
      | succ others =>
        rw [show start + (others + 1) = start + 1 + others by omega] at hr ⊢
        exact ih (by omega) (by omega) hr

lemma step {act : Act} (hclean : s.Clean act) (hs : s.step act = some s') : s'.Inv n := by
  have hmod (k : Nat) := Nat.mod_lt k (by omega : n > 0)
  have hsize := h.pred_size
  cases act with
  | start words =>
    cases hb : s.building with
    | some b => simp [Sys.step, hb] at hs
    | none =>
      have hbuilt : s.built = [] := by rw [Sys.built, hb]; rfl
      have hqueue : s.queue = s.published := by rw [Sys.queue, hbuilt, List.append_nil]
      simp only [Sys.step, hb, Option.isSome_none, Bool.false_eq_true, if_false,
        Option.map_eq_some_iff] at hs
      obtain ⟨⟨r, i, c⟩, hr, rfl⟩ := hs
      obtain ⟨-, hi, hc⟩ := enqueueInternal_some (by rw [hsize, h.enqueueIdx]; exact hmod _) hr
      rw [h.enqueueIdx, hqueue] at hi
      rw [h.cycleState, hqueue] at hc
      have hinv := h.enqueue hn (by rw [hbuilt]; exact hr) hi hc
      rwa [hbuilt] at hinv
  | more words =>
    obtain ⟨⟨i, c, built⟩, hb, hs⟩ := Option.bind_eq_some_iff.mp hs
    obtain ⟨⟨r, _, _⟩, hr, rfl⟩ := Option.map_eq_some_iff.mp hs
    obtain ⟨hi, hc, hne⟩ := h.building _ _ _ hb
    have hbuilt : s.built = built := by rw [Sys.built, hb]; rfl
    have hinv := h.enqueue hn (by rw [hbuilt, List.isEmpty_eq_false_iff.mpr hne]; exact hr) hi hc
    rwa [hbuilt] at hinv
  | publish =>
    obtain ⟨⟨i, c, built⟩, hb, hs⟩ := Option.bind_eq_some_iff.mp hs
    obtain ⟨r, hr, rfl⟩ := Option.map_eq_some_iff.mp hs
    exact h.publish hn hb hr hclean
  | abort =>
    obtain ⟨⟨i, c, built⟩, hb, rfl⟩ := Option.map_eq_some_iff.mp hs
    exact h.abort hn hb
  | reclaimTransfer =>
    simp only [Sys.step] at hs
    split at hs
    next hlt =>
      obtain ⟨r, hr, rfl⟩ := Option.map_eq_some_iff.mp hs
      simp only [Ring.reclaimTransfer, hsize, ne_eq, not_true_eq_false, or_false] at hr
      split at hr
      · cases hr
      obtain rfl := Option.some.inj hr
      have hinv := h.reclaim 1 hlt
      rwa [← h.after_mod hn, ← h.dequeueIdx] at hinv
    · cases hs
  | reclaimTd others =>
    simp only [Sys.step, hsize] at hs
    split at hs
    next hlt =>
      obtain ⟨r, hr, rfl⟩ := Option.map_eq_some_iff.mp hs
      have hlengths := h.lengths
      have hroom := h.room
      simp only [Ring.reclaimTd, hsize] at hr
      split at hr
      · cases hr
      rw [h.dequeueIdx, Nat.mod_add_mod] at hr
      obtain rfl := h.reclaimWalk_some hn (by omega) (by omega) hr
      exact h.reclaim (others + 1) hlt
    · cases hs
  | consume => exact h.consume hn hs

lemma orderly : s.Orderly where
  consumed := h.consumed
  idle := by
    intro hidle
    obtain ⟨hc, hp⟩ := h.lengths
    refine h.consumed.eq_of_length (le_antisymm hc (Nat.le_of_not_lt fun hlt => hidle ?_))
    rcases h.controller with ⟨hi, hcy⟩ | ⟨hi, hpos, hlap, hcy⟩
    · rw [hi, hcy]
      exact h.cycles _ le_rfl (hlt.trans_le hp) hlt.ne
    · rw [hi, hcy]
      exact h.link _ hpos hlap le_rfl (hc.trans hp)
  kept := by
    intro k hk hlt
    have hword := h.words k hk (hlt.trans_le h.lengths.2)
    rwa [Sys.queue, List.getElem?_append_left hlt, ← h.pred_size] at hword
  full := by
    intro words publish hfull
    have hlengths := h.lengths
    have hroom := h.room
    have hle := h.reclaimed
    have hnext : s.ring.after s.ring.enqueueIdx = s.ring.dequeueIdx := by
      by_contra hne
      simp [Ring.enqueueInternal, hne] at hfull
    rw [h.enqueueIdx, h.after_mod hn, h.dequeueIdx] at hnext
    have hlen : s.queue.length = s.published.length + s.built.length := List.length_append
    have heq : s.queue.length + 1 = s.reclaimed + n :=
      eq_of_mod_eq (by omega) (by omega) (hnext.trans (Nat.add_mod_right _ _).symm)
    have hsize := h.size
    omega

end Sys.Inv

lemma lapCycle_add (hn : 0 < n) (k : Nat) : lapCycle n (k + n) = !lapCycle n k := by
  simp only [lapCycle, Nat.add_div_right _ hn]
  rw [← decide_not, decide_eq_decide]
  omega

/-- Without aborts the places ahead still have the Cycle bits of the lap before, apart from that of
the first TRB of the transfer begun. -/
structure Sys.Swept (n : Nat) (s : Sys) : Prop where
  inv : s.Inv n
  cycles : ∀ k, s.queue.length ≤ k → k < s.queue.length + n → k ≠ s.published.length + n →
    (s.ring.trbs (k % n)).cycle = !lapCycle n k

lemma swept_init (hn : 2 ≤ n) (physBase : UInt64) : (Sys.init (n + 1) physBase).Swept n where
  inv := inv_init hn physBase
  cycles k _ hk _ := by
    have hlt : k < n := by simpa [Sys.init, Sys.queue, Sys.built] using hk
    simp [Sys.init, ringAlloc, lapCycle, Nat.div_eq_of_lt hlt]

namespace Sys.Swept

variable (h : s.Swept n) (hn : 2 ≤ n)

include h hn

lemma clean (act : Act) : s.Clean act := by
  intro _
  have hroom := h.inv.room
  have hreclaimed := h.inv.reclaimed
  have hlengths := h.inv.lengths
  rw [h.inv.enqueueIdx, h.inv.cycleState, h.cycles _ le_rfl (by omega) (by omega)]
  simp

lemma enqueue (hr : s.ring.enqueueInternal words (!s.built.isEmpty) = some (r, i, c)) {k : Nat}
    (hk : s.queue.length + 1 ≤ k) (hlt : k < s.queue.length + 1 + n)
    (hne : k ≠ s.published.length + n) : (r.trbs (k % n)).cycle = !lapCycle n k := by
  have hsize := h.inv.pred_size
  have hmod (k : Nat) := Nat.mod_lt k (by omega : n > 0)
  obtain ⟨he, -, -⟩ := enqueueInternal_some (by rw [hsize, h.inv.enqueueIdx]; exact hmod _) hr
  by_cases hlast : k = s.queue.length + n
  · have hbuilt : s.built.isEmpty = false := by
      rw [List.isEmpty_eq_false_iff]
      rintro hnil
      exact hne (by simp [hlast, Sys.queue, hnil])
    have htrb := he.trb
    rw [h.inv.enqueueIdx, hbuilt] at htrb
    rw [hlast, Nat.add_mod_right, htrb, lapCycle_add (by omega), Bool.not_not]
    exact h.inv.cycleState
  · rw [he.other _ (by rw [hsize]; exact hmod k)
      (by rw [h.inv.enqueueIdx]; exact (mod_ne (by omega) (by omega)).symm)]
    exact h.cycles k (by omega) (by omega) hne

lemma publish (hb : s.building = some (i, c, built)) (hr : s.ring.publishTrb i c = some r) {k : Nat}
    (hk : s.queue.length ≤ k) (hlt : k < s.queue.length + n) :
    (r.trbs (k % n)).cycle = !lapCycle n k := by
  obtain ⟨rfl, rfl, hne⟩ := h.inv.building _ _ _ hb
  have hroom := h.inv.room
  have hreclaimed := h.inv.reclaimed
  have hlengths := h.inv.lengths
  have hpos : s.published.length < s.queue.length := by
    have := List.length_pos_iff.mpr hne
    have hbuilt : s.built = built := by rw [Sys.built, hb]; rfl
    rw [Sys.queue, hbuilt, List.length_append]
    omega
  unfold Ring.publishTrb at hr
  split at hr
  · cases hr
  obtain rfl := Option.some.inj hr
  by_cases hfirst : k = s.published.length + n
  · rw [hfirst, Nat.add_mod_right, lapCycle_add (by omega), Bool.not_not]
    simp [publishPreparedTrb]
  · -- less than a lap from the place of the first TRB, so at another one
    have hother : k % n ≠ s.published.length % n := by
      rw [← Nat.add_mod_right s.published.length n]
      rcases Nat.lt_or_gt_of_ne hfirst with hbefore | hbehind
      · exact mod_ne hbefore (by omega)
      · exact (mod_ne hbehind (by omega)).symm
    simpa [hother] using h.cycles k hk hlt hfirst

lemma step {act : Act} (hact : act ≠ .abort) (hs : s.step act = some s') : s'.Swept n := by
  refine ⟨h.inv.step hn (h.clean hn act) hs, ?_⟩
  have hsize := h.inv.pred_size
  cases act with
  | start words =>
    cases hb : s.building with
    | some b => simp [Sys.step, hb] at hs
    | none =>
      have hbuilt : s.built = [] := by rw [Sys.built, hb]; rfl
      have hqueue : s.queue = s.published := by rw [Sys.queue, hbuilt, List.append_nil]
      simp only [Sys.step, hb, Option.isSome_none, Bool.false_eq_true, if_false,
        Option.map_eq_some_iff] at hs
      obtain ⟨⟨r, i, c⟩, hr, rfl⟩ := hs
      intro k hk hlt hne
      have hlength : (s.published ++ [words]).length = s.queue.length + 1 := by simp [hqueue]
      rw [Sys.queue, Sys.built] at hk hlt
      exact h.enqueue hn (by rw [hbuilt]; exact hr) (hlength ▸ hk) (hlength ▸ hlt) hne
  | more words =>
    obtain ⟨⟨i, c, built⟩, hb, hs⟩ := Option.bind_eq_some_iff.mp hs
    obtain ⟨⟨r, _, _⟩, hr, rfl⟩ := Option.map_eq_some_iff.mp hs
    obtain ⟨-, -, hne⟩ := h.inv.building _ _ _ hb
    have hbuilt : s.built = built := by rw [Sys.built, hb]; rfl
    intro k hk hlt hne'
    have hlength : (s.published ++ (built ++ [words])).length = s.queue.length + 1 := by
      simp [Sys.queue, hbuilt]
      omega
    rw [Sys.queue, Sys.built] at hk hlt
    exact h.enqueue hn (by rw [hbuilt, List.isEmpty_eq_false_iff.mpr hne]; exact hr)
      (hlength ▸ hk) (hlength ▸ hlt) hne'
  | publish =>
    obtain ⟨⟨i, c, built⟩, hb, hs⟩ := Option.bind_eq_some_iff.mp hs
    obtain ⟨r, hr, rfl⟩ := Option.map_eq_some_iff.mp hs
    intro k hk hlt _
    have hlength : ((s.published ++ built) ++ []).length = s.queue.length := by
      have hbuilt : s.built = built := by rw [Sys.built, hb]; rfl
      rw [List.append_nil, Sys.queue, hbuilt]
    rw [Sys.queue, Sys.built] at hk hlt
    exact h.publish hn hb hr (hlength ▸ hk) (hlength ▸ hlt)
  | abort => exact absurd rfl hact
  | reclaimTransfer =>
    simp only [Sys.step] at hs
    split at hs
    · obtain ⟨r, hr, rfl⟩ := Option.map_eq_some_iff.mp hs
      unfold Ring.reclaimTransfer at hr
      split at hr
      · cases hr
      obtain rfl := Option.some.inj hr
      exact h.cycles
    · cases hs
  | reclaimTd others =>
    simp only [Sys.step, hsize] at hs
    split at hs
    next hlt =>
      obtain ⟨r, hr, rfl⟩ := Option.map_eq_some_iff.mp hs
      have hlengths := h.inv.lengths
      have hroom := h.inv.room
      simp only [Ring.reclaimTd, hsize] at hr
      split at hr
      · cases hr
      rw [h.inv.dequeueIdx, Nat.mod_add_mod] at hr
      obtain rfl := h.inv.reclaimWalk_some hn (by omega) (by omega) hr
      exact h.cycles
    · cases hs
  | consume =>
    simp only [Sys.step] at hs
    split at hs
    · cases hs
    split at hs
    · cases hs
      exact h.cycles
    · cases hs
      exact h.cycles

lemma allowed {acts : List Act} (hacts : .abort ∉ acts) : AllowedBy Sys.step Sys.Clean s acts := by
  induction acts generalizing s with
  | nil => trivial
  | cons act rest ih =>
    rw [List.mem_cons, not_or] at hacts
    exact ⟨h.clean hn act, fun s1 hs1 => ih (h.step hn (Ne.symm hacts.1) hs1) hacts.2⟩

end Sys.Swept

/-- A run without aborts publishes all of its transfers cleanly. -/
lemma clean_of_no_abort {size : Nat} (hsize : 3 ≤ size) (physBase : UInt64) {acts : List Act}
    (h : .abort ∉ acts) : AllowedBy Sys.step Sys.Clean (Sys.init size physBase) acts := by
  obtain ⟨n, rfl⟩ : ∃ n, size = n + 1 := ⟨size - 1, by omega⟩
  exact (swept_init (by omega) physBase).allowed (by omega) h

/-- In a run whose transfers are all published cleanly, the controller consumes what was published,
in order, and a full ring is full of it. -/
theorem transfers_orderly {size : Nat} (hsize : 3 ≤ size) (physBase : UInt64) {acts : List Act}
    {s : Sys} (hclean : AllowedBy Sys.step Sys.Clean (Sys.init size physBase) acts)
    (hrun : runBy Sys.step (Sys.init size physBase) acts = some s) : s.Orderly := by
  obtain ⟨n, rfl⟩ : ∃ n, size = n + 1 := ⟨size - 1, by omega⟩
  have hn : 2 ≤ n := by omega
  have hinv : s.Inv n := keeps_of_steps (fun h hclean hs => h.step hn hclean hs)
    (steps_of_runBy hclean hrun) (inv_init hn physBase)
  exact hinv.orderly hn

def control (i : Nat) : Words := ⟨0, 0, 0, BitVec.ofNat 31 i⟩

def twoTransfers : List Act :=
  [.start (control 1), .more (control 2), .publish, .consume, .consume, .reclaimTd 1,
    .start (control 3), .publish, .consume]

/-- A transfer of two TRBs and one of one, over the end of the ring. -/
theorem transfers_orderly_two : ∃ s, runBy Sys.step (Sys.init 4 0) twoTransfers = some s ∧
    s.Orderly ∧ s.consumed = [control 1, control 2, control 3] := by
  have hclean := clean_of_no_abort (by decide : 3 ≤ 4) 0 (by decide : .abort ∉ twoTransfers)
  exact ⟨_, rfl, transfers_orderly (by decide) 0 hclean rfl, by decide⟩

def abortedLonger : List Act :=
  [.start (control 1), .more (control 2), .more (control 3), .abort, .start (control 4),
    .more (control 5), .publish, .consume, .consume, .consume]

/-- After a shorter transfer the controller goes on into the rest of an aborted one. -/
theorem aborted_trb_consumed :
    (runBy Sys.step (Sys.init 5 0) abortedLonger).map (fun s => (s.published, s.consumed)) =
      some ([control 4, control 5], [control 4, control 5, control 3]) := by
  decide

end Mangrove.Usb
