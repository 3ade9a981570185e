import Mathlib

/-! Storage behind a volatile cache. A write is pending until the next flush, and
a power loss keeps any part of what is pending, each sector by itself. -/

namespace Mangrove

/-- A medium, and the writes that are not yet on it for certain. -/
structure Media (α : Type) where
  durable : Nat → α
  pending : List (Nat × α)

namespace Media

variable {α : Type} {m : Media α} {medium : Nat → α} {s lba count : Nat} {sector : Nat → α} {v : α}

def write (m : Media α) (lba count : Nat) (sector : Nat → α) : Media α :=
  { m with pending := m.pending ++ (List.range count).map fun k => (lba + k, sector k) }

def contents (m : Media α) : Nat → α :=
  m.pending.foldl (fun medium w => Function.update medium w.1 w.2) m.durable

def flush (m : Media α) : Media α := ⟨m.contents, []⟩

/-- What the medium may hold after a power loss. -/
def Survives (m : Media α) (medium : Nat → α) : Prop :=
  ∀ s, medium s = m.durable s ∨ (s, medium s) ∈ m.pending

/-- A power loss leaves `v` in sector `s`. -/
def Holds (m : Media α) (s : Nat) (v : α) : Prop :=
  m.durable s = v ∧ ∀ w ∈ m.pending, w.1 = s → w.2 = v

lemma Holds.survives (h : m.Holds s v) (hsurvives : m.Survives medium) : medium s = v := by
  rcases hsurvives s with hs | hs
  · exact hs.trans h.1
  · exact h.2 _ hs rfl

lemma Holds.write (h : m.Holds s v) (hs : s < lba ∨ lba + count ≤ s) :
    (m.write lba count sector).Holds s v := by
  refine ⟨h.1, fun w hw hws => ?_⟩
  rcases List.mem_append.mp hw with hw | hw
  · exact h.2 w hw hws
  · obtain ⟨k, hk, rfl⟩ := List.mem_map.mp hw
    have := List.mem_range.mp hk
    omega

lemma foldl_update_eq {pending : List (Nat × α)} (hs : medium s = v)
    (h : ∀ w ∈ pending, w.1 = s → w.2 = v) :
    pending.foldl (fun medium w => Function.update medium w.1 w.2) medium s = v := by
  induction pending generalizing medium with
  | nil => exact hs
  | cons w rest ih =>
    refine ih ?_ fun w' hw' => h w' (List.mem_cons_of_mem _ hw')
    dsimp only
    by_cases hw : s = w.1
    · rw [hw, Function.update_self]
      exact h w List.mem_cons_self hw.symm
    · rw [Function.update_of_ne hw, hs]

lemma Holds.flush (h : m.Holds s v) : m.flush.Holds s v :=
  ⟨foldl_update_eq h.1 h.2, by simp [Media.flush]⟩

lemma holds_flush : m.flush.Holds s (m.contents s) := ⟨rfl, by simp [Media.flush]⟩

lemma contents_write_of_not_mem (hs : s < lba ∨ lba + count ≤ s) :
    (m.write lba count sector).contents s = m.contents s := by
  unfold contents write
  rw [List.foldl_append]
  induction count with
  | zero => rfl
  | succ n ih =>
    rw [List.range_succ, List.map_append, List.foldl_append]
    refine (Function.update_of_ne ?_ _ _).trans (ih (by omega))
    dsimp only
    omega

lemma contents_write_of_mem (hs : lba ≤ s) (hs' : s < lba + count) :
    (m.write lba count sector).contents s = sector (s - lba) := by
  unfold contents write
  rw [List.foldl_append]
  induction count with
  | zero => omega
  | succ n ih =>
    rw [List.range_succ, List.map_append, List.foldl_append]
    by_cases hn : s = lba + n
    · subst hn
      rw [Nat.add_sub_cancel_left]
      exact Function.update_self _ _ _
    · exact (Function.update_of_ne hn _ _).trans (ih (by omega))

lemma survives_contents (m : Media α) : m.Survives m.contents := by
  obtain ⟨durable, pending⟩ := m
  intro s
  unfold contents
  induction pending generalizing durable with
  | nil => exact .inl rfl
  | cons w rest ih =>
    rcases ih (Function.update durable w.1 w.2) with hs | hs
    · by_cases hw : s = w.1
      · refine .inr (List.mem_cons.mpr (.inl ?_))
        dsimp only [List.foldl_cons] at hs ⊢
        rw [hs, hw, Function.update_self]
      · refine .inl (hs.trans ?_)
        exact Function.update_of_ne hw _ _
    · exact .inr (List.mem_cons_of_mem _ hs)

/-- Any part of a write may be on the medium before the next flush. -/
lemma survives_write (h : ∀ s, medium s = m.contents s ∨
      ∃ k < count, s = lba + k ∧ medium s = sector k) :
    (m.write lba count sector).Survives medium := by
  intro s
  rcases h s with hs | ⟨k, hk, rfl, hs⟩
  · rw [hs]
    exact (m.survives_contents s).imp id fun hmem => List.mem_append_left _ hmem
  · refine .inr (List.mem_append_right _ (List.mem_map.mpr ⟨k, List.mem_range.mpr hk, ?_⟩))
    rw [hs]

end Media

end Mangrove
