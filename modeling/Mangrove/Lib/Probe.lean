import Mathlib

/-! Open addressing. A key goes into the first free cell of its probe sequence, so a
lookup that has found a key finds it again after any keys put into free cells. -/

namespace Mangrove.Probe

open Function (update)

variable {κ ν : Type} [DecidableEq κ] (next : Nat → Nat) (cell : Nat → Option (κ × ν)) (k : κ)

def find : Nat → Nat → Option ν
  | _, 0 => none
  | i, n + 1 =>
    match cell i with
    | none => none
    | some (key, v) => if key = k then some v else find (next i) n

/-- The free cell the key is put into; none if the key is met first, or no free
cell within `n` probes. -/
def place : Nat → Nat → Option Nat
  | _, 0 => none
  | i, n + 1 =>
    match cell i with
    | none => some i
    | some (key, _) => if key = k then none else place (next i) n

variable {next cell k} {i j n : Nat} {v : ν}

lemma place_free (h : place next cell k i n = some j) : cell j = none := by
  induction n generalizing i with
  | zero => cases h
  | succ n ih =>
    rw [place] at h
    split at h
    · rename_i hc
      exact Option.some.inj h ▸ hc
    · split at h
      · cases h
      · exact ih h

lemma find_place (h : place next cell k i n = some j) :
    find next (update cell j (some (k, v))) k i n = some v := by
  have hj := place_free h
  induction n generalizing i with
  | zero => cases h
  | succ n ih =>
    rw [place] at h
    split at h
    · obtain rfl := Option.some.inj h
      simp [find]
    · rename_i key u hc
      have hne : i ≠ j := by
        rintro rfl
        rw [hj] at hc
        cases hc
      split at h
      · cases h
      · rename_i hkey
        rw [find, Function.update_of_ne hne, hc]
        simp only [if_neg hkey]
        exact ih h

lemma find_update (h : find next cell k i n = some v) (hj : cell j = none)
    (x : Option (κ × ν)) : find next (update cell j x) k i n = some v := by
  induction n generalizing i with
  | zero => cases h
  | succ n ih =>
    rw [find] at h
    split at h
    · cases h
    · rename_i key u hc
      have hne : i ≠ j := by
        rintro rfl
        rw [hj] at hc
        cases hc
      rw [find, Function.update_of_ne hne, hc]
      split at h
      · rename_i hkey
        simpa only [if_pos hkey] using h
      · rename_i hkey
        simp only [if_neg hkey]
        exact ih h

end Mangrove.Probe
