import Mathlib

/-! Runs of a system with an executable step function, under a condition on every step, machines
that are fed one input after the other and may refuse one, and positions of a ring. -/

namespace Mangrove

variable {σ α : Type} {step : σ → α → Option σ} {cond : σ → α → Prop} {s s' : σ}

def StepBy (step : σ → α → Option σ) (cond : σ → α → Prop) (s s' : σ) : Prop :=
  ∃ act, cond s act ∧ step s act = some s'

def runBy (step : σ → α → Option σ) (s : σ) : List α → Option σ
  | [] => some s
  | act :: rest => (step s act).bind fun s => runBy step s rest

def AllowedBy (step : σ → α → Option σ) (cond : σ → α → Prop) (s : σ) : List α → Prop
  | [] => True
  | act :: rest => cond s act ∧ ∀ s₁ ∈ step s act, AllowedBy step cond s₁ rest

instance AllowedBy.decidable (step : σ → α → Option σ) (cond : σ → α → Prop)
    [∀ s act, Decidable (cond s act)] (s : σ) : ∀ acts, Decidable (AllowedBy step cond s acts)
  | [] => .isTrue trivial
  | act :: rest =>
    match hstep : step s act with
    | none => decidable_of_iff (cond s act) (by simp [AllowedBy, hstep])
    | some s₁ =>
      have := AllowedBy.decidable step cond s₁ rest
      decidable_of_iff (cond s act ∧ AllowedBy step cond s₁ rest) (by simp [AllowedBy, hstep])

lemma steps_of_runBy {acts : List α} (hcond : AllowedBy step cond s acts)
    (h : runBy step s acts = some s') : Relation.ReflTransGen (StepBy step cond) s s' := by
  induction acts generalizing s with
  | nil =>
    obtain rfl := Option.some.inj h
    exact .refl
  | cons act rest ih =>
    obtain ⟨s1, hstep, hrest⟩ := Option.bind_eq_some_iff.mp h
    exact .head ⟨act, hcond.1, hstep⟩ (ih (hcond.2 s1 hstep) hrest)

lemma keeps_of_steps {P : σ → Prop}
    (hkeeps : ∀ {s s' : σ} {act : α}, P s → cond s act → step s act = some s' → P s')
    (hrun : Relation.ReflTransGen (StepBy step cond) s s') (hs : P s) : P s' := by
  induction hrun with
  | refl => exact hs
  | tail _ hstep ih =>
    obtain ⟨act, hcond, hstep⟩ := hstep
    exact hkeeps ih hcond hstep

/-- Positions of a ring of `n` cells that are less than a lap apart are in different cells. -/
lemma eq_of_mod_eq {k j n : Nat} (hle : k ≤ j) (hlt : j < k + n) (h : k % n = j % n) :
    k = j := by
  have hdvd := (Nat.modEq_iff_dvd' hle).mp h
  have hzero := Nat.eq_zero_of_dvd_of_lt hdvd (by omega)
  omega

lemma mod_ne {k j n : Nat} (hlt : k < j) (hj : j < k + n) : k % n ≠ j % n := fun h =>
  hlt.ne (eq_of_mod_eq hlt.le hj h)

section

variable {next : σ → α → σ} {drop : σ → α → Bool} {fine : σ → α → Prop} {rel : σ → σ → Prop}

def kept (next : σ → α → σ) (drop : σ → α → Bool) (s : σ) : List α → List α
  | [] => []
  | act :: rest =>
    if drop s act then kept next drop (next s act) rest
    else act :: kept next drop (next s act) rest

def AllFine (next : σ → α → σ) (fine : σ → α → Prop) (s : σ) : List α → Prop
  | [] => True
  | act :: rest => fine s act ∧ AllFine next fine (next s act) rest

instance AllFine.decidable [∀ s act, Decidable (fine s act)] (s : σ) :
    ∀ acts, Decidable (AllFine next fine s acts)
  | [] => .isTrue trivial
  | act :: rest =>
    have := AllFine.decidable (next s act) rest
    inferInstanceAs (Decidable (fine s act ∧ AllFine next fine (next s act) rest))

lemma rel_kept (hkeep : ∀ {s t act}, rel s t → fine s act → drop s act = false →
      rel (next s act) (next t act))
    (hdrop : ∀ {s t act}, rel s t → fine s act → drop s act = true → rel (next s act) t)
    {s t : σ} (h : rel s t) {acts : List α} (hfine : AllFine next fine s acts) :
    rel (acts.foldl next s) ((kept next drop s acts).foldl next t) := by
  induction acts generalizing s t with
  | nil => exact h
  | cons act rest ih =>
    unfold kept
    by_cases hact : drop s act = true
    · rw [if_pos hact]
      exact ih (hdrop h hfine.1 hact) hfine.2
    · rw [if_neg hact]
      exact ih (hkeep h hfine.1 (Bool.eq_false_iff.mpr hact)) hfine.2

end

end Mangrove

namespace Mangrove.Feed

variable {σ β α : Type} {step : σ → β → Option σ} {done : σ → Prop}

variable (step done) in
def Reaches (s : σ) (data : List β) (t : σ) : Prop :=
  data.foldlM step s = some t ∧
    ∀ n < data.length, ∃ u, (data.take n).foldlM step s = some u ∧ ¬ done u

variable (step done) in
def Passes (s : σ) (data : List β) (fits : Prop) (post : σ → Prop) : Prop :=
  (fits → ∃ t, Reaches step done s data t ∧ post t) ∧ (¬ fits → data.foldlM step s = none)

lemma Reaches.nil (s : σ) : Reaches step done s [] s := ⟨rfl, nofun⟩

lemma Reaches.single {s t : σ} {b : β} (h : step s b = some t) (hs : ¬ done s) :
    Reaches step done s [b] t := by
  refine ⟨by rw [List.foldlM_cons, h]; rfl, ?_⟩
  intro n hn
  obtain rfl : n = 0 := by simpa using hn
  exact ⟨s, rfl, hs⟩

lemma Reaches.append {s t u : σ} {a b : List β} (ha : Reaches step done s a t)
    (hb : Reaches step done t b u) : Reaches step done s (a ++ b) u := by
  refine ⟨by rw [List.foldlM_append, ha.1]; exact hb.1, ?_⟩
  intro n hn
  by_cases hshort : n < a.length
  · rw [List.take_append_of_le_length hshort.le]
    exact ha.2 n hshort
  · obtain ⟨k, rfl⟩ := Nat.exists_eq_add_of_le (Nat.le_of_not_lt hshort)
    rw [List.length_append] at hn
    rw [List.take_length_add_append, List.foldlM_append, ha.1]
    exact hb.2 k (by omega)

lemma Passes.of_reaches {s t : σ} {data : List β} {post : σ → Prop}
    (h : Reaches step done s data t) (ht : post t) : Passes step done s data True post :=
  ⟨fun _ => ⟨t, h, ht⟩, fun hn => absurd trivial hn⟩

lemma Passes.append {s : σ} {a b : List β} {fits fits' : Prop} {mid post : σ → Prop}
    (ha : Passes step done s a fits mid) (hb : ∀ t, mid t → Passes step done t b fits' post) :
    Passes step done s (a ++ b) (fits ∧ fits') post := by
  constructor
  · rintro ⟨hfits, hfits'⟩
    obtain ⟨t, hreach, hmid⟩ := ha.1 hfits
    obtain ⟨u, hreach', hpost⟩ := (hb t hmid).1 hfits'
    exact ⟨u, hreach.append hreach', hpost⟩
  · intro hnot
    rw [List.foldlM_append]
    by_cases hfits : fits
    · obtain ⟨t, hreach, hmid⟩ := ha.1 hfits
      rw [hreach.1]
      exact (hb t hmid).2 fun hfits' => hnot ⟨hfits, hfits'⟩
    · rw [ha.2 hfits]
      rfl

lemma Passes.congr {s : σ} {data : List β} {fits fits' : Prop} {post post' : σ → Prop}
    (h : Passes step done s data fits post) (hfits : fits ↔ fits')
    (hpost : ∀ t, post t → post' t) : Passes step done s data fits' post' := by
  refine ⟨?_, fun hnot => h.2 fun hf => hnot (hfits.mp hf)⟩
  intro hf
  obtain ⟨t, hreach, ht⟩ := h.1 (hfits.mpr hf)
  exact ⟨t, hreach, hpost t ht⟩

lemma Passes.flatMap {inv : List α → σ → Prop} {text : α → List β} {fits : α → Prop}
    (hstep : ∀ x rest s, inv (x :: rest) s → Passes step done s (text x) (fits x) (inv rest))
    {xs : List α} {s : σ} (hs : inv xs s) :
    Passes step done s (xs.flatMap text) (∀ x ∈ xs, fits x) (inv []) := by
  induction xs generalizing s with
  | nil => exact (Passes.of_reaches (Reaches.nil s) hs).congr (by simp) fun _ => id
  | cons x rest ih =>
    rw [List.flatMap_cons]
    exact ((hstep x rest s hs).append fun t => ih).congr (by simp) fun _ => id

end Mangrove.Feed
