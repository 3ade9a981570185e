import Mathlib

/-! Programs that change a state and may stop early with an error, where the state reached is kept;
and programs that issue operations, go on with each answer and may stop after any. -/

namespace Mangrove

section

variable {ε δ α β : Type}

def ensure (c : Prop) [Decidable c] (e : ε) : Except ε Unit := if c then .ok () else .error e

def orElse (e : δ) : Except ε α → Except δ α
  | .ok a => .ok a
  | .error _ => .error e

variable {e : ε} {c : Prop}

lemma ensure_ok [Decidable c] {u : Unit} : ensure c e = .ok u ↔ c := by
  by_cases hc : c <;> simp [ensure, hc]

lemma ensure_pos [Decidable c] (h : c) : ensure c e = .ok () := if_pos h

lemma ensure_neg [Decidable c] (h : ¬ c) : ensure c e = .error e := if_neg h

lemma ensure_congr {c d : Prop} [Decidable c] [Decidable d] (h : c ↔ d) :
    ensure c e = ensure d e := by
  simp only [h]

lemma ok_bind (a : α) (f : α → Except ε β) : (Except.ok a >>= f) = f a := rfl

lemma error_bind (e : ε) (f : α → Except ε β) : (Except.error e >>= f) = .error e := rfl

variable {x : Except ε α}

lemma orElse_ok {e : δ} {a : α} : orElse e x = .ok a ↔ x = .ok a := by
  cases x <;> simp [orElse]

lemma except_bind_ok {f : α → Except ε β} {b : β} :
    (x >>= f) = .ok b ↔ ∃ a, x = .ok a ∧ f a = .ok b := by
  cases x <;> simp [bind, Except.bind]

lemma ensure_bind_ok [Decidable c] {f : Unit → Except ε β} {b : β} :
    (ensure c e >>= f) = .ok b ↔ c ∧ f () = .ok b := by
  by_cases hc : c <;> simp [ensure, hc, bind, Except.bind]

end

def Prog (σ ε α : Type) := σ → Except ε α × σ

namespace Prog

variable {σ ε δ α β : Type}

instance : Monad (Prog σ ε) where
  pure a := fun s => (.ok a, s)
  bind x f := fun s =>
    match x s with
    | (.ok a, s') => f a s'
    | (.error e, s') => (.error e, s')

def fail (e : ε) : Prog σ ε α := fun s => (.error e, s)

def require (c : Prop) [Decidable c] (e : ε) : Prog σ ε Unit :=
  fun s => if c then (.ok (), s) else (.error e, s)

def modify (f : σ → σ) : Prog σ ε Unit := fun s => (.ok (), f s)

def get : Prog σ ε σ := fun s => (.ok s, s)

def look (f : σ → Except ε α) : Prog σ ε α := fun s => (f s, s)

def attempt (x : Prog σ ε α) : Prog σ ε Unit := fun s => (.ok (), (x s).2)

/-- Run the body for `i`, `i + 1`, ..., `i + n - 1`, threading an accumulator. -/
def upFrom (body : Nat → α → Prog σ ε α) : Nat → Nat → α → Prog σ ε α
  | _, 0, a => pure a
  | i, n + 1, a => do
    let a' ← body i a
    upFrom body (i + 1) n a'

/-- `Q` holds if the program succeeds and `E` holds if it stops early. -/
def wp (x : Prog σ ε α) (Q : α → σ → Prop) (E : ε → σ → Prop) (s : σ) : Prop :=
  match x s with
  | (.ok a, s') => Q a s'
  | (.error e, s') => E e s'

variable {x : Prog σ ε α} {f : α → Prog σ ε β} {Q : α → σ → Prop} {E : ε → σ → Prop}
  {s s' : σ} {a : α} {e : ε}

lemma wp_pure : wp (pure a) Q E s ↔ Q a s := Iff.rfl

lemma wp_modify {f : σ → σ} {Q : Unit → σ → Prop} : wp (modify f) Q E s ↔ Q () (f s) := Iff.rfl

lemma wp_get {Q : σ → σ → Prop} : wp get Q E s ↔ Q s s := Iff.rfl

lemma wp_require {c : Prop} [Decidable c] {Q : Unit → σ → Prop} :
    wp (require c e) Q E s ↔ (c → Q () s) ∧ (¬ c → E e s) := by
  by_cases hc : c <;> simp [wp, require, hc]

lemma wp_look {f : σ → Except ε α} :
    wp (look f) Q E s ↔ (∀ a, f s = .ok a → Q a s) ∧ (∀ e, f s = .error e → E e s) := by
  cases hf : f s <;> simp [wp, look, hf]

lemma wp.look_ok {f : σ → Except ε α} (h : f s = .ok a) (hq : Q a s) : wp (Prog.look f) Q E s := by
  simpa [wp, Prog.look, h] using hq

lemma wp.look {f : σ → Except ε α} (hno : (∀ a, f s ≠ .ok a) → ∀ e, E e s)
    (h : ∀ a, f s = .ok a → Q a s) : wp (Prog.look f) Q E s := by
  refine wp_look.mpr ⟨h, fun e he => hno (fun a ha => ?_) e⟩
  rw [ha] at he
  cases he

lemma wp_attempt {Q : Unit → σ → Prop} :
    wp (attempt x) Q E s ↔ wp x (fun _ => Q ()) (fun _ => Q ()) s := by
  unfold wp attempt
  rcases x s with ⟨a | a, s'⟩ <;> rfl

lemma wp_bind {Q : β → σ → Prop} : wp (x >>= f) Q E s ↔ wp x (fun a => wp (f a) Q E) E s := by
  unfold wp
  show (match (match x s with
    | (.ok a, s') => f a s'
    | (.error e, s') => (.error e, s') : Except ε β × σ) with
    | (.ok a, s') => Q a s'
    | (.error e, s') => E e s') ↔ _
  rcases x s with ⟨a | a, s'⟩ <;> rfl

lemma wp_get_bind {f : σ → Prog σ ε β} {Q : β → σ → Prop} :
    wp (get >>= f) Q E s ↔ wp (f s) Q E s := Iff.rfl

lemma wp_modify_bind {g : σ → σ} {f : Unit → Prog σ ε β} {Q : β → σ → Prop} :
    wp (modify g >>= f) Q E s ↔ wp (f ()) Q E (g s) := Iff.rfl

lemma wp.mono {Q' : α → σ → Prop} {E' : ε → σ → Prop} (h : wp x Q E s)
    (hq : ∀ a s', Q a s' → Q' a s') (he : ∀ e s', E e s' → E' e s') : wp x Q' E' s := by
  unfold wp at h ⊢
  rcases hx : x s with ⟨a | a, s'⟩ <;> rw [hx] at h
  · exact he _ _ h
  · exact hq _ _ h

lemma wp.bind {R : α → σ → Prop} {Q : β → σ → Prop} (h : wp x R E s)
    (hf : ∀ a s', R a s' → wp (f a) Q E s') : wp (x >>= f) Q E s :=
  wp_bind.mpr (h.mono hf fun _ _ he => he)

lemma wp.ok (h : wp x Q E s) (hx : x s = (.ok a, s')) : Q a s' := by
  simpa [wp, hx] using h

lemma wp.error (h : wp x Q E s) (hx : x s = (.error e, s')) : E e s' := by
  simpa [wp, hx] using h

lemma wp_iff :
    wp x Q E s ↔ (∀ a s', x s = (.ok a, s') → Q a s') ∧
      (∀ e s', x s = (.error e, s') → E e s') := by
  unfold wp
  rcases x s with ⟨a | a, s'⟩ <;> simp

lemma wp_state {P : σ → Prop} : wp x (fun _ => P) (fun _ => P) s ↔ P (x s).2 := by
  unfold wp
  split <;> rename_i h <;> rw [h]

lemma bind_ok {s'' : σ} {b : β} :
    (x >>= f) s = (.ok b, s'') ↔ ∃ a s', x s = (.ok a, s') ∧ f a s' = (.ok b, s'') := by
  show (match x s with
    | (.ok a, s') => f a s'
    | (.error e, s') => (.error e, s') : Except ε β × σ) = _ ↔ _
  rcases x s with ⟨a | a, s'⟩ <;> simp

lemma wp_upFrom {body : Nat → α → Prog σ ε α} {I : Nat → α → σ → Prop} {E : ε → σ → Prop}
    {i n : Nat} {a : α} {s : σ} (h : I i a s)
    (hstep : ∀ j a s, i ≤ j → j < i + n → I j a s → wp (body j a) (I (j + 1)) E s) :
    wp (upFrom body i n a) (I (i + n)) E s := by
  induction n generalizing i a s with
  | zero => exact h
  | succ n ih =>
    refine (hstep i a s le_rfl (by omega) h).bind fun a' s' h' => ?_
    have hh := ih h' fun j b t hj hjn => hstep j b t (by omega) (by omega)
    simpa only [Nat.add_assoc, Nat.add_comm 1 n] using hh

end Prog

end Mangrove

namespace Mangrove

/-- A program returns, or issues an operation and continues with its answer. -/
inductive Script (Op : Type) (Ans : Op → Type) (α : Type) where
  | done (a : α)
  | call (op : Op) (next : Ans op → Script Op Ans α)

namespace Script

variable {Op : Type} {Ans : Op → Type} {α β σ φ : Type}

protected def bind : Script Op Ans α → (α → Script Op Ans β) → Script Op Ans β
  | done a, f => f a
  | call op next, f => call op fun answer => (next answer).bind f

instance : Monad (Script Op Ans) where
  pure := done
  bind := Script.bind

lemma done_bind (a : α) (f : α → Script Op Ans β) : (done a >>= f) = f a := rfl

lemma call_bind (op : Op) (next : Ans op → Script Op Ans α) (f : α → Script Op Ans β) :
    (call op next >>= f) = call op fun answer => next answer >>= f := rfl

section

variable (act : σ → (op : Op) → φ → σ × Ans op) (faults : Nat → φ)

/-- The whole program; the `k`-th operation meets the `k`-th of the faults. -/
def run (k : Nat) (s : σ) : Script Op Ans α → σ × α
  | done a => (s, a)
  | call op next => run (k + 1) (act s op (faults k)).1 (next (act s op (faults k)).2)

def after : Nat → Nat → σ → Script Op Ans α → σ
  | 0, _, s, _ => s
  | _ + 1, _, s, done _ => s
  | n + 1, k, s, call op next =>
    after n (k + 1) (act s op (faults k)).1 (next (act s op (faults k)).2)

/-- Whatever faults occur, `I` holds before and after every operation, and `Q` of
the state and the value returned. -/
def Safe (I : σ → Prop) (Q : σ → α → Prop) (s : σ) : Script Op Ans α → Prop
  | done a => I s ∧ Q s a
  | call op next => I s ∧ ∀ fault, Safe I Q (act s op fault).1 (next (act s op fault).2)

end

variable {act : σ → (op : Op) → φ → σ × Ans op} {I : σ → Prop} {Q R : σ → α → Prop}
  {p : Script Op Ans α} {s : σ}

lemma Safe.holds (h : Safe act I Q s p) : I s := by
  cases p with
  | done | call => exact h.1

lemma Safe.after (h : Safe act I Q s p) (faults : Nat → φ) (n k : Nat) :
    I (p.after act faults n k s) := by
  induction n generalizing k s p with
  | zero => exact h.holds
  | succ n ih =>
    cases p with
    | done a => exact h.1
    | call op next => exact ih (h.2 (faults k)) (k + 1)

lemma Safe.run {faults : Nat → φ} {k : Nat} (h : Safe act I Q s p) :
    Q (p.run act faults k s).1 (p.run act faults k s).2 := by
  induction p generalizing k s with
  | done a => exact h.2
  | call op next ih => exact ih _ (h.2 (faults k))

lemma Safe.bind {Q : σ → β → Prop} {f : α → Script Op Ans β} (h : Safe act I R s p)
    (hf : ∀ s a, I s → R s a → Safe act I Q s (f a)) : Safe act I Q s (p >>= f) := by
  induction p generalizing s with
  | done a => exact hf s a h.1 h.2
  | call op next ih => exact ⟨h.1, fun fault => ih _ (h.2 fault)⟩

lemma Safe.imp {J : σ → Prop} (h : Safe act I R s p) (hI : ∀ s, I s → J s)
    (hR : ∀ s a, I s → R s a → Q s a) : Safe act J Q s p := by
  induction p generalizing s with
  | done a => exact ⟨hI s h.1, hR s a h.1 h.2⟩
  | call op next ih => exact ⟨hI s h.1, fun fault => ih _ (h.2 fault)⟩

lemma run_const (c : φ) (j k : Nat) (s : σ) (p : Script Op Ans α) :
    p.run act (fun _ => c) j s = p.run act (fun _ => c) k s := by
  induction p generalizing j k s with
  | done a => rfl
  | call op next ih => exact ih ..

lemma run_bind_const (c : φ) (k : Nat) (s : σ) (p : Script Op Ans α) (f : α → Script Op Ans β) :
    (p >>= f).run act (fun _ => c) k s =
      (f (p.run act (fun _ => c) k s).2).run act (fun _ => c) k (p.run act (fun _ => c) k s).1 := by
  induction p generalizing k s with
  | done a => rfl
  | call op next ih => exact (ih ..).trans (run_const ..)

def logged (act : σ → (op : Op) → φ → σ × Ans op) (s : σ × List ((op : Op) × Ans op)) (op : Op)
    (fault : φ) : (σ × List ((op : Op) × Ans op)) × Ans op :=
  (((act s.1 op fault).1, s.2 ++ [⟨op, (act s.1 op fault).2⟩]), (act s.1 op fault).2)

lemma after_logged (faults : Nat → φ) (n k : Nat) (s : σ) (log : List ((op : Op) × Ans op))
    (p : Script Op Ans α) :
    (p.after (logged act) faults n k (s, log)).1 = p.after act faults n k s := by
  induction n generalizing k s log p with
  | zero => rfl
  | succ n ih =>
    cases p with
    | done a => rfl
    | call op next => exact ih ..

lemma Safe.of_logged {I : σ × List ((op : Op) × Ans op) → Prop}
    {Q : σ × List ((op : Op) × Ans op) → α → Prop} {log : List ((op : Op) × Ans op)}
    (h : Safe (logged act) I Q (s, log) p) :
    Safe act (fun s => ∃ log, I (s, log)) (fun s a => ∃ log, Q (s, log) a) s p := by
  induction p generalizing s log with
  | done a => exact ⟨⟨log, h.1⟩, log, h.2⟩
  | call op next ih => exact ⟨⟨log, h.1⟩, fun fault => ih _ (h.2 fault)⟩

end Script

end Mangrove
