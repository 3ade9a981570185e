import Mangrove.Lib.Steps

/-! Blocking mutexes. Each section that runs under a spin lock is a step; a thread
that waits for a mutex goes through several of them: it is on no waiting list, it is queued, or
it was given the mutex and has not yet noticed. -/

namespace Mangrove.Sched

open Function (update update_self)

/-- What a thread is doing, as the scheduler sees it. -/
inductive Run where
  | running
  | ready
  | blocked
  | terminated
deriving DecidableEq

/-- Where a thread is: outside, with the result of its last call of `mutex_lock` or
`mutex_try_lock`; at the head of the loop of `mutex_lock`; registered and about to
call `scheduler_block`; inside it; or back with a failure. -/
inductive Pc (M : Type) where
  | outside (result : Option (M × Bool))
  | locking (m : M)
  | blocking (m : M)
  | asleep (m : M)
  | failing (m : M)
deriving DecidableEq

/-- `holding` is set from a call that returned true to the unlock. `stamp` numbers the
registrations and `granted` lists the numbers of the waiters that got the mutex. -/
structure State (T M : Type) where
  owner : M → Option T
  waiters : M → List T
  run : T → Run
  waiting : T → Option M
  pending : T → Bool
  pc : T → Pc M
  holding : T → M → Bool
  stamp : T → Nat
  granted : M → List Nat
  clock : Nat

inductive Act (T M : Type) where
  | lock (t : T) (m : M)
  | acquire (t : T)
  | block (t : T) (sleeps : Bool)
  | fail (t : T)
  | resume (t : T)
  | tryLock (t : T) (m : M)
  | unlock (t : T) (m : M) (unblocks : T → Bool)
  | dispatch (t : T)
  | preempt (t : T)
  | exit (t : T)
  | terminate (t : T)
  | cancel (t : T) (unblocks : T → Bool)

namespace State

variable {T M : Type} [DecidableEq T] [DecidableEq M]

def init : State T M where
  owner _ := none
  waiters _ := []
  run _ := .ready
  waiting _ := none
  pending _ := false
  pc _ := .outside none
  holding _ _ := false
  stamp _ := 0
  granted _ := []
  clock := 0

/-- The return of `mutex_lock` or `mutex_try_lock`. -/
def returns (s : State T M) (t : T) (m : M) (ok : Bool) : State T M :=
  { s with
    pc := update s.pc t (.outside (some (m, ok)))
    holding := if ok then update s.holding t (update (s.holding t) m true)
      else s.holding }

def setOwner (s : State T M) (m : M) (owner : Option T) : State T M :=
  { s with owner := update s.owner m owner }

def setWaiting (s : State T M) (t : T) (waiting : Option M) : State T M :=
  { s with waiting := update s.waiting t waiting }

def setPending (s : State T M) (t : T) (pending : Bool) : State T M :=
  { s with pending := update s.pending t pending }

def setPc (s : State T M) (t : T) (pc : Pc M) : State T M :=
  { s with pc := update s.pc t pc }

def setRun (s : State T M) (t : T) (run : Run) : State T M :=
  { s with run := update s.run t run }

def setWaiters (s : State T M) (m : M) (waiters : List T) : State T M :=
  { s with waiters := update s.waiters m waiters }

section

variable (s : State T M) (t : T) (m : M)

@[simp] lemma returns_pc (ok : Bool) : (s.returns t m ok).pc t = .outside (some (m, ok)) :=
  update_self ..

omit [DecidableEq T] in
@[simp] lemma setOwner_owner (owner : Option T) : (s.setOwner m owner).owner m = owner :=
  update_self ..

omit [DecidableEq M] in
@[simp] lemma setWaiting_waiting (waiting : Option M) :
    (s.setWaiting t waiting).waiting t = waiting :=
  update_self ..

omit [DecidableEq M] in
@[simp] lemma setPending_pending (pending : Bool) : (s.setPending t pending).pending t = pending :=
  update_self ..

omit [DecidableEq M] in
@[simp] lemma setPc_pc (pc : Pc M) : (s.setPc t pc).pc t = pc := update_self ..

omit [DecidableEq M] in
@[simp] lemma setRun_run (run : Run) : (s.setRun t run).run t = run := update_self ..

omit [DecidableEq T] in
@[simp] lemma setWaiters_waiters (waiters : List T) :
    (s.setWaiters m waiters).waiters m = waiters :=
  update_self ..

end

/-- `mutex_waiter_append_locked`. -/
def append (s : State T M) (t : T) (m : M) : State T M :=
  { s with
    waiters := update s.waiters m (s.waiters m ++ [t])
    stamp := update s.stamp t s.clock
    clock := s.clock + 1 }

def grant (s : State T M) (t : T) (m : M) : State T M :=
  { s.setOwner m (some t) with
    granted := update s.granted m (s.granted m ++ [s.stamp t]) }

/-- The loop of `mutex_handoff_locked` over the waiters. -/
def handoffFrom (unblocks : T → Bool) (m : M) (s : State T M) : List T → State T M
  | [] => s.setWaiters m []
  | t :: rest =>
    let s := s.setWaiters m rest
    if s.waiting t ≠ some m then handoffFrom unblocks m s rest
    else match s.run t with
      | .running => (s.grant t m).setPending t true
      | .blocked =>
        if unblocks t then (s.grant t m).setRun t .ready
        else handoffFrom unblocks m (s.setWaiting t none) rest
      | _ => handoffFrom unblocks m (s.setWaiting t none) rest

def handoff (unblocks : T → Bool) (s : State T M) (m : M) : State T M :=
  handoffFrom unblocks m s (s.waiters m)

/-- One round of the loop of `mutex_lock`, up to `scheduler_block`. -/
def acquire (s : State T M) (t : T) (m : M) : State T M :=
  if s.owner m = none then
    let s := if s.waiting t = some m then
        (s.setWaiters m ((s.waiters m).erase t)).setWaiting t none
      else s
    ((s.setPending t false).setOwner m (some t)).returns t m true
  else if s.owner m = some t then
    if s.waiting t = some m then ((s.setWaiting t none).setPending t false).returns t m true
    else s.returns t m false
  else if s.waiting t ≠ none ∧ s.waiting t ≠ some m then s.returns t m false
  else if s.waiting t = none then
    (((s.setPending t false).setWaiting t (some m)).append t m).setPc t (.blocking m)
  else s.setPc t (.blocking m)

def block (s : State T M) (t : T) (m : M) (sleeps : Bool) : State T M :=
  if s.pending t then (s.setPending t false).setPc t (.locking m)
  else if sleeps then (s.setRun t .blocked).setPc t (.asleep m)
  else s.setPc t (.failing m)

/-- The section after a failed `scheduler_block`. -/
def failed (s : State T M) (t : T) (m : M) : State T M :=
  let s := s.setWaiters m ((s.waiters m).erase t)
  let s := if s.waiting t = some m then s.setWaiting t none else s
  (s.setPending t false).returns t m false

def tryLock (s : State T M) (t : T) (m : M) : State T M :=
  if s.owner m = none then (s.setOwner m (some t)).returns t m true else s.returns t m false

def unlock (unblocks : T → Bool) (s : State T M) (t : T) (m : M) : State T M :=
  if s.owner m = some t then
    handoff unblocks ({ s.setOwner m none with
      holding := update s.holding t (update (s.holding t) m false) }.setPc t
        (.outside none)) m
  else s.setPc t (.outside none)

def cancel (unblocks : T → Bool) (s : State T M) (t : T) : State T M :=
  match s.waiting t with
  | none => s
  | some m =>
    let s := s.setPending t false
    if s.owner m = some t then handoff unblocks ((s.setOwner m none).setWaiting t none) m
    else (s.setWaiters m ((s.waiters m).erase t)).setWaiting t none

/-- What a thread does needs it to run. From the registration to the return of
`scheduler_block` interrupts are off, so a thread is not preempted there. -/
def step (s : State T M) : Act T M → Option (State T M)
  | .lock t m =>
    match s.run t, s.pc t with
    | .running, .outside _ => some (s.setPc t (.locking m))
    | _, _ => none
  | .acquire t =>
    match s.run t, s.pc t with
    | .running, .locking m => some (s.acquire t m)
    | _, _ => none
  | .block t sleeps =>
    match s.run t, s.pc t with
    | .running, .blocking m => some (s.block t m sleeps)
    | _, _ => none
  | .fail t =>
    match s.run t, s.pc t with
    | .running, .failing m => some (s.failed t m)
    | _, _ => none
  | .resume t =>
    match s.run t, s.pc t with
    | .running, .asleep m => some (s.setPc t (.locking m))
    | _, _ => none
  | .tryLock t m =>
    match s.run t, s.pc t with
    | .running, .outside _ => some (s.tryLock t m)
    | _, _ => none
  | .unlock t m unblocks =>
    match s.run t, s.pc t with
    | .running, .outside _ => some (s.unlock unblocks t m)
    | _, _ => none
  | .dispatch t => if s.run t = .ready then some (s.setRun t .running) else none
  | .preempt t =>
    match s.run t, s.pc t with
    | .running, .outside _ => some (s.setRun t .ready)
    | .running, .locking _ => some (s.setRun t .ready)
    | _, _ => none
  | .exit t =>
    match s.run t, s.pc t with
    | .running, .outside _ => some (s.setRun t .terminated)
    | _, _ => none
  | .terminate t =>
    if s.run t = .ready ∨ s.run t = .blocked then some (s.setRun t .terminated) else none
  | .cancel t unblocks => if s.run t = .terminated then some (s.cancel unblocks t) else none

/-- What each step needs and does. -/
inductive Moves (s : State T M) : Act T M → State T M → Prop
  | lock {t m result} (hrun : s.run t = .running) (hpc : s.pc t = .outside result) :
      Moves s (.lock t m) (s.setPc t (.locking m))
  | acquire {t m} (hrun : s.run t = .running) (hpc : s.pc t = .locking m) :
      Moves s (.acquire t) (s.acquire t m)
  | block {t m sleeps} (hrun : s.run t = .running) (hpc : s.pc t = .blocking m) :
      Moves s (.block t sleeps) (s.block t m sleeps)
  | fail {t m} (hrun : s.run t = .running) (hpc : s.pc t = .failing m) :
      Moves s (.fail t) (s.failed t m)
  | resume {t m} (hrun : s.run t = .running) (hpc : s.pc t = .asleep m) :
      Moves s (.resume t) (s.setPc t (.locking m))
  | tryLock {t m result} (hrun : s.run t = .running) (hpc : s.pc t = .outside result) :
      Moves s (.tryLock t m) (s.tryLock t m)
  | unlock {t m unblocks result} (hrun : s.run t = .running) (hpc : s.pc t = .outside result) :
      Moves s (.unlock t m unblocks) (s.unlock unblocks t m)
  | dispatch {t} (hrun : s.run t = .ready) : Moves s (.dispatch t) (s.setRun t .running)
  | preempt {t} (hrun : s.run t = .running)
      (hpc : (∃ result, s.pc t = .outside result) ∨ ∃ m, s.pc t = .locking m) :
      Moves s (.preempt t) (s.setRun t .ready)
  | exit {t result} (hrun : s.run t = .running) (hpc : s.pc t = .outside result) :
      Moves s (.exit t) (s.setRun t .terminated)
  | terminate {t} (hrun : s.run t = .ready ∨ s.run t = .blocked) :
      Moves s (.terminate t) (s.setRun t .terminated)
  | cancel {t unblocks} (hrun : s.run t = .terminated) :
      Moves s (.cancel t unblocks) (s.cancel unblocks t)

lemma moves_of_step {s s' : State T M} {act : Act T M} (h : s.step act = some s') :
    s.Moves act s' := by
  cases act <;> simp only [State.step] at h <;> split at h <;> cases h <;> constructor <;>
    first
    | assumption
    | exact .inl ⟨_, by assumption⟩
    | exact .inr ⟨_, by assumption⟩

def Step (cond : State T M → Act T M → Prop) : State T M → State T M → Prop := StepBy step cond

end State

end Mangrove.Sched

namespace Mangrove.Sched.State

open Function (update update_of_ne update_self)

variable {T M : Type}

/-- The thread waits for nothing. -/
structure Free (s : State T M) (t : T) : Prop where
  waiting : s.waiting t = none
  unlisted : ∀ m, t ∉ s.waiters m

/-- The thread waits for the mutex, in its queue. -/
structure Queued (s : State T M) (t : T) (m : M) : Prop where
  waiting : s.waiting t = some m
  listed : t ∈ s.waiters m
  only : ∀ m', t ∈ s.waiters m' → m' = m
  owner : s.owner m ≠ some t
  pending : s.pending t = false

/-- The thread was given the mutex while it waited. -/
structure Granted (s : State T M) (t : T) (m : M) : Prop where
  waiting : s.waiting t = some m
  unlisted : ∀ m', t ∉ s.waiters m'
  owner : s.owner m = some t

def Placed (s : State T M) (t : T) : Pc M → Prop
  | .outside result => s.Free t ∧ ∀ m, result = some (m, false) → s.owner m ≠ some t
  | .locking m => s.Free t ∧ s.owner m ≠ some t ∨ s.Granted t m
  | .blocking m => s.run t = .running ∧ (s.Queued t m ∨ s.Granted t m)
  | .asleep m => s.Granted t m ∨
      s.run t ≠ .running ∧ s.run t ≠ .ready ∧ (s.Queued t m ∨ s.Free t)
  | .failing m => s.run t = .running ∧ (s.Queued t m ∨ s.Granted t m)

/-- A thread stands where its program counter says, and what it holds it owns. -/
structure ThreadOk (s : State T M) (t : T) : Prop where
  placed : s.Placed t (s.pc t)
  holds : ∀ m, s.holding t m = true → s.owner m = some t ∧ s.waiting t ≠ some m

/-- The waiters of a mutex stand in the order of their registrations, after all that
got it before. -/
structure Ordered (s : State T M) (m : M) : Prop where
  nodup : (s.waiters m).Nodup
  sorted : (s.granted m ++ (s.waiters m).map s.stamp).Pairwise (· < ·)
  past : ∀ n ∈ s.granted m ++ (s.waiters m).map s.stamp, n < s.clock

/-- The queue of a mutex is in order, and empty while nobody owns it. -/
structure MutexOk (s : State T M) (m : M) : Prop extends s.Ordered m where
  free : s.owner m = none → s.waiters m = []

/-- All threads and all mutexes are in order. -/
structure Inv (s : State T M) : Prop where
  thread : ∀ t, s.ThreadOk t
  mutex : ∀ m, s.MutexOk m

/-- The thread stands where it stood. -/
structure SamePlace (s s' : State T M) (t : T) : Prop where
  run : s'.run t = s.run t
  waiting : s'.waiting t = s.waiting t
  pending : s.pending t = false → s'.pending t = false
  owner : ∀ m, s'.owner m = some t ↔ s.owner m = some t
  waiters : ∀ m, t ∈ s'.waiters m ↔ t ∈ s.waiters m

/-- Nothing about the thread has changed. -/
structure Same (s s' : State T M) (t : T) : Prop extends SamePlace s s' t where
  pc : s'.pc t = s.pc t
  holding : s'.holding t = s.holding t

section

variable {s s' s'' : State T M} {t : T} {m : M}

lemma Same.trans (h : Same s s' t) (h' : Same s' s'' t) : Same s s'' t :=
  ⟨⟨h'.run.trans h.run, h'.waiting.trans h.waiting, fun hp => h'.pending (h.pending hp),
    fun m => (h'.owner m).trans (h.owner m), fun m => (h'.waiters m).trans (h.waiters m)⟩,
    h'.pc.trans h.pc, h'.holding.trans h.holding⟩

lemma Free.same (h : s.Free t) (hs : SamePlace s s' t) : s'.Free t :=
  ⟨hs.waiting.trans h.waiting, fun m hm => h.unlisted m ((hs.waiters m).mp hm)⟩

lemma Queued.same (h : s.Queued t m) (hs : SamePlace s s' t) : s'.Queued t m :=
  ⟨hs.waiting.trans h.waiting, (hs.waiters m).mpr h.listed,
    fun m' hm' => h.only m' ((hs.waiters m').mp hm'), fun ho => h.owner ((hs.owner m).mp ho),
    hs.pending h.pending⟩

lemma Granted.same (h : s.Granted t m) (hs : SamePlace s s' t) : s'.Granted t m :=
  ⟨hs.waiting.trans h.waiting, fun m' hm' => h.unlisted m' ((hs.waiters m').mp hm'),
    (hs.owner m).mpr h.owner⟩

lemma Placed.same {pc : Pc M} (h : s.Placed t pc) (hs : SamePlace s s' t) : s'.Placed t pc := by
  cases pc <;> simp only [Placed, hs.run] at h ⊢
  case outside result =>
    exact ⟨h.1.same hs, fun m hm ho => h.2 m hm ((hs.owner m).mp ho)⟩
  case locking m =>
    exact h.imp (fun h => ⟨h.1.same hs, fun ho => h.2 ((hs.owner m).mp ho)⟩) (·.same hs)
  case blocking | failing => exact ⟨h.1, h.2.imp (·.same hs) (·.same hs)⟩
  case asleep m =>
    exact h.imp (·.same hs) fun h => ⟨h.1, h.2.1, h.2.2.imp (·.same hs) (·.same hs)⟩

lemma ThreadOk.same (h : s.ThreadOk t) (hs : Same s s' t) : s'.ThreadOk t := by
  refine ⟨by rw [hs.pc]; exact h.placed.same hs.toSamePlace, fun m hm => ?_⟩
  rw [hs.holding] at hm
  obtain ⟨howner, hwaiting⟩ := h.holds m hm
  exact ⟨(hs.owner m).mpr howner, by rwa [hs.waiting]⟩

lemma ThreadOk.queued (h : s.ThreadOk t) (hm : t ∈ s.waiters m) :
    s.Queued t m ∧ (s.run t = .running ∧ (s.pc t = .blocking m ∨ s.pc t = .failing m) ∨
      s.run t ≠ .running ∧ s.run t ≠ .ready ∧ s.pc t = .asleep m) := by
  have hplaced := h.placed
  cases hpc : s.pc t <;> rw [hpc] at hplaced <;> simp only [Placed] at hplaced
  case outside result => exact absurd hm (hplaced.1.unlisted m)
  case locking m' =>
    rcases hplaced with hfree | hgranted
    · exact absurd hm (hfree.1.unlisted m)
    · exact absurd hm (hgranted.unlisted m)
  case blocking m' =>
    rcases hplaced with ⟨hrun, hqueued | hgranted⟩
    · obtain rfl := hqueued.only m hm
      exact ⟨hqueued, .inl ⟨hrun, .inl rfl⟩⟩
    · exact absurd hm (hgranted.unlisted m)
  case asleep m' =>
    rcases hplaced with hgranted | ⟨hrunning, hready, hqueued | hfree⟩
    · exact absurd hm (hgranted.unlisted m)
    · obtain rfl := hqueued.only m hm
      exact ⟨hqueued, .inr ⟨hrunning, hready, rfl⟩⟩
    · exact absurd hm (hfree.unlisted m)
  case failing m' =>
    rcases hplaced with ⟨hrun, hqueued | hgranted⟩
    · obtain rfl := hqueued.only m hm
      exact ⟨hqueued, .inl ⟨hrun, .inr rfl⟩⟩
    · exact absurd hm (hgranted.unlisted m)

lemma Ordered.same (h : s.Ordered m) (hwaiters : s'.waiters m = s.waiters m)
    (hgranted : s'.granted m = s.granted m) (hstamp : ∀ t ∈ s.waiters m, s'.stamp t = s.stamp t)
    (hclock : s.clock ≤ s'.clock) : s'.Ordered m := by
  have hmap := List.map_congr_left hstamp
  refine ⟨by rw [hwaiters]; exact h.nodup, by rw [hwaiters, hgranted, hmap]; exact h.sorted, ?_⟩
  rw [hwaiters, hgranted, hmap]
  exact fun n hn => Nat.lt_of_lt_of_le (h.past n hn) hclock

end

section

variable [DecidableEq T] [DecidableEq M] {s s' : State T M} {t t' : T} {m m' : M}

section

variable (hne : t' ≠ t)

include hne

omit [DecidableEq M] in
lemma same_setPc (pc : Pc M) : Same s (s.setPc t pc) t' :=
  ⟨⟨rfl, rfl, id, fun _ => .rfl, fun _ => .rfl⟩, update_of_ne hne _ _, rfl⟩

omit [DecidableEq M] in
lemma same_setRun (run : Run) : Same s (s.setRun t run) t' :=
  ⟨⟨update_of_ne hne _ _, rfl, id, fun _ => .rfl, fun _ => .rfl⟩, rfl, rfl⟩

omit [DecidableEq M] in
lemma same_setWaiting (waiting : Option M) : Same s (s.setWaiting t waiting) t' :=
  ⟨⟨rfl, update_of_ne hne _ _, id, fun _ => .rfl, fun _ => .rfl⟩, rfl, rfl⟩

omit [DecidableEq M] in
lemma same_setPending (pending : Bool) : Same s (s.setPending t pending) t' :=
  ⟨⟨rfl, rfl, fun hp => (update_of_ne hne _ _).trans hp, fun _ => .rfl, fun _ => .rfl⟩, rfl, rfl⟩

lemma same_returns (ok : Bool) : Same s (s.returns t m ok) t' := by
  refine ⟨⟨rfl, rfl, id, fun _ => .rfl, fun _ => .rfl⟩, update_of_ne hne _ _, ?_⟩
  cases ok
  · rfl
  · exact update_of_ne hne _ _

end

omit [DecidableEq T] in
lemma same_setOwner {owner : Option T} (h : owner = some t' ↔ s.owner m = some t') :
    Same s (s.setOwner m owner) t' := by
  refine ⟨⟨rfl, rfl, id, fun m' => ?_, fun _ => .rfl⟩, rfl, rfl⟩
  by_cases hm : m' = m
  · subst hm
    simp only [setOwner, update_self]
    exact h
  · simp only [setOwner, update_of_ne hm]

omit [DecidableEq T] in
lemma same_setWaiters {waiters : List T} (h : t' ∈ waiters ↔ t' ∈ s.waiters m) :
    Same s (s.setWaiters m waiters) t' := by
  refine ⟨⟨rfl, rfl, id, fun _ => .rfl, fun m' => ?_⟩, rfl, rfl⟩
  by_cases hm : m' = m
  · subst hm
    simp only [setWaiters, update_self]
    exact h
  · simp only [setWaiters, update_of_ne hm]

lemma same_append (hne : t' ≠ t) : Same s (s.append t m) t' := by
  refine ⟨⟨rfl, rfl, id, fun _ => .rfl, fun m' => ?_⟩, rfl, rfl⟩
  by_cases hm : m' = m
  · subst hm
    simp [append, hne]
  · simp only [append, update_of_ne hm]

omit [DecidableEq M] in
lemma Inv.ofThread (h : s.Inv) (hsame : ∀ t', t' ≠ t → Same s s' t') (hthread : s'.ThreadOk t)
    (howner : s'.owner = s.owner) (hwaiters : s'.waiters = s.waiters)
    (hgranted : s'.granted = s.granted) (hstamp : s'.stamp = s.stamp)
    (hclock : s'.clock = s.clock) : s'.Inv := by
  refine ⟨fun t' => ?_, fun m => ?_⟩
  · by_cases hne : t' = t
    · rw [hne]
      exact hthread
    · exact (h.thread t').same (hsame t' hne)
  · refine ⟨(h.mutex m).toOrdered.same (by rw [hwaiters]) (by rw [hgranted])
      (fun t _ => by rw [hstamp]) (Nat.le_of_eq hclock.symm), ?_⟩
    rw [howner, hwaiters]
    exact (h.mutex m).free

omit [DecidableEq M] in
lemma Inv.setPc (h : s.Inv) {pc : Pc M} (hplaced : s.Placed t pc) : (s.setPc t pc).Inv := by
  refine h.ofThread (fun _ hne => same_setPc hne pc) ⟨?_, (h.thread t).holds⟩ rfl rfl rfl rfl rfl
  rw [setPc_pc]
  exact hplaced.same ⟨rfl, rfl, id, fun _ => .rfl, fun _ => .rfl⟩

omit [DecidableEq M] in
lemma Inv.setRun (h : s.Inv) {run : Run} (hplaced : (s.setRun t run).Placed t (s.pc t)) :
    (s.setRun t run).Inv :=
  h.ofThread (fun _ hne => same_setRun hne run) ⟨hplaced, (h.thread t).holds⟩ rfl rfl rfl rfl rfl

end

section

variable [DecidableEq T] [DecidableEq M] {s s' : State T M} {t t' : T} {m m' : M}

section

variable (h : s.Inv)

include h

omit [DecidableEq M] in
lemma Inv.dispatch (hrun : s.run t = .ready) : (s.setRun t .running).Inv := by
  refine h.setRun ?_
  have hplaced := (h.thread t).placed
  cases hpc : s.pc t <;> rw [hpc] at hplaced <;> simp only [Placed, hrun, reduceCtorEq, false_and,
    ne_eq, not_true, not_false_eq_true, and_false, or_false] at hplaced
  case outside result => exact ⟨⟨hplaced.1.1, hplaced.1.2⟩, hplaced.2⟩
  case locking m =>
    exact hplaced.imp (fun h => ⟨⟨h.1.1, h.1.2⟩, h.2⟩) fun h => ⟨h.1, h.2, h.3⟩
  case asleep m => exact .inl ⟨hplaced.1, hplaced.2, hplaced.3⟩

omit [DecidableEq M] in
lemma Inv.preempt {run : Run}
    (hpc : (∃ result, s.pc t = .outside result) ∨ ∃ m, s.pc t = .locking m) :
    (s.setRun t run).Inv := by
  refine h.setRun ?_
  have hplaced := (h.thread t).placed
  rcases hpc with ⟨result, hpc⟩ | ⟨m, hpc⟩
  · rw [hpc] at hplaced ⊢
    exact ⟨⟨hplaced.1.1, hplaced.1.2⟩, hplaced.2⟩
  · rw [hpc] at hplaced ⊢
    exact hplaced.imp (fun h => ⟨⟨h.1.1, h.1.2⟩, h.2⟩) fun h => ⟨h.1, h.2, h.3⟩

omit [DecidableEq M] in
lemma Inv.terminate (hrun : s.run t = .ready ∨ s.run t = .blocked) :
    (s.setRun t .terminated).Inv := by
  have hnot : s.run t ≠ .running := by
    rcases hrun with hrun | hrun <;> rw [hrun] <;> exact Run.noConfusion
  have hplaced := (h.thread t).placed
  cases hpc : s.pc t with
  | outside result => exact h.preempt (.inl ⟨result, hpc⟩)
  | locking m => exact h.preempt (.inr ⟨m, hpc⟩)
  | blocking | failing =>
    rw [hpc] at hplaced
    exact absurd hplaced.1 hnot
  | asleep m =>
    refine h.setRun ?_
    rw [hpc] at hplaced ⊢
    refine hplaced.imp (fun h => ⟨h.1, h.2, h.3⟩) fun h => ⟨?_, ?_, h.2.2.imp
      (fun h => ⟨h.1, h.2, h.3, h.4, h.5⟩) (fun h => ⟨h.1, h.2⟩)⟩
    all_goals
      rw [setRun_run]
      exact Run.noConfusion

omit [DecidableEq M] in
lemma Inv.resume (hrun : s.run t = .running) (hpc : s.pc t = .asleep m) :
    (s.setPc t (.locking m)).Inv := by
  have hplaced := (h.thread t).placed
  rw [hpc] at hplaced
  refine h.setPc (.inr ?_)
  exact hplaced.resolve_right fun hasleep => hasleep.1 hrun

omit [DecidableEq M] in
lemma Inv.clearPending (t : T) : (s.setPending t false).Inv := by
  refine h.ofThread (fun _ hne => same_setPending hne false) ⟨?_, (h.thread t).holds⟩
    rfl rfl rfl rfl rfl
  exact (h.thread t).placed.same ⟨rfl, rfl, fun _ => setPending_pending s t false,
    fun _ => .rfl, fun _ => .rfl⟩

end

omit [DecidableEq M] in
lemma Inv.block (h : s.Inv) (hpc : s.pc t = .blocking m) (sleeps : Bool) :
    (s.block t m sleeps).Inv := by
  have hplaced := (h.thread t).placed
  rw [hpc] at hplaced
  obtain ⟨hrun, hplace⟩ := hplaced
  unfold State.block
  split
  · next hpending =>
    have hgranted := hplace.resolve_left fun hqueued => by
      rw [hqueued.pending] at hpending
      cases hpending
    exact (h.clearPending t).setPc (.inr ⟨hgranted.1, hgranted.2, hgranted.3⟩)
  split
  · refine h.ofThread (fun t' hne => (same_setRun hne .blocked).trans (same_setPc hne _)) ⟨?_, ?_⟩
      rfl rfl rfl rfl rfl
    · rw [setPc_pc]
      rcases hplace with hqueued | hgranted
      · refine .inr ⟨?_, ?_, .inl ⟨hqueued.1, hqueued.2, hqueued.3, hqueued.4, hqueued.5⟩⟩
        all_goals exact fun hrun => Run.noConfusion ((setRun_run s t .blocked).symm.trans hrun)
      · exact .inl ⟨hgranted.1, hgranted.2, hgranted.3⟩
    · exact (h.thread t).holds
  · exact h.setPc ⟨hrun, hplace⟩

lemma Ordered.erase (h : s.Ordered m) (t : T) :
    (s.setWaiters m ((s.waiters m).erase t)).Ordered m := by
  have hsub : (s.granted m ++ ((s.waiters m).erase t).map s.stamp).Sublist
      (s.granted m ++ (s.waiters m).map s.stamp) :=
    (List.Sublist.refl _).append (List.erase_sublist.map _)
  refine ⟨?_, ?_, ?_⟩
  · rw [setWaiters_waiters]
    exact h.nodup.erase t
  · rw [setWaiters_waiters]
    exact h.sorted.sublist hsub
  · rw [setWaiters_waiters]
    exact fun n hn => h.past n (hsub.subset hn)

omit [DecidableEq T] [DecidableEq M] in
lemma MutexOk.same (h : s.MutexOk m) (howner : s'.owner m = s.owner m)
    (hwaiters : s'.waiters m = s.waiters m) (hgranted : s'.granted m = s.granted m)
    (hstamp : s'.stamp = s.stamp) (hclock : s'.clock = s.clock) : s'.MutexOk m :=
  ⟨h.toOrdered.same hwaiters hgranted (fun t _ => by rw [hstamp]) (Nat.le_of_eq hclock.symm),
    by rw [howner, hwaiters]; exact h.free⟩

def unlist (s : State T M) (t : T) (m : M) : State T M :=
  (s.setWaiters m ((s.waiters m).erase t)).setWaiting t none

lemma same_unlist (hne : t' ≠ t) : Same s (s.unlist t m) t' :=
  (same_setWaiters (List.mem_erase_of_ne hne)).trans (same_setWaiting hne none)

lemma Inv.mutex_unlist (h : s.Inv) (m' : M) : (s.unlist t m).MutexOk m' := by
  by_cases hm : m' = m
  · subst hm
    have herase := (h.mutex m').toOrdered.erase t
    refine ⟨⟨herase.1, herase.2, herase.3⟩, fun hnone => ?_⟩
    have hnil := (h.mutex m').free hnone
    change (s.setWaiters m' ((s.waiters m').erase t)).waiters m' = []
    rw [setWaiters_waiters, hnil, List.erase_nil]
  · exact (h.mutex m').same rfl (update_of_ne hm _ _) rfl rfl rfl

lemma Queued.unlist (hqueued : s.Queued t m) (hnodup : (s.waiters m).Nodup) :
    (s.unlist t m).Free t := by
  refine ⟨setWaiting_waiting _ t none, fun m' hm' => ?_⟩
  by_cases hm : m' = m
  · subst hm
    change t ∈ (s.setWaiters m' ((s.waiters m').erase t)).waiters m' at hm'
    rw [setWaiters_waiters] at hm'
    exact hnodup.not_mem_erase hm'
  · change t ∈ update s.waiters m ((s.waiters m).erase t) m' at hm'
    rw [update_of_ne hm] at hm'
    exact hm (hqueued.only m' hm')

lemma Inv.failed (h : s.Inv) (hpc : s.pc t = .failing m) (howner : s.owner m ≠ some t) :
    (s.failed t m).Inv := by
  have hplaced := (h.thread t).placed
  rw [hpc] at hplaced
  have hqueued := hplaced.2.resolve_right fun hgranted => howner hgranted.owner
  have heq : s.failed t m = ((s.unlist t m).setPending t false).returns t m false := by
    simp only [State.failed, State.unlist, setWaiters, hqueued.waiting, if_true]
  have hfree := hqueued.unlist (h.mutex m).nodup
  rw [heq]
  refine ⟨fun t' => ?_, fun m' => ?_⟩
  · by_cases hne : t' = t
    · subst hne
      refine ⟨?_, fun m' hm' => ?_⟩
      · rw [returns_pc]
        refine ⟨⟨hfree.1, hfree.2⟩, fun m' hm' => ?_⟩
        obtain rfl : m = m' := (Prod.mk.inj (Option.some.inj hm')).1
        exact howner
      · have hwaiting := hfree.waiting
        refine ⟨((h.thread t').holds m' hm').1, fun hw => ?_⟩
        change (s.unlist t' m).waiting t' = some m' at hw
        rw [hwaiting] at hw
        cases hw
    · exact (h.thread t').same (((same_unlist hne).trans (same_setPending hne false)).trans
        (same_returns hne false))
  · exact (h.mutex_unlist m').same rfl rfl rfl rfl rfl

lemma Inv.take (h : s.Inv) (hfree : s.Free t) (hnone : s.owner m = none) :
    ((s.setOwner m (some t)).returns t m true).Inv := by
  refine ⟨fun t' => ?_, fun m' => ?_⟩
  · by_cases hne : t' = t
    · subst hne
      refine ⟨?_, fun m' hm' => ⟨?_, ?_⟩⟩
      · rw [returns_pc]
        refine ⟨⟨hfree.1, hfree.2⟩, fun m' hm' => ?_⟩
        cases (Prod.mk.inj (Option.some.inj hm')).2
      · by_cases hm : m' = m
        · subst hm
          exact setOwner_owner s m' (some t')
        · simp only [returns, setOwner, if_true, update_self,
            update_of_ne hm] at hm' ⊢
          exact ((h.thread t').holds m' hm').1
      · change s.waiting t' ≠ some m'
        rw [hfree.waiting]
        exact (Option.some_ne_none m').symm
    · refine (h.thread t').same ((same_setOwner ?_).trans (same_returns hne true))
      rw [hnone]
      exact ⟨fun heq => absurd (Option.some.inj heq).symm hne, nofun⟩
  · by_cases hm : m' = m
    · subst hm
      have hmutex := h.mutex m'
      refine ⟨⟨hmutex.nodup, hmutex.sorted, hmutex.past⟩, fun hnone' => ?_⟩
      cases (setOwner_owner s m' (some t)).symm.trans hnone'
    · exact (h.mutex m').same (update_of_ne hm _ _) rfl rfl rfl rfl

lemma Inv.refuse (h : s.Inv) (hfree : s.Free t) (howner : s.owner m ≠ some t) :
    (s.returns t m false).Inv := by
  refine h.ofThread (fun _ hne => same_returns hne false) ⟨?_, (h.thread t).holds⟩
    rfl rfl rfl rfl rfl
  rw [returns_pc]
  refine ⟨⟨hfree.1, hfree.2⟩, fun m' hm' => ?_⟩
  obtain rfl : m = m' := (Prod.mk.inj (Option.some.inj hm')).1
  exact howner

lemma Inv.tryLock (h : s.Inv) {result : Option (M × Bool)} (hpc : s.pc t = .outside result)
    (howner : s.owner m ≠ some t) : (s.tryLock t m).Inv := by
  have hplaced := (h.thread t).placed
  rw [hpc] at hplaced
  unfold State.tryLock
  split
  · next hnone => exact h.take hplaced.1 hnone
  · exact h.refuse hplaced.1 howner

lemma Inv.accept (h : s.Inv) (hgranted : s.Granted t m) :
    (((s.setWaiting t none).setPending t false).returns t m true).Inv := by
  refine h.ofThread (fun _ hne => ((same_setWaiting hne none).trans
    (same_setPending hne false)).trans (same_returns hne true)) ⟨?_, fun m' hm' => ⟨?_, ?_⟩⟩
    rfl rfl rfl rfl rfl
  · rw [returns_pc]
    refine ⟨⟨setWaiting_waiting s t none, hgranted.unlisted⟩, fun m' hm' => ?_⟩
    cases (Prod.mk.inj (Option.some.inj hm')).2
  · by_cases hm : m' = m
    · subst hm
      exact hgranted.owner
    · simp only [returns, setPending, setWaiting, if_true, update_self,
        update_of_ne hm] at hm' ⊢
      exact ((h.thread t).holds m' hm').1
  · change (s.setWaiting t none).waiting t ≠ some m'
    rw [setWaiting_waiting]
    exact (Option.some_ne_none m').symm

lemma Ordered.append (h : s.Ordered m) (hnot : t ∉ s.waiters m) : (s.append t m).Ordered m := by
  have hwaiters : (s.append t m).waiters m = s.waiters m ++ [t] := update_self ..
  have hmap : ((s.append t m).waiters m).map (s.append t m).stamp =
      (s.waiters m).map s.stamp ++ [s.clock] := by
    rw [hwaiters, List.map_append, List.map_singleton]
    congr 1
    · refine List.map_congr_left fun t' ht' => update_of_ne ?_ _ _
      rintro rfl
      exact hnot ht'
    · exact congrArg ([·]) (update_self ..)
  refine ⟨?_, ?_, ?_⟩
  · rw [hwaiters]
    exact List.nodup_append.mpr ⟨h.nodup, List.nodup_singleton t, fun a ha b hb hab => by
      rw [List.mem_singleton] at hb
      exact hnot (hb ▸ hab ▸ ha)⟩
  · rw [hmap, ← List.append_assoc]
    refine List.pairwise_append.mpr ⟨h.sorted, List.pairwise_singleton _ _, fun a ha b hb => ?_⟩
    rw [List.mem_singleton.mp hb]
    exact h.past a ha
  · rw [hmap, ← List.append_assoc]
    intro n hn
    rcases List.mem_append.mp hn with hn | hn
    · exact Nat.lt_succ_of_lt (h.past n hn)
    · rw [List.mem_singleton.mp hn]
      exact Nat.lt_succ_self _

lemma Inv.register (h : s.Inv) (hfree : s.Free t) (hrun : s.run t = .running)
    (howner : s.owner m ≠ some t) (hsome : s.owner m ≠ none) :
    ((((s.setPending t false).setWaiting t (some m)).append t m).setPc t (.blocking m)).Inv := by
  refine ⟨fun t' => ?_, fun m' => ?_⟩
  · by_cases hne : t' = t
    · subst hne
      refine ⟨?_, fun m' hm' => ?_⟩
      · rw [setPc_pc]
        refine ⟨hrun, .inl ⟨setWaiting_waiting _ t' (some m), ?_, fun m' hm' => ?_, howner,
          setPending_pending s t' false⟩⟩
        · change t' ∈ update s.waiters m (s.waiters m ++ [t']) m
          simp
        · by_contra hm
          change t' ∈ update s.waiters m (s.waiters m ++ [t']) m' at hm'
          rw [update_of_ne hm] at hm'
          exact hfree.unlisted m' hm'
      · obtain ⟨howner', -⟩ := (h.thread t').holds m' hm'
        refine ⟨howner', fun hw => ?_⟩
        obtain rfl : m = m' := Option.some.inj ((setWaiting_waiting _ t' (some m)).symm.trans hw)
        exact howner howner'
    · exact (h.thread t').same ((((same_setPending hne false).trans
        (same_setWaiting hne (some m))).trans (same_append hne)).trans (same_setPc hne _))
  · by_cases hm : m' = m
    · subst hm
      have happend := (h.mutex m').toOrdered.append (hfree.unlisted m')
      exact ⟨⟨happend.1, happend.2, happend.3⟩, fun hnone => absurd hnone hsome⟩
    · refine ⟨(h.mutex m').toOrdered.same (update_of_ne hm _ _) rfl (fun t' ht' => ?_)
        (Nat.le_succ _), fun hnone => ?_⟩
      · refine update_of_ne ?_ _ _
        rintro rfl
        exact hfree.unlisted m' ht'
      · exact (update_of_ne hm _ _).trans ((h.mutex m').free hnone)

lemma Inv.acquire (h : s.Inv) (hrun : s.run t = .running) (hpc : s.pc t = .locking m) :
    (s.acquire t m).Inv := by
  have hplaced := (h.thread t).placed
  rw [hpc] at hplaced
  unfold State.acquire
  rcases hplaced with ⟨hfree, howner⟩ | hgranted
  · simp only [hfree.waiting, reduceCtorEq, if_false, if_true, if_neg howner, ne_eq, not_true,
      false_and]
    split
    · next hnone =>
      exact (h.clearPending t).take ⟨hfree.1, hfree.2⟩ hnone
    · next hsome => exact h.register hfree hrun howner hsome
  · simp only [hgranted.owner, reduceCtorEq, if_false, if_true, hgranted.waiting]
    exact h.accept hgranted

end

variable {T M : Type} [DecidableEq T] [DecidableEq M] {s s' : State T M} {t t' : T} {m m' : M}
  {unblocks : T → Bool}

/-- The mutex has no owner, and all else is in order. -/
structure Handing (s : State T M) (m : M) : Prop where
  thread : ∀ t, s.ThreadOk t
  others : ∀ m', m' ≠ m → s.MutexOk m'
  ordered : s.Ordered m
  owner : s.owner m = none

def dropHead (s : State T M) (t : T) (m : M) (rest : List T) : State T M :=
  (s.setWaiters m rest).setWaiting t none

omit [DecidableEq T] in
lemma mem_tail_iff {waiters rest : List T} (hwaiters : waiters = t :: rest) (hne : t' ≠ t) :
    t' ∈ rest ↔ t' ∈ waiters := by
  rw [hwaiters, List.mem_cons]
  exact ⟨.inr, fun h => h.resolve_left hne⟩

variable {rest : List T}

omit [DecidableEq T] in
lemma Queued.unlisted_tail (hqueued : s.Queued t m)
    (hwaiters : s.waiters m = t :: rest) (hnodup : (s.waiters m).Nodup) (m' : M) :
    t ∉ (s.setWaiters m rest).waiters m' := by
  intro hm'
  by_cases hm : m' = m
  · subst hm
    rw [setWaiters_waiters] at hm'
    rw [hwaiters] at hnodup
    exact (List.nodup_cons.mp hnodup).1 hm'
  · change t ∈ update s.waiters m rest m' at hm'
    rw [update_of_ne hm] at hm'
    exact hm (hqueued.only m' hm')

lemma Handing.drop (h : s.Handing m) (hwaiters : s.waiters m = t :: rest)
    (hrunning : s.run t ≠ .running) : (s.dropHead t m rest).Handing m := by
  obtain ⟨hqueued, hplace⟩ := (h.thread t).queued (m := m) (by rw [hwaiters]; exact List.mem_cons_self)
  have hasleep := hplace.resolve_left fun hrun => hrunning hrun.1
  have hunlisted := hqueued.unlisted_tail hwaiters h.ordered.nodup
  refine ⟨fun t' => ?_, fun m' hm => ?_, ?_, h.owner⟩
  · by_cases hne : t' = t
    · subst hne
      refine ⟨?_, fun m' hm' => ⟨((h.thread t').holds m' hm').1, fun hw => ?_⟩⟩
      · change (s.dropHead t' m rest).Placed t' (s.pc t')
        rw [hasleep.2.2]
        exact .inr ⟨hasleep.1, hasleep.2.1, .inr ⟨setWaiting_waiting _ t' none, hunlisted⟩⟩
      · cases (setWaiting_waiting _ t' none).symm.trans hw
    · exact (h.thread t').same ((same_setWaiters (mem_tail_iff hwaiters hne)).trans
        (same_setWaiting hne none))
  · exact (h.others m' hm).same rfl (update_of_ne hm _ _) rfl rfl rfl
  · have herase := h.ordered.erase t
    rw [hwaiters, List.erase_cons_head] at herase
    exact ⟨herase.1, herase.2, herase.3⟩

lemma Handing.grant {s1 : State T M} (h : s.Handing m)
    (hwaiters : s.waiters m = t :: rest) (howner : s1.owner = update s.owner m (some t))
    (hlists : s1.waiters = update s.waiters m rest)
    (hwaiting : s1.waiting = s.waiting) (hpc : s1.pc = s.pc) (hholding : s1.holding = s.holding)
    (hothers : ∀ t', t' ≠ t → s1.run t' = s.run t' ∧ s1.pending t' = s.pending t')
    (hgranted : s1.granted = update s.granted m (s.granted m ++ [s.stamp t]))
    (hstamp : s1.stamp = s.stamp) (hclock : s1.clock = s.clock)
    (hrun : (s.pc t = .blocking m ∨ s.pc t = .failing m) → s1.run t = .running) : s1.Inv := by
  obtain ⟨hqueued, hplace⟩ := (h.thread t).queued (m := m) (by rw [hwaiters]; exact List.mem_cons_self)
  have hunlisted := hqueued.unlisted_tail hwaiters h.ordered.nodup
  have hgrant : s1.Granted t m := by
    refine ⟨by rw [hwaiting]; exact hqueued.waiting, fun m' => ?_, by rw [howner]; simp⟩
    rw [hlists]
    exact hunlisted m'
  refine ⟨fun t' => ?_, fun m' => ?_⟩
  · by_cases hne : t' = t
    · subst hne
      refine ⟨?_, fun m' hm' => ?_⟩
      · rw [hpc]
        rcases hplace with ⟨-, hblocking | hfailing⟩ | ⟨-, -, hasleep⟩
        · rw [hblocking]
          exact ⟨hrun (.inl hblocking), .inr hgrant⟩
        · rw [hfailing]
          exact ⟨hrun (.inr hfailing), .inr hgrant⟩
        · rw [hasleep]
          exact .inl hgrant
      · rw [hholding] at hm'
        obtain ⟨howner', hwaiting'⟩ := (h.thread t').holds m' hm'
        have hm : m' ≠ m := by
          rintro rfl
          exact hwaiting' hqueued.waiting
        exact ⟨by rw [howner, update_of_ne hm]; exact howner', by rwa [hwaiting]⟩
    · refine (h.thread t').same ⟨⟨(hothers t' hne).1, by rw [hwaiting], fun hp => by
        rw [(hothers t' hne).2]; exact hp, fun m' => ?_, fun m' => ?_⟩, by rw [hpc], by rw [hholding]⟩
      · by_cases hm : m' = m
        · subst hm
          rw [howner, update_self, h.owner]
          exact ⟨fun heq => absurd (Option.some.inj heq).symm hne, nofun⟩
        · rw [howner, update_of_ne hm]
      · by_cases hm : m' = m
        · subst hm
          rw [hlists, update_self]
          exact mem_tail_iff hwaiters hne
        · rw [hlists, update_of_ne hm]
  · by_cases hm : m' = m
    · subst hm
      have hsame : s1.granted m' ++ (s1.waiters m').map s1.stamp =
          s.granted m' ++ (s.waiters m').map s.stamp := by
        rw [hgranted, hlists, hstamp, hwaiters]
        simp
      have hnodup := h.ordered.nodup
      rw [hwaiters] at hnodup
      refine ⟨⟨?_, by rw [hsame]; exact h.ordered.sorted, by rw [hsame, hclock]; exact h.ordered.past⟩,
        fun hnone => ?_⟩
      · rw [hlists, update_self]
        exact (List.nodup_cons.mp hnodup).2
      · rw [howner, update_self] at hnone
        cases hnone
    · exact (h.others m' hm).same (by rw [howner, update_of_ne hm])
        (by rw [hlists, update_of_ne hm]) (by rw [hgranted, update_of_ne hm])
        hstamp hclock

lemma Handing.handoffFrom (waiters : List T) (h : s.Handing m) (hwaiters : s.waiters m = waiters) :
    (handoffFrom unblocks m s waiters).Inv := by
  induction waiters generalizing s with
  | nil =>
    refine ⟨fun t => (h.thread t).same (same_setWaiters (by rw [hwaiters])), fun m' => ?_⟩
    by_cases hm : m' = m
    · subst hm
      have hsame : (s.setWaiters m' []).waiters m' = s.waiters m' := by
        rw [setWaiters_waiters, hwaiters]
      exact ⟨h.ordered.same hsame rfl (fun _ _ => rfl) (Nat.le_refl _),
        fun _ => setWaiters_waiters s m' []⟩
    · exact (h.others m' hm).same rfl (update_of_ne hm _ _) rfl rfl rfl
  | cons t rest ih =>
    obtain ⟨hqueued, hplace⟩ := (h.thread t).queued (m := m)
      (by rw [hwaiters]; exact List.mem_cons_self)
    have hdrop (hrunning : s.run t ≠ .running) :=
      ih (h.drop hwaiters hrunning) (setWaiters_waiters s m rest)
    simp only [State.handoffFrom]
    rw [if_neg (fun hne => hne hqueued.waiting)]
    split
    · next hrun =>
      exact h.grant hwaiters rfl rfl rfl rfl rfl
        (fun t' hne => ⟨rfl, update_of_ne hne _ _⟩) rfl rfl rfl fun _ => hrun
    · next hrun =>
      change s.run t = .blocked at hrun
      split
      · refine h.grant hwaiters rfl rfl rfl rfl rfl
          (fun t' hne => ⟨update_of_ne hne _ _, rfl⟩) rfl rfl rfl fun hpc => ?_
        rcases hplace with ⟨hrunning, -⟩ | ⟨-, -, hasleep⟩
        · rw [hrun] at hrunning
          cases hrunning
        · rw [hasleep] at hpc
          rcases hpc with hpc | hpc <;> cases hpc
      · exact hdrop (by rw [hrun]; exact Run.noConfusion)
    · next hnot _ => exact hdrop hnot

lemma Handing.handoff (h : s.Handing m) : (handoff unblocks s m).Inv := h.handoffFrom _ rfl

lemma Inv.unlock (h : s.Inv) {result : Option (M × Bool)} (hpc : s.pc t = .outside result) :
    (s.unlock unblocks t m).Inv := by
  have hplaced := (h.thread t).placed
  rw [hpc] at hplaced
  unfold State.unlock
  split
  · next howner =>
    refine Handing.handoff ⟨fun t' => ?_, fun m' hm => ?_, ?_, setOwner_owner s m none⟩
    · by_cases hne : t' = t
      · subst hne
        refine ⟨?_, fun m' hm' => ?_⟩
        · rw [setPc_pc]
          exact ⟨⟨hplaced.1.1, hplaced.1.2⟩, nofun⟩
        · by_cases hm : m' = m
          · subst hm
            simp [State.setPc, setOwner] at hm'
          · simp only [State.setPc, setOwner, update_self,
              update_of_ne hm] at hm' ⊢
            exact (h.thread t').holds m' hm'
      · have hset : Same s (s.setOwner m none) t' := same_setOwner (by
          rw [howner]
          exact ⟨nofun, fun heq => absurd (Option.some.inj heq).symm hne⟩)
        have hhold : Same (s.setOwner m none) { s.setOwner m none with
            holding := update s.holding t (update (s.holding t) m false) } t' :=
          ⟨⟨rfl, rfl, id, fun _ => .rfl, fun _ => .rfl⟩, rfl, update_of_ne hne _ _⟩
        exact (h.thread t').same ((hset.trans hhold).trans (same_setPc hne _))
    · exact (h.mutex m').same (update_of_ne hm _ _) rfl rfl rfl rfl
    · have hordered := (h.mutex m).toOrdered
      exact ⟨hordered.1, hordered.2, hordered.3⟩
  · exact h.setPc ⟨hplaced.1, nofun⟩

omit [DecidableEq T] [DecidableEq M] in
lemma ThreadOk.terminated (h : s.ThreadOk t) (hrun : s.run t = .terminated)
    (hwaiting : s.waiting t = some m) : (s.pc t = .locking m ∨ s.pc t = .asleep m) ∧ s.Granted t m ∨
      s.pc t = .asleep m ∧ s.Queued t m := by
  have hplaced := h.placed
  have hfree (hfree : s.Free t) : False := by
    rw [hfree.waiting] at hwaiting
    cases hwaiting
  cases hpc : s.pc t <;> rw [hpc] at hplaced <;> simp only [Placed, hrun, reduceCtorEq, false_and,
    ne_eq, not_false_eq_true, true_and] at hplaced
  case outside result => exact absurd hplaced.1 hfree
  case locking m' =>
    have hgranted := hplaced.resolve_left fun h => hfree h.1
    obtain rfl := Option.some.inj (hgranted.waiting.symm.trans hwaiting)
    exact .inl ⟨.inl rfl, hgranted⟩
  case asleep m' =>
    rcases hplaced with hgranted | hqueued | hfree'
    · obtain rfl := Option.some.inj (hgranted.waiting.symm.trans hwaiting)
      exact .inl ⟨.inr rfl, hgranted⟩
    · obtain rfl := Option.some.inj (hqueued.waiting.symm.trans hwaiting)
      exact .inr ⟨rfl, hqueued⟩
    · exact absurd hfree' hfree

lemma Inv.cancelGranted (h : s.Inv) (hrun : s.run t = .terminated) (hgranted : s.Granted t m)
    (hpc : s.pc t = .locking m ∨ s.pc t = .asleep m) :
    (State.handoff unblocks ((s.setOwner m none).setWaiting t none) m).Inv := by
  refine Handing.handoff ⟨fun t' => ?_, fun m' hm => ?_, ?_, setOwner_owner s m none⟩
  · by_cases hne : t' = t
    · subst hne
      have hfree : ((s.setOwner m none).setWaiting t' none).Free t' :=
        ⟨setWaiting_waiting _ t' none, hgranted.unlisted⟩
      refine ⟨?_, fun m' hm' => ?_⟩
      · change ((s.setOwner m none).setWaiting t' none).Placed t' (s.pc t')
        rcases hpc with hpc | hpc
        · rw [hpc]
          refine .inl ⟨hfree, fun howner => ?_⟩
          cases (setOwner_owner s m none).symm.trans howner
        · rw [hpc]
          refine .inr ⟨fun hr => ?_, fun hr => ?_, .inr hfree⟩
          all_goals cases hrun.symm.trans hr
      · obtain ⟨howner', hwaiting'⟩ := (h.thread t').holds m' hm'
        have hm : m' ≠ m := by
          rintro rfl
          exact hwaiting' hgranted.waiting
        refine ⟨(update_of_ne hm _ _).trans howner', fun hw => ?_⟩
        cases (setWaiting_waiting _ t' none).symm.trans hw
    · refine (h.thread t').same ((same_setOwner ?_).trans (same_setWaiting hne none))
      rw [hgranted.owner]
      exact ⟨nofun, fun heq => absurd (Option.some.inj heq).symm hne⟩
  · exact (h.mutex m').same (update_of_ne hm _ _) rfl rfl rfl rfl
  · have hordered := (h.mutex m).toOrdered
    exact ⟨hordered.1, hordered.2, hordered.3⟩

lemma Inv.cancelQueued (h : s.Inv) (hrun : s.run t = .terminated) (hqueued : s.Queued t m)
    (hpc : s.pc t = .asleep m) : (s.unlist t m).Inv := by
  have hfree := hqueued.unlist (h.mutex m).nodup
  refine ⟨fun t' => ?_, h.mutex_unlist⟩
  by_cases hne : t' = t
  · subst hne
    refine ⟨?_, fun m' hm' => ⟨((h.thread t').holds m' hm').1, fun hw => ?_⟩⟩
    · change (s.unlist t' m).Placed t' (s.pc t')
      rw [hpc]
      refine .inr ⟨fun hr => ?_, fun hr => ?_, .inr hfree⟩
      all_goals cases hrun.symm.trans hr
    · cases hfree.waiting.symm.trans hw
  · exact (h.thread t').same (same_unlist hne)

lemma Inv.cancel (h : s.Inv) (hrun : s.run t = .terminated) : (s.cancel unblocks t).Inv := by
  unfold State.cancel
  split
  · exact h
  · next m hwaiting =>
    have hclear := h.clearPending t
    rcases (hclear.thread t).terminated (m := m) hrun hwaiting with
      ⟨hpc, hgranted⟩ | ⟨hpc, hqueued⟩
    · rw [if_pos hgranted.owner]
      exact hclear.cancelGranted hrun hgranted hpc
    · rw [if_neg hqueued.owner]
      exact hclear.cancelQueued hrun hqueued hpc

/-- The steps for which the mutexes are right: no thread locks a mutex that it owns, and
no mutex is handed to a thread between its failed `scheduler_block` and the section
that takes it off the list. -/
def Careful (s : State T M) : Act T M → Prop
  | .lock t m => s.owner m ≠ some t
  | .tryLock t m => s.owner m ≠ some t
  | .fail t => ∀ m, s.pc t = .failing m → s.owner m ≠ some t
  | _ => True

lemma Inv.step (h : s.Inv) {act : Act T M} (hcareful : s.Careful act)
    (hstep : s.step act = some s') : s'.Inv := by
  cases moves_of_step hstep with
  | @lock t m result hrun hpc =>
    have hplaced := (h.thread t).placed
    rw [hpc] at hplaced
    exact h.setPc (.inl ⟨hplaced.1, hcareful⟩)
  | acquire hrun hpc => exact h.acquire hrun hpc
  | block hrun hpc => exact h.block hpc _
  | fail hrun hpc => exact h.failed hpc (hcareful _ hpc)
  | resume hrun hpc => exact h.resume hrun hpc
  | tryLock hrun hpc => exact h.tryLock hpc hcareful
  | unlock hrun hpc => exact h.unlock hpc
  | dispatch hrun => exact h.dispatch hrun
  | preempt hrun hpc => exact h.preempt hpc
  | exit hrun hpc => exact h.preempt (.inl ⟨_, hpc⟩)
  | terminate hrun => exact h.terminate hrun
  | cancel hrun => exact h.cancel hrun

omit [DecidableEq T] [DecidableEq M] in
lemma inv_init : (State.init : State T M).Inv :=
  ⟨fun _ => ⟨⟨⟨rfl, fun _ => List.not_mem_nil⟩, nofun⟩, nofun⟩,
    fun _ => ⟨⟨List.nodup_nil, List.Pairwise.nil, nofun⟩, fun _ => rfl⟩⟩

/-- What mutexes promise. -/
structure Exclusive (s : State T M) : Prop where
  one : ∀ t t' m, s.holding t m = true → s.holding t' m = true → t = t'
  owner : ∀ t m, s.holding t m = true → s.owner m = some t
  refused : ∀ t m, s.pc t = .outside (some (m, false)) →
    s.owner m ≠ some t ∧ t ∉ s.waiters m ∧ s.waiting t ≠ some m
  free : ∀ m, s.owner m = none → s.waiters m = [] ∧ ∀ t, s.waiting t ≠ some m
  order : ∀ m, (s.granted m ++ (s.waiters m).map s.stamp).Pairwise (· < ·)

omit [DecidableEq T] [DecidableEq M] in
lemma ThreadOk.listed_or_owner (h : s.ThreadOk t) (hwaiting : s.waiting t = some m) :
    t ∈ s.waiters m ∨ s.owner m = some t := by
  have hplaced := h.placed
  have hfree (hfree : s.Free t) : t ∈ s.waiters m ∨ s.owner m = some t := by
    cases hfree.waiting.symm.trans hwaiting
  have hqueued {m' : M} (hqueued : s.Queued t m') : t ∈ s.waiters m ∨ s.owner m = some t := by
    obtain rfl := Option.some.inj (hqueued.waiting.symm.trans hwaiting)
    exact .inl hqueued.listed
  have hgranted {m' : M} (hgranted : s.Granted t m') : t ∈ s.waiters m ∨ s.owner m = some t := by
    obtain rfl := Option.some.inj (hgranted.waiting.symm.trans hwaiting)
    exact .inr hgranted.owner
  cases hpc : s.pc t <;> rw [hpc] at hplaced
  case outside result => exact hfree hplaced.1
  case locking m' => exact hplaced.elim (fun h => hfree h.1) hgranted
  case blocking | failing => exact hplaced.2.elim hqueued hgranted
  case asleep m' => exact hplaced.elim hgranted fun h => h.2.2.elim hqueued hfree

omit [DecidableEq T] [DecidableEq M] in
lemma Inv.exclusive (h : s.Inv) : s.Exclusive where
  one t t' m ht ht' := by
    have howner := ((h.thread t).holds m ht).1
    have howner' := ((h.thread t').holds m ht').1
    exact Option.some.inj (howner.symm.trans howner')
  owner t m ht := ((h.thread t).holds m ht).1
  refused t m hpc := by
    have hplaced := (h.thread t).placed
    rw [hpc] at hplaced
    refine ⟨hplaced.2 m rfl, hplaced.1.unlisted m, ?_⟩
    rw [hplaced.1.waiting]
    exact (Option.some_ne_none m).symm
  free m hnone := by
    have hnil := (h.mutex m).free hnone
    refine ⟨hnil, fun t hwaiting => ?_⟩
    rcases (h.thread t).listed_or_owner hwaiting with hlisted | howner
    · rw [hnil] at hlisted
      cases hlisted
    · rw [hnone] at howner
      cases howner
  order m := (h.mutex m).sorted

/-- In every run of careful steps the mutexes keep what they promise. -/
theorem exclusive_of_careful (hrun : Relation.ReflTransGen (Step Careful) (State.init : State T M) s) :
    s.Exclusive := by
  have h : s.Inv := keeps_of_steps (fun h hcareful hstep => h.step hcareful hstep) hrun inv_init
  exact h.exclusive

def failedBlock : List (Act Bool Unit) :=
  [.dispatch false, .lock false (), .acquire false, .dispatch true, .lock true (), .acquire true,
    .block true false, .unlock false () fun _ => true, .fail true]

/-- The second thread is told that it does not have the mutex, but owns it. -/
theorem refused_owner : ∃ s : State Bool Unit,
    Relation.ReflTransGen (Step fun _ _ => True) State.init s ∧ ¬ s.Exclusive := by
  have hrun : (runBy step (State.init : State Bool Unit) failedBlock).map
      (fun s => (s.pc true, s.owner ())) = some (.outside (some ((), false)), some true) := by decide
  obtain ⟨s, hs, heq⟩ := Option.map_eq_some_iff.mp hrun
  refine ⟨s, steps_of_runBy (by decide) hs, fun h => ?_⟩
  exact (h.refused true () (congrArg Prod.fst heq)).1 (congrArg Prod.snd heq)

/-- The same with a `scheduler_block` that sleeps. -/
def handedOver : List (Act Bool Unit) :=
  [.dispatch false, .lock false (), .acquire false, .dispatch true, .lock true (), .acquire true,
    .block true true, .unlock false () fun _ => true, .dispatch true, .resume true, .acquire true]

instance (s : State Bool Unit) : (act : Act Bool Unit) → Decidable (s.Careful act)
  | .lock t m => inferInstanceAs (Decidable (s.owner m ≠ some t))
  | .tryLock t m => inferInstanceAs (Decidable (s.owner m ≠ some t))
  | .fail t => inferInstanceAs (Decidable (∀ m, s.pc t = .failing m → s.owner m ≠ some t))
  | .acquire _ => .isTrue trivial
  | .block _ _ => .isTrue trivial
  | .resume _ => .isTrue trivial
  | .unlock _ _ _ => .isTrue trivial
  | .dispatch _ => .isTrue trivial
  | .preempt _ => .isTrue trivial
  | .exit _ => .isTrue trivial
  | .terminate _ => .isTrue trivial
  | .cancel _ _ => .isTrue trivial

/-- A mutex handed from one thread to another. -/
theorem exclusive_handedOver : ∃ s : State Bool Unit, s.holding true () = true ∧ s.Exclusive := by
  have hrun : (runBy step (State.init : State Bool Unit) handedOver).map
      (fun s => s.holding true ()) = some true := by decide
  obtain ⟨s, hs, heq⟩ := Option.map_eq_some_iff.mp hrun
  exact ⟨s, heq, exclusive_of_careful (steps_of_runBy (by decide) hs)⟩

end Mangrove.Sched.State
