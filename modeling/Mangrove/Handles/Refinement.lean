import Mangrove.Handles.Table

/-! Each operation keeps the table and the map in step. A redirection is an installation
and a swap of the object behind the first handle, a restoration a closing and a swap. -/

namespace Mangrove.Handles

open Function (update update_apply update_of_ne update_self)

section

variable {s s' : Sys} {i : Nat} {object : KernelObject} {rights : UInt32} {g : UInt16}
  {installs : Nat → Nat}

lemma not_issued (hi : i < processHandleSlots) (hg : installs i < g.toNat) :
    ¬ Issued installs (encodeHandle i g) := by
  rintro ⟨j, hj, g', -, hg', heq⟩
  unfold processHandleSlots at hi hj
  obtain ⟨rfl, rfl⟩ := encodeHandle_inj (by omega) (by omega) heq
  omega

variable {handle : Handle}

lemma Issued.more (h : Issued installs handle) (i : Nat) :
    Issued (update installs i (installs i + 1)) handle := by
  obtain ⟨j, hj, g, hg, hle, heq⟩ := h
  refine ⟨j, hj, g, hg, ?_, heq⟩
  by_cases hji : j = i
  · subst hji
    rw [update_self]
    omega
  · rwa [update_of_ne hji]

lemma Inv.issued (h : Inv s) (hheld : s.caps.held handle ≠ none) : Issued s.installs handle := by
  obtain ⟨⟨o, r⟩, hcap⟩ := Option.ne_none_iff_exists'.mp hheld
  obtain ⟨i, hslot, -, -⟩ := h.held handle o r hcap
  obtain ⟨heq, hg, hi, -⟩ := slotOf_some hslot
  exact ⟨i, hi, _, hg, (h.count i).le, heq⟩

lemma Inv.first (h : Inv s) (hi : i < processHandleSlots) (hg : g.toNat = s.installs i + 1)
    (heq : encodeHandle i g = initialConsoleHandle) :
    s.process.outputRedirected = false ∧ s.caps.redirect = none := by
  unfold processHandleSlots at hi
  obtain ⟨rfl, rfl⟩ := encodeHandle_inj (by omega) (by omega)
    (heq.trans (show initialConsoleHandle = encodeHandle 0 1 from rfl))
  change 1 = _ at hg
  exact h.early (by omega)

/-- Nothing that redirection depends on has changed. -/
structure SameMode (p p' : Process) : Prop where
  active : p'.active = p.active
  outputRedirected : p'.outputRedirected = p.outputRedirected
  saved : p'.redirectedOutputSavedHandle = p.redirectedOutputSavedHandle

section

variable {slot : Slot} {q : Process}

lemma Inv.count_update (h : Inv s) (hslots : q.slots = update s.process.slots i slot)
    (hg : slot.generation.toNat = s.installs i + 1) (k : Nat) :
    (q.slots k).generation.toNat = update s.installs i (s.installs i + 1) k := by
  rw [hslots]
  by_cases hk : k = i
  · subst hk
    simp [hg]
  · simp [update_of_ne hk, h.count]

lemma Inv.held_update (h : Inv s) (hslots : q.slots = update s.process.slots i slot)
    (hne : slotOf s.process handle ≠ some i) {o : KernelObject} {r : UInt32}
    (hcap : s.caps.held handle = some (o, r)) : ∃ j, slotOf q handle = some j ∧
      (q.slots j).rights = r ∧ (q.slots j).object = some (s.caps.behind handle o) := by
  obtain ⟨j, hj, hsame⟩ := h.held handle o r hcap
  have hji : j ≠ i := by
    rintro rfl
    exact hne hj
  refine ⟨j, (slotOf_update hslots).mpr (.inr ⟨hji, hj⟩), ?_⟩
  rwa [hslots, update_of_ne hji]

lemma Inv.pos_update (h : Inv s) (hslots : q.slots = update s.process.slots i slot)
    (hslot : slot.active = true → slot.generation ≠ 0) (j : Nat) (hj : j < processHandleSlots)
    (ha : (q.slots j).active = true) : (q.slots j).generation ≠ 0 := by
  rw [hslots] at ha ⊢
  by_cases hji : j = i
  · subst hji
    rw [update_self] at ha ⊢
    exact hslot ha
  · rw [update_of_ne hji] at ha ⊢
    exact h.pos j hj ha

lemma Inv.early_update (h : Inv s) (h0 : update s.installs i (s.installs i + 1) 0 = 0) :
    s.process.outputRedirected = false ∧ s.caps.redirect = none := by
  rw [update_apply] at h0
  split at h0
  · omega
  · exact h.early h0

lemma slotOf_ne_free {p : Process} (hfree : (p.slots i).active = false) :
    slotOf p handle ≠ some i := by
  intro hi
  exact absurd ((slotOf_some hi).2.2.2.symm.trans hfree) (by decide)

end

lemma Inv.install (h : Inv s) (hi : i < processHandleSlots)
    (hfree : (s.process.slots i).active = false) (hactive : s.process.active = true)
    (hg : g.toNat = s.installs i + 1) (hmode : SameMode s.process s'.process)
    (hslots : s'.process.slots = update s.process.slots i ⟨some object, rights, g, true⟩)
    (hcaps : s'.caps = s.caps.install (encodeHandle i g) object rights)
    (hinstalls : s'.installs = update s.installs i (s.installs i + 1)) : Inv s' := by
  obtain ⟨⟨active, slots, redirected, saved, refCount⟩, caps, installs⟩ := s'
  obtain ⟨rfl, rfl, rfl⟩ := hmode
  obtain rfl : caps = _ := hcaps
  obtain rfl : installs = _ := hinstalls
  have hg0 : g ≠ 0 := by
    rintro rfl
    change 0 = _ at hg
    omega
  have hheld (handle : Handle) : (s.caps.install (encodeHandle i g) object rights).held handle =
      if handle = encodeHandle i g then some (object, rights) else s.caps.held handle :=
    update_apply ..
  have hold {handle : Handle} (hissued : Issued s.installs handle) :
      (s.caps.install (encodeHandle i g) object rights).held handle = s.caps.held handle := by
    rw [hheld, if_neg]
    rintro rfl
    exact not_issued hi (by omega) hissued
  refine ⟨h.count_update hslots hg, fun h' o r hcap => ?_, fun h' j hj => ?_, h.pos_update hslots fun _ => hg0,
    fun h' hc => ?_, fun hd => ?_, h.early_update, fun hc => ?_, fun hr => ?_⟩
  · rw [hheld] at hcap
    split at hcap
    · next heq =>
      subst heq
      cases hcap
      refine ⟨i, (slotOf_update hslots).mpr (.inl ⟨rfl, hi, rfl, hg0, rfl⟩), ?_⟩
      rw [hslots, update_self, Caps.behind]
      refine ⟨rfl, ?_⟩
      split
      · next heq => rw [Caps.install, (h.first hi hg heq).2, Option.getD_none]
      · rfl
    · exact h.held_update hslots (slotOf_ne_free hfree) hcap
  · rcases (slotOf_update hslots).mp hj with ⟨-, -, -, -, rfl⟩ | ⟨-, hj⟩
    · simp [hheld]
    · have hused := h.used h' j hj
      exact (hold (h.issued hused)).trans_ne hused
  · obtain ⟨hissued, hnone⟩ := h.closed h' hc
    exact ⟨hissued.more i, (hold hissued).trans hnone⟩
  · cases hactive.symm.trans hd
  · by_cases heq : encodeHandle i g = initialConsoleHandle
    · obtain ⟨h1, h2⟩ := h.first hi hg heq
      simp [h1, h2, Caps.install]
    · rw [hheld, if_neg (Ne.symm heq)] at hc
      exact h.redirected hc
  · obtain ⟨hissued, hne, hsame⟩ := h.saved hr
    refine ⟨hissued.more i, hne, fun o r ho => ?_⟩
    have heq : initialConsoleHandle ≠ encodeHandle i g := by
      intro heq
      exact absurd ((h.first hi hg heq.symm).1.symm.trans hr) (by decide)
    rw [hheld, if_neg heq] at ho
    rw [hold hissued]
    exact hsame o r ho

lemma Inv.spend (h : Inv s) (hfree : (s.process.slots i).active = false) {slot : Slot}
    (hslot : slot.active = false) (hg : slot.generation.toNat = s.installs i + 1)
    (hmode : SameMode s.process s'.process)
    (hslots : s'.process.slots = update s.process.slots i slot) (hcaps : s'.caps = s.caps)
    (hinstalls : s'.installs = update s.installs i (s.installs i + 1)) : Inv s' := by
  obtain ⟨⟨active, slots, redirected, saved, refCount⟩, caps, installs⟩ := s'
  obtain ⟨rfl, rfl, rfl⟩ := hmode
  obtain rfl : caps = _ := hcaps
  obtain rfl : installs = _ := hinstalls
  refine ⟨h.count_update hslots hg, fun h' o r => h.held_update hslots (slotOf_ne_free hfree),
    fun h' j hj => ?_, h.pos_update hslots fun ha => ?_, fun h' hc => ?_, h.dead, h.early_update,
    h.redirected, fun hr => ?_⟩
  · rcases (slotOf_update hslots).mp hj with ⟨-, -, ha, -⟩ | ⟨-, hj⟩
    · cases hslot.symm.trans ha
    · exact h.used h' j hj
  · cases hslot.symm.trans ha
  · obtain ⟨hissued, hnone⟩ := h.closed h' hc
    exact ⟨hissued.more i, hnone⟩
  · obtain ⟨hissued, hsame⟩ := h.saved hr
    exact ⟨hissued.more i, hsame⟩

lemma Inv.close (h : Inv s) (hi : slotOf s.process handle = some i)
    (hmode : SameMode s.process s'.process)
    (hslots : s'.process.slots = update s.process.slots i (s.process.slots i).cleared)
    (hcaps : s'.caps = s.caps.close handle) (hinstalls : s'.installs = s.installs) : Inv s' := by
  obtain ⟨⟨active, slots, redirected, saved, refCount⟩, caps, installs⟩ := s'
  obtain ⟨rfl, rfl, rfl⟩ := hmode
  obtain rfl : caps = _ := hcaps
  obtain rfl : installs = _ := hinstalls
  have hheld (h' : Handle) : (s.caps.close handle).held h' =
      if h' = handle then none else s.caps.held h' := update_apply ..
  have hsub {h' : Handle} {cap : KernelObject × UInt32}
      (hcap : (s.caps.close handle).held h' = some cap) :
      h' ≠ handle ∧ s.caps.held h' = some cap := by
    rw [hheld] at hcap
    split at hcap
    · cases hcap
    · exact ⟨‹_›, hcap⟩
  refine ⟨fun k => ?_, fun h' o r hcap => ?_, fun h' j hj => ?_, h.pos_update hslots fun ha => ?_,
    fun h' hc => ?_, fun hd h' => ?_, h.early, fun hc => ?_, fun hr => ?_⟩
  · rw [hslots, ← h.count k]
    by_cases hk : k = i
    · subst hk
      rw [update_self]
      rfl
    · rw [update_of_ne hk]
  · obtain ⟨hne, hcap⟩ := hsub hcap
    exact h.held_update hslots (fun hj => hne (slotOf_inj hj hi)) hcap
  · rcases (slotOf_update hslots).mp hj with ⟨-, -, ha, -⟩ | ⟨hji, hold⟩
    · cases ha
    · rw [hheld, if_neg]
      · exact h.used h' j hold
      · rintro rfl
        exact hji (Option.some.inj (hold.symm.trans hi))
  · cases ha
  · rw [hheld]
    rcases hc with hc | rfl
    · obtain ⟨hissued, hnone⟩ := h.closed h' hc
      refine ⟨hissued, ?_⟩
      rw [hnone, ite_self]
    · exact ⟨h.issued (h.used h' i hi), if_pos rfl⟩
  · rw [hheld, h.dead hd, ite_self]
  · obtain ⟨cap, hcap⟩ := Option.ne_none_iff_exists'.mp hc
    exact h.redirected ((hsub hcap).2.trans_ne (Option.some_ne_none cap))
  · obtain ⟨hissued, hne, hsame⟩ := h.saved hr
    refine ⟨hissued, hne, fun o r ho => ?_⟩
    obtain ⟨hr, ho⟩ := hsame o r (hsub ho).2
    exact ⟨hr, fun o' r' ho' => ho o' r' (hsub ho').2⟩

lemma Inv.swap (h : Inv s) {x : KernelObject} (hactive : s'.process.active = s.process.active)
    (hused : (s.process.slots 0).active = true) (hone : (s.process.slots 0).generation = 1)
    (hrights : (s.process.slots 0).rights = rightWrite)
    (hslots : s'.process.slots = update s.process.slots 0
      { s.process.slots 0 with object := some x, rights := rightWrite })
    (hheld : s'.caps.held = s.caps.held) (hclosed : s'.caps.closed = s.caps.closed)
    (hinstalls : s'.installs = s.installs)
    (hmode : s'.process.outputRedirected = true ↔ s'.caps.redirect.isSome)
    (hbehind : ∀ o r, s.caps.held initialConsoleHandle = some (o, r) → s'.caps.redirect.getD o = x)
    (hsaved : s'.process.outputRedirected = true →
      Issued s'.installs s'.process.redirectedOutputSavedHandle ∧
      s'.process.redirectedOutputSavedHandle ≠ initialConsoleHandle ∧
      ∀ o r, s.caps.held initialConsoleHandle = some (o, r) → r = rightWrite ∧
        ∀ o' r', s.caps.held s'.process.redirectedOutputSavedHandle = some (o', r') → o' = o) :
    Inv s' := by
  have hslotOf (handle : Handle) (j : Nat) :
      slotOf s'.process handle = some j ↔ slotOf s.process handle = some j := by
    rw [slotOf_iff, slotOf_iff, hslots]
    by_cases hj : j = 0
    · subst hj
      rw [update_self]
    · rw [update_of_ne hj]
  have hfirst : slotOf s.process initialConsoleHandle = some 0 := by
    rw [slotOf_iff, hone]
    exact ⟨by decide, hused, by decide, rfl⟩
  have hsame (j : Nat) : (s'.process.slots j).generation = (s.process.slots j).generation ∧
      (s'.process.slots j).active = (s.process.slots j).active ∧
      (s'.process.slots j).rights = (s.process.slots j).rights := by
    rw [hslots]
    by_cases hj : j = 0
    · subst hj
      rw [update_self]
      exact ⟨rfl, rfl, hrights.symm⟩
    · rw [update_of_ne hj]
      exact ⟨rfl, rfl, rfl⟩
  refine ⟨fun k => ?_, fun h' o r hcap => ?_, fun h' j hj => ?_, fun j hj ha => ?_, fun h' hc => ?_,
    fun hd => ?_, fun h0 => ?_, fun _ => hmode, fun hr => ?_⟩
  · rw [(hsame k).1, hinstalls, h.count]
  · rw [hheld] at hcap
    obtain ⟨j, hj, hrights, hobject⟩ := h.held h' o r hcap
    refine ⟨j, (hslotOf h' j).mpr hj, (hsame j).2.2.trans hrights, ?_⟩
    by_cases hj0 : j = 0
    · subst hj0
      obtain rfl := slotOf_inj hj hfirst
      rw [hslots, update_self, Caps.behind, if_pos rfl, hbehind o r hcap]
    · rw [hslots, update_of_ne hj0, hobject]
      have hne : h' ≠ initialConsoleHandle := by
        rintro rfl
        exact hj0 (Option.some.inj (hj.symm.trans hfirst))
      rw [Caps.behind, Caps.behind, if_neg hne, if_neg hne]
  · rw [hheld]
    exact h.used h' j ((hslotOf h' j).mp hj)
  · rw [(hsame j).2.1] at ha
    rw [(hsame j).1]
    exact h.pos j hj ha
  · rw [hclosed] at hc
    rw [hinstalls, hheld]
    exact h.closed h' hc
  · rw [hheld]
    exact h.dead (hactive.symm.trans hd)
  · have hcount := h.count 0
    rw [hone, ← hinstalls, h0] at hcount
    cases hcount
  · rw [hheld]
    exact hsaved hr

lemma Inv.exit (h : Inv s) (hslots : s'.process.slots = clearedBelow s.process processHandleSlots)
    (hred : s'.process.outputRedirected = s.process.outputRedirected)
    (hsave : s'.process.redirectedOutputSavedHandle = s.process.redirectedOutputSavedHandle)
    (hcaps : s'.caps = s.caps.closeAll) (hinstalls : s'.installs = s.installs) : Inv s' := by
  obtain ⟨⟨active, slots, redirected, saved, refCount⟩, caps, installs⟩ := s'
  obtain rfl : redirected = _ := hred
  obtain rfl : saved = _ := hsave
  obtain rfl : caps = _ := hcaps
  obtain rfl : installs = _ := hinstalls
  have hcleared {j : Nat} (hj : j < processHandleSlots) : (slots j).active ≠ true := by
    obtain rfl : slots = _ := hslots
    rw [clearedBelow]
    split
    · exact Bool.false_ne_true
    · next hc => simpa [hj] using hc
  refine ⟨fun k => ?_, fun _ _ _ hc => (Option.some_ne_none _ hc.symm).elim, fun h' j hj => ?_, fun j hj ha => (hcleared hj ha).elim,
    fun h' hc => ⟨?_, rfl⟩, fun _ _ => rfl, h.early, fun hc => (hc rfl).elim, fun hr => ?_⟩
  · rw [hslots, ← h.count k, clearedBelow]
    split <;> rfl
  · obtain ⟨-, -, hlt, ha⟩ := slotOf_some hj
    exact (hcleared hlt ha).elim
  · rcases hc with hc | hc
    · exact (h.closed h' hc).1
    · exact h.issued hc
  · obtain ⟨hissued, hne, -⟩ := h.saved hr
    exact ⟨hissued, hne, by simp [Caps.closeAll]⟩

lemma Inv.counts (h : Inv s) {p : Process} (hp : Counts s.process p) :
    Inv ⟨p, s.caps, countInstalls s.installs s.process p⟩ := by
  obtain ⟨f, rfl⟩ := hp
  have hcount : countInstalls s.installs s.process { s.process with refCount := f } = s.installs :=
    countInstalls_same fun _ => rfl
  rw [hcount]
  exact ⟨h.count, h.held, h.used, h.pos, h.closed, h.dead, h.early, h.redirected, h.saved⟩

lemma Sys.next_cases {op : Op} {Q : Handle → Process → Prop} {E : Unit → Process → Prop}
    (h : Prog.wp op.run Q E s.process) : (∃ handle p, Q handle p ∧
      s.next op = ⟨p, s.caps.after handle op, countInstalls s.installs s.process p⟩) ∨
    ∃ p, E () p ∧ s.next op = ⟨p, s.caps, countInstalls s.installs s.process p⟩ := by
  unfold Sys.next
  rcases hrun : op.run s.process with ⟨a | a, p⟩
  · exact .inr ⟨p, h.error hrun, rfl⟩
  · exact .inl ⟨a, p, h.ok hrun, rfl⟩

lemma Inv.generation (h : Inv s) {p : Process} {slot : Slot}
    (hp : p.slots = update s.process.slots i slot)
    (hgen : slot.generation = nextGeneration (s.process.slots i).generation)
    (hle : ∀ k, countInstalls s.installs s.process p k ≤ 65535) :
    countInstalls s.installs s.process p = update s.installs i (s.installs i + 1) ∧
      slot.generation.toNat = s.installs i + 1 := by
  have hcount := @countInstalls_new s.process i slot s.installs p hp (hgen ▸ nextGeneration_ne _)
  have hbound := hle i
  rw [hcount, update_self, ← h.count i] at hbound
  rw [hgen, nextGeneration_toNat hbound, h.count i]
  exact ⟨hcount, rfl⟩

lemma Inv.step_install (h : Inv s) (hle : ∀ i, (s.next (.install object rights)).installs i ≤ 65535) :
    Inv (s.next (.install object rights)) := by
  have hspec : Prog.wp (Op.run (.install object rights)) _ _ s.process := processHandleInstall_spec
  rcases Sys.next_cases hspec with
    ⟨handle, p, ⟨i, f, hi, hfree, hactive, rfl, rfl⟩, hnext⟩ | ⟨p, hp, hnext⟩
  · rw [hnext] at hle ⊢
    obtain ⟨hcount, hg⟩ := h.generation rfl rfl hle
    exact h.install hi hfree hactive hg ⟨rfl, rfl, rfl⟩ rfl rfl hcount
  · rw [hnext]
    exact h.counts hp

lemma Inv.step_close (h : Inv s) : Inv (s.next (.close handle)) := by
  have hspec : Prog.wp (Op.run (.close handle)) _ _ s.process :=
    processHandleClose_spec.bind (Q := fun a p => a = handle ∧ ∃ i f,
      slotOf s.process handle = some i ∧ p = { s.process with
        slots := update s.process.slots i (s.process.slots i).cleared
        refCount := f }) fun _ _ hq => ⟨rfl, hq⟩
  rcases Sys.next_cases hspec with ⟨_, p, ⟨rfl, i, f, hi, rfl⟩, hnext⟩ | ⟨p, ⟨-, hp⟩, hnext⟩
  · rw [hnext]
    refine h.close hi ⟨rfl, rfl, rfl⟩ rfl rfl (countInstalls_same fun k => ?_)
    by_cases hk : k = i
    · subst hk
      simp [Slot.cleared]
    · simp [update_of_ne hk]
  · rw [hnext]
    exact h.counts hp

lemma Inv.console (h : Inv s) (hnot : s.process.outputRedirected = false) {console : KernelObject}
    (hconsole : processHandleLookupAny s.process initialConsoleHandle .console rightWrite =
      some console) : slotOf s.process initialConsoleHandle = some 0 ∧
      s.caps.held initialConsoleHandle = some (console, (s.process.slots 0).rights) := by
  obtain ⟨j, hj, -⟩ := processHandleLookupAny_some hconsole
  obtain ⟨rfl, -⟩ := slotOf_console hj
  rw [h.lookupAny] at hconsole
  obtain ⟨o, r, hheld, hbehind⟩ := Caps.lookup_some hconsole
  have hred : s.caps.redirect = none := by
    have hiff := h.redirected (by rw [hheld]; exact Option.some_ne_none _)
    simpa [hnot] using hiff
  obtain rfl : o = console := by
    rw [← hbehind, Caps.behind, if_pos rfl, hred, Option.getD_none]
  obtain ⟨j, hj', rfl, -⟩ := h.held _ _ _ hheld
  obtain rfl := Option.some.inj (hj.symm.trans hj')
  exact ⟨hj, hheld⟩

section

variable (h : Inv s)

include h

variable {isCurrent : Bool}

section

variable (hrights : (s.process.slots 0).rights = rightWrite)

include hrights

lemma Inv.redirect {file console : KernelObject} {saved : Handle}
    (hnot : s.process.outputRedirected = false)
    (hconsole : processHandleLookupAny s.process initialConsoleHandle .console rightWrite =
      some console) (hi : i < processHandleSlots) (hfree : (s.process.slots i).active = false)
    (hactive : s.process.active = true) (hg : g.toNat = s.installs i + 1)
    (hsaved : saved = encodeHandle i g) (hactive' : s'.process.active = s.process.active)
    (hslots : s'.process.slots = update (update s.process.slots i
      ⟨some console, rightWrite, g, true⟩) 0
        { s.process.slots 0 with object := some file, rights := rightWrite })
    (hred : s'.process.outputRedirected = true)
    (hsave : s'.process.redirectedOutputSavedHandle = saved)
    (hcaps : s'.caps = { s.caps.install saved console rightWrite with redirect := some file })
    (hinstalls : s'.installs = update s.installs i (s.installs i + 1)) : Inv s' := by
  obtain ⟨hslot, hheld⟩ := h.console hnot hconsole
  have hone := (slotOf_console hslot).2
  have hused := (slotOf_some hslot).2.2.2
  have hi0 : i ≠ 0 := by
    rintro rfl
    exact absurd (hused.symm.trans hfree) (by decide)
  have hne : saved ≠ initialConsoleHandle := by
    intro heq
    unfold processHandleSlots at hi
    exact hi0 (encodeHandle_inj (by omega) (by omega)
      ((hsaved.symm.trans heq).trans (show initialConsoleHandle = encodeHandle 0 1 from rfl))).1
  let t : Sys := ⟨{ s.process with
      slots := update s.process.slots i ⟨some console, rightWrite, g, true⟩ },
    s.caps.install (encodeHandle i g) console rightWrite,
    update s.installs i (s.installs i + 1)⟩
  have ht : Inv t := h.install hi hfree hactive hg ⟨rfl, rfl, rfl⟩ rfl rfl rfl
  have ht0 : t.process.slots 0 = s.process.slots 0 := update_of_ne hi0.symm _ _
  have hsavedHeld : t.caps.held saved = some (console, rightWrite) := by
    rw [hsaved]
    exact update_self ..
  have hconsoleHeld : t.caps.held initialConsoleHandle = s.caps.held initialConsoleHandle :=
    update_of_ne (hsaved ▸ hne.symm) _ _
  refine ht.swap (x := file) hactive' (ht0 ▸ hused) (ht0 ▸ hone) (ht0 ▸ hrights) ?_ ?_ ?_
    hinstalls ?_ ?_ ?_
  · rw [hslots, ht0]
  · rw [hcaps, hsaved]
  · rw [hcaps, hsaved]
  · simp [hred, hcaps]
  · intro o r _
    rw [hcaps]
    rfl
  · intro _
    rw [hsave, hinstalls]
    refine ⟨ht.issued (by rw [hsavedHeld]; exact Option.some_ne_none _), hne, fun o r ho => ?_⟩
    rw [hconsoleHeld, hheld, hrights] at ho
    cases ho
    refine ⟨rfl, fun o' r' ho' => ?_⟩
    rw [hsavedHeld] at ho'
    cases ho'
    rfl

omit hrights in
lemma Inv.step_redirect {output : Handle}
    (hkeeps : KeepsRights s.process (.redirect isCurrent output))
    (hle : ∀ i, (s.next (.redirect isCurrent output)).installs i ≤ 65535) :
    Inv (s.next (.redirect isCurrent output)) := by
  have hspec : Prog.wp (Op.run (.redirect isCurrent output)) _ _ s.process :=
    processRedirectOutput_spec
  rcases Sys.next_cases hspec with ⟨saved, p, ⟨file, console, i, f, hfile, hconsole, hi, hfree,
    hactive, hsaved, hnot, rfl⟩, hnext⟩ | ⟨p, hp | ⟨i, f, hi, hfree, rfl⟩, hnext⟩
  · rw [hnext] at hle ⊢
    have hrights : (s.process.slots 0).rights = rightWrite :=
      hkeeps (by rw [hfile]; rfl) (by rw [hconsole]; rfl)
    let q : Process := { s.process with
      slots := update s.process.slots i
        ⟨some console, rightWrite, nextGeneration (s.process.slots i).generation, true⟩ }
    have hq0 : q.slots 0 = s.process.slots 0 := by
      refine update_of_ne ?_ _ _
      rintro rfl
      have hused := (slotOf_some (h.console hnot hconsole).1).2.2.2
      exact absurd (hused.symm.trans hfree) (by decide)
    have hcount : countInstalls s.installs s.process { s.process with
        slots := update q.slots 0
          { s.process.slots 0 with object := some file, rights := rightWrite }
        outputRedirected := true
        redirectedOutputSavedHandle := saved
        refCount := f } = countInstalls s.installs s.process q := by
      refine countInstalls_congr fun k => ?_
      by_cases hk : k = 0
      · subst hk
        rw [hq0]
        simp
      · simp [update_of_ne hk]
    obtain ⟨hnew, hg⟩ := h.generation (p := q) rfl rfl fun k => hcount ▸ hle k
    refine h.redirect hrights hnot hconsole hi hfree hactive hg hsaved rfl rfl rfl rfl ?_
      (hcount.trans hnew)
    rw [h.lookupAny] at hfile hconsole
    simp only [Caps.after, hfile, hconsole]
  · rw [hnext]
    exact h.counts hp
  · rw [hnext] at hle ⊢
    obtain ⟨hcount, hg⟩ := h.generation rfl rfl hle
    exact h.spend hfree rfl hg ⟨rfl, rfl, rfl⟩ rfl rfl hcount

end

lemma Inv.restore {saved : KernelObject}
    (hi : slotOf s.process handle = some i) (hobject : (s.process.slots i).object = some saved)
    (hred : s.process.outputRedirected = true)
    (hhandle : handle = s.process.redirectedOutputSavedHandle)
    (hused : (s.process.slots 0).active = true) (hone : (s.process.slots 0).generation = 1)
    (hactive : s'.process.active = s.process.active) (hslots : s'.process.slots =
      update (update s.process.slots i (s.process.slots i).cleared) 0
        { update s.process.slots i (s.process.slots i).cleared 0 with
          object := some saved, rights := rightWrite })
    (hred' : s'.process.outputRedirected = false)
    (hcaps : s'.caps = { s.caps.close handle with redirect := none })
    (hinstalls : s'.installs = s.installs) : Inv s' := by
  obtain ⟨-, hne, hsame⟩ := h.saved hred
  rw [← hhandle] at hne hsame
  have hfirst : slotOf s.process initialConsoleHandle = some 0 := by
    rw [slotOf_iff, hone]
    exact ⟨by decide, hused, by decide, rfl⟩
  have hi0 : i ≠ 0 := by
    rintro rfl
    exact hne (slotOf_inj hi hfirst)
  obtain ⟨⟨o, r⟩, hheld⟩ := Option.ne_none_iff_exists'.mp (h.used _ _ hfirst)
  obtain ⟨⟨o', r'⟩, hheld'⟩ := Option.ne_none_iff_exists'.mp (h.used _ _ hi)
  obtain ⟨rfl, ho⟩ := hsame o r hheld
  obtain rfl := ho o' r' hheld'
  have hrights : (s.process.slots 0).rights = rightWrite := by
    obtain ⟨j, hj, hr, -⟩ := h.held _ _ _ hheld
    obtain rfl := Option.some.inj (hfirst.symm.trans hj)
    exact hr
  have hsaved : o' = saved := by
    obtain ⟨j, hj, -, hobject'⟩ := h.held _ _ _ hheld'
    obtain rfl := Option.some.inj (hi.symm.trans hj)
    rw [hobject, Caps.behind, if_neg hne] at hobject'
    exact (Option.some.inj hobject').symm
  let t : Sys := ⟨{ s.process with
      slots := update s.process.slots i (s.process.slots i).cleared },
    s.caps.close handle, s.installs⟩
  have ht : Inv t := h.close hi ⟨rfl, rfl, rfl⟩ rfl rfl rfl
  have ht0 : t.process.slots 0 = s.process.slots 0 := update_of_ne hi0.symm _ _
  have hconsoleHeld : t.caps.held initialConsoleHandle = s.caps.held initialConsoleHandle :=
    update_of_ne hne.symm _ _
  refine ht.swap (x := saved) hactive (ht0 ▸ hused) (ht0 ▸ hone) (ht0 ▸ hrights) hslots ?_ ?_
    hinstalls ?_ ?_ ?_
  · rw [hcaps]
  · rw [hcaps]
  · simp [hred', hcaps]
  · intro o r hcap
    rw [hconsoleHeld, hheld] at hcap
    cases hcap
    rw [hcaps]
    exact hsaved
  · intro habs
    rw [hred'] at habs
    cases habs

lemma Inv.step_restore : Inv (s.next (.restore isCurrent handle)) := by
  have hspec : Prog.wp (Op.run (.restore isCurrent handle)) _ _ s.process :=
    processRestoreOutput_spec.bind (Q := fun (a : Handle) (p : Process) => a = handle ∧
      ∃ i saved f, slotOf s.process handle = some i ∧
        (s.process.slots i).object = some saved ∧ s.process.outputRedirected = true ∧
        handle = s.process.redirectedOutputSavedHandle ∧ (s.process.slots 0).active = true ∧
        (s.process.slots 0).generation = 1 ∧ p = { s.process with
          slots := update
            (update s.process.slots i (s.process.slots i).cleared) 0
              { update s.process.slots i (s.process.slots i).cleared 0 with
                object := some saved, rights := rightWrite }
          outputRedirected := false
          redirectedOutputSavedHandle := 0
          refCount := f }) fun _ _ hq => ⟨rfl, hq⟩
  rcases Sys.next_cases hspec with ⟨_, p, ⟨rfl, i, saved, f, hi, hobject, hred, hhandle, hused, hone,
    rfl⟩, hnext⟩ | ⟨p, hp, hnext⟩
  · rw [hnext]
    refine h.restore hi hobject hred hhandle hused hone rfl rfl rfl rfl
      (countInstalls_same fun k => ?_)
    dsimp only
    by_cases hk : k = 0
    · subst hk
      by_cases hi0 : i = 0
      · subst hi0
        simp [Slot.cleared]
      · simp [update_of_ne (Ne.symm hi0)]
    · rw [update_of_ne hk]
      by_cases hki : k = i
      · subst hki
        simp [Slot.cleared]
      · rw [update_of_ne hki]
  · rw [hnext]
    exact h.counts hp

lemma Inv.step_exit : Inv (s.next .exit) := by
  have hspec : Prog.wp (Op.run .exit) _ _ s.process :=
    processExit_spec.bind (Q := fun (_ : Handle) (p : Process) => ∃ f, p = { s.process with
      active := false
      slots := clearedBelow s.process processHandleSlots
      refCount := f }) fun _ _ hq => hq
  rcases Sys.next_cases hspec with ⟨_, p, ⟨f, rfl⟩, hnext⟩ | ⟨p, hp, hnext⟩
  · rw [hnext]
    refine h.exit rfl rfl rfl rfl (countInstalls_same fun k => ?_)
    dsimp only
    unfold clearedBelow
    split <;> rfl
  · rw [hnext]
    exact h.counts hp

lemma Inv.step {s' : Sys} (hstep : Step KeepsRights s s') : Inv s' := by
  obtain ⟨op, hcond, rfl, hle⟩ := hstep
  cases op with
  | install object rights => exact h.step_install hle
  | close handle => exact h.step_close
  | redirect isCurrent output => exact h.step_redirect hcond hle
  | restore isCurrent saved => exact h.step_restore
  | exit => exact h.step_exit
  | counts refCount => exact h.counts ⟨refCount, rfl⟩

end

end

/-- In every run whose redirections find the first handle with the right to write
and no other, the table is the map. -/
theorem handles_refine_caps {s₀ s : Sys} (hfresh : Fresh s₀)
    (hrun : Relation.ReflTransGen (Step KeepsRights) s₀ s) : Refines s := by
  have hinv : Inv s := by
    induction hrun with
    | refl => exact hfresh.inv
    | tail _ hstep ih => exact ih.step hstep
  exact hinv.refines

lemma countInstalls_le {installs : Nat → Nat} {p q : Process} {n i : Nat} (h : installs i ≤ n) :
    countInstalls installs p q i ≤ n + 1 := by
  unfold countInstalls
  split <;> omega

variable {cond : Process → Op → Prop}

lemma Sys.next_step {s : Sys} {n : Nat} {op : Op}
    (hcond : cond s.process op) (hle : ∀ i, s.installs i ≤ n) (hn : n < 65535) :
    Step cond s (s.next op) ∧ ∀ i, (s.next op).installs i ≤ n + 1 := by
  have hnext (i : Nat) : (s.next op).installs i ≤ n + 1 := by
    unfold Sys.next
    split <;> exact countInstalls_le (hle i)
  exact ⟨⟨op, hcond, rfl, fun i => (hnext i).trans (by omega)⟩, hnext⟩

lemma run_ops (ops : List Op) : ∀ {s : Sys} {n : Nat},
    (∀ i, s.installs i ≤ n) → n + ops.length ≤ 65535 →
    (∀ k (hk : k < ops.length), cond ((ops.take k).foldl Sys.next s).process ops[k]) →
    Relation.ReflTransGen (Step cond) s (ops.foldl Sys.next s) := by
  induction ops with
  | nil => exact fun _ _ _ => .refl
  | cons op ops ih =>
    intro s n hle hlen hcond
    rw [List.length_cons] at hlen
    obtain ⟨hstep, hle'⟩ := Sys.next_step (hcond 0 (by simp)) hle (by omega)
    refine .head hstep (ih hle' (by omega) fun k hk => ?_)
    exact hcond (k + 1) (by simpa using hk)

def freshSys : Sys where
  process := ⟨true, fun _ => ⟨none, 0, 0, false⟩, false, 0, fun _ => 1⟩
  caps := ⟨fun _ => none, none, fun _ => False⟩
  installs := fun _ => 0

lemma freshSys_fresh : Fresh freshSys :=
  ⟨rfl, fun _ => rfl, rfl, fun _ => rfl, rfl, fun _ h => h, fun _ => rfl⟩

def console : KernelObject := ⟨1, .console⟩

def file : KernelObject := ⟨2, .file⟩

def redirectOps (rights : UInt32) : List Op :=
  [.install console rights, .install file rightWrite, .redirect true 0x00010002]

/-- A run with a redirection of a handle that was installed for writing only. -/
theorem handles_refine_redirected :
    processHandleLookup ((redirectOps rightWrite).foldl Sys.next freshSys).process
      initialConsoleHandle .file rightWrite = some file ∧
    Refines ((redirectOps rightWrite).foldl Sys.next freshSys) := by
  refine ⟨by decide +kernel, handles_refine_caps freshSys_fresh ?_⟩
  refine run_ops (redirectOps rightWrite) (fun _ => le_refl 0) (by decide) fun k hk => ?_
  match k, hk with
  | 0, _ => trivial
  | 1, _ => trivial
  | 2, _ =>
    intro _ _
    show ((List.foldl Sys.next freshSys [.install console rightWrite,
      .install file rightWrite]).process.slots 0).rights = rightWrite
    decide +kernel

/-- The first process has its console with the right to read. After a redirection
that has ended the handle is still held, but can only be written. -/
theorem redirection_takes_read : ∃ s, Fresh freshSys ∧
    Relation.ReflTransGen (Step fun _ _ => True) freshSys s ∧
    s.caps.held initialConsoleHandle = some (console, rightRead ||| rightWrite) ∧
    s.caps.lookup initialConsoleHandle .console rightRead = some console ∧
    processHandleLookup s.process initialConsoleHandle .console rightRead = none := by
  refine ⟨(redirectOps (rightRead ||| rightWrite) ++ [Op.restore true 0x00010003]).foldl Sys.next
    freshSys, freshSys_fresh, ?_, by decide +kernel, by decide +kernel, by decide +kernel⟩
  exact run_ops _ (fun _ => le_refl 0) (by decide) fun _ _ => trivial

end Mangrove.Handles
