import Mangrove.Vmm.AddressSpace

/-! The identity mapping of one page below 1 MiB for the start of other processors, and its
removal, which also gives page tables back. -/

namespace Mangrove.Vmm

open Prog (wp wp_bind wp_get_bind wp_modify_bind wp_pure)

/-- `vmm_map_kernel_one_internal` behind its checks. -/
def mapKernelPath (virtual : Nat) (physical : Phys) (flags : Entry) : VmProg Bool := do
  let s ← Prog.get
  match ← kernelChild s.kernelPml4 (index 39 virtual) with
  | none => return false
  | some pdpt =>
    match ← kernelChild pdpt (index 30 virtual) with
    | none => return false
    | some pd =>
      match ← kernelChild pd (index 21 virtual) with
      | none => return false
      | some pt => do
        setEntry pt (index 12 virtual) (frameOf physical ||| flags ||| ptePresent)
        return true

def mapKernelOneInternal (virtual : UInt64) (physical : Phys) (flags : Entry)
    (allowBootstrapLow : Bool) : VmProg Bool :=
  if ¬ physMapContains physical ∨ has flags pteUser ∨
      (virtual.toNat < userAddressLimit ∧ (allowBootstrapLow = false ∨
        virtual.toNat ≥ 0x100000 ∨ physical.toNat ≠ virtual.toNat)) ∨
      (¬ virtual.toNat < userAddressLimit ∧ ¬ kernelSharedPml4Index (index 39 virtual.toNat)) then
    pure false
  else mapKernelPath virtual.toNat physical flags

def vmmMapBootstrapPage (p : Phys) : VmProg Bool := do
  let s ← Prog.get
  if p.toNat % pageSize ≠ 0 ∨ p.toNat ≥ 0x100000 ∨ s.bootstrapMappingActive = true then
    return false
  else
    match ← mapKernelOneInternal (UInt64.ofBitVec p) p pteReadwrite true with
    | false => return false
    | true => do
      Prog.modify fun s => { s with bootstrapMappingActive := true }
      return true

def tableEmpty (tables : Tables) (t : Phys) : Prop := ∀ i < 512, ¬ has (tables t i) ptePresent

@[irreducible] instance decidableTableEmpty (tables : Tables) (t : Phys) :
    Decidable (tableEmpty tables t) :=
  Nat.decidableBallLT 512 fun i _ => ¬ has (tables t i) ptePresent

/-- The entries that are cleared, and `free_pdpt`, `free_pd` and `free_pt` as far as they are
set. The last one is taken from `entry`, which is the entry of the page by then. -/
def unlink (tables : Tables) (root : Phys) (a : Nat) : Tables × List Phys :=
  let pdpt := frameOf (pml4e tables root a)
  let pd := frameOf (pdpte tables root a)
  let pt := frameOf (pde tables root a)
  let entry := pte tables root a
  let tables := tables.set pt (index 12 a) 0
  if tableEmpty tables pt then
    let freePt := frameOf entry
    let tables := tables.set pd (index 21 a) 0
    if tableEmpty tables pd then
      let freePd := frameOf (tables pdpt (index 30 a))
      let tables := tables.set pdpt (index 30 a) 0
      if tableEmpty tables pdpt then
        (tables.set root (index 39 a) 0, [frameOf (tables root (index 39 a)), freePd, freePt])
      else (tables, [freePd, freePt])
    else (tables, [freePt])
  else (tables, [])

def noTable (e : Entry) : Prop := ¬ has e ptePresent ∨ has e (pteHuge ||| pteUser)

instance (e : Entry) : Decidable (noTable e) := inferInstanceAs (Decidable (_ ∨ _))

def vmmUnmapBootstrapPage (p : Phys) : VmProg Bool := do
  let s ← Prog.get
  if p.toNat % pageSize ≠ 0 ∨ p.toNat ≥ 0x100000 ∨ s.bootstrapMappingActive = false ∨
      noTable (pml4e s.tables s.kernelPml4 p.toNat) ∨
      noTable (pdpte s.tables s.kernelPml4 p.toNat) ∨ noTable (pde s.tables s.kernelPml4 p.toNat) ∨
      ¬ has (pte s.tables s.kernelPml4 p.toNat) ptePresent ∨
      frameOf (pte s.tables s.kernelPml4 p.toNat) ≠ p then
    return false
  else do
    let unlinked := unlink s.tables s.kernelPml4 p.toNat
    Prog.modify fun s => { s with tables := unlinked.1, bootstrapMappingActive := false }
    pmmFreeFrames (unlinked.2.filter (· ≠ 0))
    return true

/-- The entries on the way from a table to an address that is mapped. -/
def walkFrom (tables : Tables) (a : Nat) : Nat → Phys → Option (List Entry)
  | 0, t => if has (tables t (index 12 a)) ptePresent then some [tables t (index 12 a)] else none
  | level + 1, t =>
    let e := tables t (index (12 + 9 * (level + 1)) a)
    if ¬ has e ptePresent then none
    else if level < 2 ∧ has e pteHuge then some [e]
    else (walkFrom tables a level (frameOf e)).map (e :: ·)

def walk (s : Vm) (a : Nat) : Option (List Entry) := walkFrom s.tables a 3 s.kernelPml4

/-- A table in use, with the number of levels below it. -/
inductive Linked (s : Vm) : Nat → Phys → Prop
  | root : Linked s 3 s.kernelPml4
  | child {level : Nat} {t : Phys} {i : Nat} (h : Linked s (level + 1) t) (hi : i < 512)
      (hpresent : has (s.tables t i) ptePresent)
      (hhuge : level < 2 → ¬ has (s.tables t i) pteHuge) : Linked s level (frameOf (s.tables t i))

/-- The kernel's tables are in use, none of them is empty, and nothing is mapped at the
address. -/
structure Unmapped (s : Vm) (a : Nat) : Prop where
  full : ∀ level t, Linked s level t → ¬ tableEmpty s.tables t
  allocated : ∀ level t, Linked s level t → s.allocated t = true
  free : walk s a = none

/-- What the two calls, the first one from `s` to `m` and the second one from there to `s'`,
should come to. -/
structure GivesBack (s m s' : Vm) (p : Phys) : Prop where
  translations : ∀ a, walk s' a = walk s a
  allocated : s'.allocated = s.allocated
  freed : ∃ fs, s'.freed = s.freed ++ fs ∧
    (∀ f, f ∈ fs ↔ s.allocated f = false ∧ m.allocated f = true) ∧ fs.Nodup ∧ p ∉ fs ∧
    ∀ f ∈ fs, ∀ level, ¬ Linked s' level f

def HasTable (s : Vm) (a : Nat) : Prop :=
  has (pml4e s.tables s.kernelPml4 a) ptePresent ∧ has (pdpte s.tables s.kernelPml4 a) ptePresent ∧
    has (pde s.tables s.kernelPml4 a) ptePresent

lemma index_lt (shift a : Nat) : index shift a < 512 := by
  rw [index_eq]
  exact Nat.mod_lt _ (by decide)

lemma not_has_zero (bits : Entry) : ¬ has 0 bits := by simp [has]

lemma walkFrom_congr {tables tables' : Tables} {a : Nat} (h : ∀ t i, tables' t i = tables t i ∨
      (¬ has (tables t i) ptePresent ∧ ¬ has (tables' t i) ptePresent)) (level : Nat) (t : Phys) :
    walkFrom tables' a level t = walkFrom tables a level t := by
  induction level generalizing t with
  | zero => rcases h t (index 12 a) with heq | ⟨hold, hnew⟩ <;> simp [walkFrom, *]
  | succ level ih =>
    rcases h t (index (12 + 9 * (level + 1)) a) with heq | ⟨hold, hnew⟩ <;> simp [walkFrom, *]

variable {t : Phys}

lemma walkFrom_none {tables : Tables} {a level : Nat} (h : walkFrom tables a (level + 1) t = none)
    (hpresent : has (tables t (index (12 + 9 * (level + 1)) a)) ptePresent) :
    (level < 2 → ¬ has (tables t (index (12 + 9 * (level + 1)) a)) pteHuge) ∧
      walkFrom tables a level (frameOf (tables t (index (12 + 9 * (level + 1)) a))) = none := by
  simp only [walkFrom, hpresent, not_true_eq_false, if_false] at h
  split_ifs at h with hhuge
  exact ⟨fun hlevel hh => hhuge ⟨hlevel, hh⟩, Option.map_eq_none_iff.mp h⟩

/-- The table `c` below entry `i` of `t`, which was there or has been made. -/
structure Child (s s' : Vm) (t : Phys) (i : Nat) (c : Phys) : Prop where
  present : has (s'.tables t i) ptePresent
  frame : frameOf (s'.tables t i) = c
  allocated : s'.allocated c = true
  kept : ∀ g, s.allocated g = true → s'.allocated g = true
  entries : ∀ g j, s.allocated g = true → has (s.tables g j) ptePresent →
    s'.tables g j = s.tables g j
  root : s'.kernelPml4 = s.kernelPml4
  freed : s'.freed = s.freed
  origin : (has (s.tables t i) ptePresent ∧ s' = s) ∨
    (¬ has (s.tables t i) ptePresent ∧ c ≠ 0 ∧ s.allocated c = false ∧ ∀ j, s'.tables c j = 0)

lemma kernelChild_child {s : Vm} {i : Nat} (ht : s.allocated t = true)
    (hc : has (s.tables t i) ptePresent → s.allocated (frameOf (s.tables t i)) = true) :
    wp (kernelChild t i) (fun r s' => ∀ c, r = some c → Child s s' t i c) (fun _ _ => False) s := by
  refine wp_get_bind.mpr ?_
  by_cases hpresent : has (s.tables t i) ptePresent
  · rw [if_pos hpresent]
    refine wp_pure.mpr fun c hr => ?_
    split at hr
    · cases hr
    · obtain rfl := Option.some.inj hr
      exact ⟨hpresent, rfl, hc hpresent, fun _ h => h, fun _ _ _ _ => rfl, rfl, rfl,
        .inl ⟨hpresent, rfl⟩⟩
  · rw [if_neg hpresent, wp_bind]
    unfold wp pmmAllocFrame
    cases hsupply : s.supply 0 with
    | none => exact fun c hr => nomatch hr
    | some f =>
      dsimp only
      split_ifs with hf
      · rintro c hr
        obtain rfl := Option.some.inj hr
        have hne : t ≠ f := fun h => by rw [h, hf.2] at ht; cases ht
        have hentry : ((s.tables.clear f).set t i (f ||| (ptePresent ||| pteReadwrite))) t i =
            f ||| (ptePresent ||| pteReadwrite) := Tables.set_same ..
        refine ⟨?_, ?_, if_pos rfl, fun g hg => ?_, fun g j hg hj => ?_, rfl, rfl,
          .inr ⟨hpresent, hf.1.1, hf.2, fun j => ?_⟩⟩
        · change has ((s.tables.clear f).set t i _ t i) ptePresent
          rw [hentry]
          exact has_or.mpr (.inr (by decide))
        · change frameOf ((s.tables.clear f).set t i _ t i) = f
          rw [hentry]
          exact frameOf_or hf.1 (by decide)
        · change (if g = f then true else s.allocated g) = true
          rw [hg, ite_self]
        · have hgf : g ≠ f := fun h => by rw [h, hf.2] at hg; cases hg
          have hslot : ¬ (g = t ∧ j = i) := fun h => hpresent (h.1 ▸ h.2 ▸ hj)
          exact (if_neg hslot).trans (if_neg hgf)
        · exact (if_neg fun h => hne h.1.symm).trans (if_pos rfl)
      · exact fun c hr => nomatch hr

def Chain (s s' : Vm) (a : Nat) (entry : Entry) : Prop :=
  ∃ s₁ s₂ s₃ c₁ c₂ c₃, Child s s₁ s.kernelPml4 (index 39 a) c₁ ∧ Child s₁ s₂ c₁ (index 30 a) c₂ ∧
    Child s₂ s₃ c₂ (index 21 a) c₃ ∧
    s' = { s₃ with tables := s₃.tables.set c₃ (index 12 a) entry }

section

variable {s m s' : Vm} {p : Phys} {a : Nat}

lemma Unmapped.path (h : Unmapped s a) (h4 : has (pml4e s.tables s.kernelPml4 a) ptePresent) :
    Linked s 2 (frameOf (pml4e s.tables s.kernelPml4 a)) ∧
    (has (pdpte s.tables s.kernelPml4 a) ptePresent →
      Linked s 1 (frameOf (pdpte s.tables s.kernelPml4 a)) ∧
      (has (pde s.tables s.kernelPml4 a) ptePresent →
        Linked s 0 (frameOf (pde s.tables s.kernelPml4 a)) ∧
        ¬ has (pte s.tables s.kernelPml4 a) ptePresent)) := by
  obtain ⟨hhuge, hfree⟩ := walkFrom_none h.free h4
  have hlinked := Linked.child .root (index_lt ..) h4 hhuge
  refine ⟨hlinked, fun h3 => ?_⟩
  obtain ⟨hhuge, hfree⟩ := walkFrom_none hfree h3
  have hlinked := Linked.child hlinked (index_lt ..) h3 hhuge
  refine ⟨hlinked, fun h2 => ?_⟩
  obtain ⟨hhuge, hfree⟩ := walkFrom_none hfree h2
  refine ⟨.child hlinked (index_lt ..) h2 hhuge, fun h1 => ?_⟩
  exact Option.some_ne_none _ ((if_pos h1).symm.trans hfree)

lemma mapKernelPath_chain {flags : Entry} (hs : Unmapped s a) : wp (mapKernelPath a p flags)
      (fun r s' => r = true → Chain s s' a (frameOf p ||| flags ||| ptePresent))
      (fun _ _ => False) s := by
  have hpath := hs.path
  have halloc := hs.allocated
  refine wp_get_bind.mpr ?_
  refine (kernelChild_child (halloc _ _ .root) fun h => halloc _ _ (hpath h).1).bind
    fun r1 s1 hr1 => ?_
  cases r1 with
  | none => exact wp_pure.mpr nofun
  | some c1 =>
    have h1 := hr1 c1 rfl
    refine (kernelChild_child h1.allocated fun h => ?_).bind fun r2 s2 hr2 => ?_
    · rcases h1.origin with ⟨hp, rfl⟩ | ⟨-, -, -, hzero⟩
      · rw [← h1.frame] at h ⊢
        exact halloc _ _ ((hpath hp).2 h).1
      · exact absurd h (hzero _ ▸ not_has_zero _)
    cases r2 with
    | none => exact wp_pure.mpr nofun
    | some c2 =>
      have h2 := hr2 c2 rfl
      refine (kernelChild_child h2.allocated fun h => ?_).bind fun r3 s3 hr3 => ?_
      · rcases h2.origin with ⟨hp2, rfl⟩ | ⟨-, -, -, hzero⟩
        · rcases h1.origin with ⟨hp1, rfl⟩ | ⟨-, -, -, hzero⟩
          · rw [← h2.frame, ← h1.frame] at h ⊢
            rw [← h1.frame] at hp2
            exact halloc _ _ (((hpath hp1).2 hp2).2 h).1
          · exact absurd hp2 (hzero _ ▸ not_has_zero _)
        · exact absurd h (hzero _ ▸ not_has_zero _)
      cases r3 with
      | none => exact wp_pure.mpr nofun
      | some c3 => exact fun _ => ⟨s1, s2, s3, c1, c2, c3, h1, h2, hr3 c3 rfl, rfl⟩

lemma vmmMapBootstrapPage_chain (hs : Unmapped s p.toNat) :
    wp (vmmMapBootstrapPage p) (fun r m => r = true →
      ∃ s', Chain s s' p.toNat (frameOf p ||| pteReadwrite ||| ptePresent) ∧
        m = { s' with bootstrapMappingActive := true }) (fun _ _ => False) s := by
  have hinternal : wp (mapKernelOneInternal (UInt64.ofBitVec p) p pteReadwrite true)
      (fun r s' => r = true → Chain s s' p.toNat (frameOf p ||| pteReadwrite ||| ptePresent))
      (fun _ _ => False) s := by
    unfold mapKernelOneInternal
    split
    · exact wp_pure.mpr nofun
    · exact mapKernelPath_chain hs
  refine wp_get_bind.mpr ?_
  split
  · exact wp_pure.mpr nofun
  · refine hinternal.bind fun r s' hr => ?_
    cases r with
    | false => exact wp_pure.mpr nofun
    | true => exact fun _ => ⟨s', hr rfl, rfl⟩

lemma pmmFreeFrames_run (l : List Phys) (s : Vm) : pmmFreeFrames l s = (.ok (), { s with
      allocated := fun g => if g ∈ l then false else s.allocated g
      freed := s.freed ++ l }) := by
  induction l generalizing s with
  | nil => simp [pmmFreeFrames, pure]
  | cons f l ih =>
    refine (ih _).trans ?_
    simp only [List.append_assoc, List.singleton_append, List.mem_cons]
    congr 3
    funext g
    by_cases hl : g ∈ l <;> by_cases hf : g = f <;> simp [hl, hf]

def gone (m : Vm) (p : Phys) : List Phys :=
  (unlink m.tables m.kernelPml4 p.toNat).2.filter (· ≠ 0)

lemma vmmUnmapBootstrapPage_spec : wp (vmmUnmapBootstrapPage p) (fun r s' => r = true →
      frameOf (pte m.tables m.kernelPml4 p.toNat) = p ∧ s' = { m with
        tables := (unlink m.tables m.kernelPml4 p.toNat).1
        bootstrapMappingActive := false
        allocated := fun g => if g ∈ gone m p then false else m.allocated g
        freed := m.freed ++ gone m p }) (fun _ _ => False) m := by
  refine wp_get_bind.mpr ?_
  split_ifs with hbad
  · exact wp_pure.mpr nofun
  · simp only [not_or, not_not] at hbad
    refine wp_modify_bind.mpr (wp_bind.mpr ?_)
    unfold wp
    rw [pmmFreeFrames_run]
    exact fun _ => ⟨hbad.2.2.2.2.2.2.2, rfl⟩

variable {tables : Tables} {i j : Nat}

lemma Tables.set_of_present {t u : Phys} {e : Entry}
    (hi : ¬ has (tables t i) ptePresent) (hj : has (tables u j) ptePresent) :
    tables.set t i e u j = tables u j := by
  refine if_neg ?_
  rintro ⟨rfl, rfl⟩
  exact hi hj

lemma path_set {root t : Phys} {i : Nat} (e : Entry)
    (hi : ¬ has (tables t i) ptePresent) (h4 : has (pml4e tables root a) ptePresent)
    (h3 : has (pdpte tables root a) ptePresent) (h2 : has (pde tables root a) ptePresent) :
    pml4e (tables.set t i e) root a = pml4e tables root a ∧
      pdpte (tables.set t i e) root a = pdpte tables root a ∧
      pde (tables.set t i e) root a = pde tables root a := by
  have e4 : pml4e (tables.set t i e) root a = pml4e tables root a := Tables.set_of_present hi h4
  have e3 : pdpte (tables.set t i e) root a = pdpte tables root a := by
    rw [pdpte, e4]
    exact Tables.set_of_present hi h3
  refine ⟨e4, e3, ?_⟩
  rw [pde, e3]
  exact Tables.set_of_present hi h2

lemma frameOf_set_zero {t u c : Phys} (hc : c ≠ 0)
    (h : c ≠ frameOf (tables u j)) : c ≠ frameOf (tables.set t i 0 u j) := by
  unfold Tables.set
  split
  · simpa [frameOf] using hc
  · exact h

variable (hs : Unmapped s p.toNat) (hmap : vmmMapBootstrapPage p s = (.ok true, m))
  (hunmap : vmmUnmapBootstrapPage p m = (.ok true, s'))

include hs hmap hunmap

lemma givesBack_of_table (htable : HasTable s p.toNat) : GivesBack s m s' p := by
  obtain ⟨_, ⟨s1, s2, s3, c1, c2, c3, h1, h₂, h₃, rfl⟩, hm⟩ :=
    (vmmMapBootstrapPage_chain hs).ok hmap rfl
  obtain ⟨-, hs'⟩ := vmmUnmapBootstrapPage_spec.ok hunmap rfl
  obtain ⟨h4, h3, h2⟩ := htable
  obtain ⟨hlinked, hpte⟩ := ((hs.path h4).2 h3).2 h2
  obtain ⟨-, rfl⟩ := h1.origin.resolve_right fun h => h.1 h4
  obtain rfl := h1.frame
  obtain ⟨-, rfl⟩ := h₂.origin.resolve_right fun h => h.1 h3
  obtain rfl := h₂.frame
  obtain ⟨-, rfl⟩ := h₃.origin.resolve_right fun h => h.1 h2
  obtain ⟨pt, hpt⟩ : ∃ pt, frameOf (pde s3.tables s3.kernelPml4 p.toNat) = pt := ⟨_, rfl⟩
  obtain rfl : pt = c3 := hpt.symm.trans h₃.frame
  rw [pte, hpt] at hpte
  rw [hpt] at hlinked
  have hempty : ¬ tableEmpty (s3.tables.set pt (index 12 p.toNat) 0) pt := fun h =>
    hs.full _ _ hlinked fun i hi hpresent => h i hi (by
      rw [Tables.set_of_present hpte hpresent]
      exact hpresent)
  have hset (e : Entry) : (s3.tables.set pt (index 12 p.toNat) e).set pt (index 12 p.toNat) 0 =
      s3.tables.set pt (index 12 p.toNat) 0 := by
    funext u j
    simp only [Tables.set]
    split_ifs <;> rfl
  have hunlink : unlink m.tables m.kernelPml4 p.toNat =
      (s3.tables.set pt (index 12 p.toNat) 0, []) := by
    rw [hm]
    obtain ⟨e4, e3, e2⟩ := path_set (frameOf p ||| pteReadwrite ||| ptePresent) hpte h4 h3 h2
    simp only [unlink, e4, e3, e2, hpt, hset]
    rw [if_neg hempty]
  have hgone : gone m p = [] := by rw [gone, hunlink, List.filter_nil]
  refine ⟨fun a => ?_, ?_, [], ?_, fun f => ?_, List.nodup_nil, List.not_mem_nil, by simp⟩
  · have htables : s'.tables = s3.tables.set pt (index 12 p.toNat) 0 := by rw [hs', hunlink]
    have hroot : s'.kernelPml4 = s3.kernelPml4 := by rw [hs', hm]
    rw [walk, walk, htables, hroot]
    refine walkFrom_congr (fun t i => ?_) 3 _
    by_cases hslot : t = pt ∧ i = index 12 p.toNat
    · obtain ⟨rfl, rfl⟩ := hslot
      exact .inr ⟨hpte, by rw [Tables.set_same]; exact not_has_zero _⟩
    · exact .inl (if_neg hslot)
  · rw [hs', hgone, hm]
    simp
  · rw [hs', hgone, hm]
  · rw [hm]
    simp

lemma not_givesBack (htable : ¬ HasTable s p.toNat) : ¬ GivesBack s m s' p := by
  obtain ⟨_, ⟨s1, s2, s3, c1, c2, c3, h1, h2, h3, rfl⟩, hm⟩ :=
    (vmmMapBootstrapPage_chain hs).ok hmap rfl
  obtain ⟨hentry, hs'⟩ := vmmUnmapBootstrapPage_spec.ok hunmap rfl
  have hroot1 := h1.kept _ (hs.allocated _ _ .root)
  have hroot2 := h2.kept _ hroot1
  have hc1 := h2.kept _ h1.allocated
  obtain ⟨-, hne, hnew, hzero⟩ := h3.origin.resolve_left fun ⟨hp3, h32⟩ => by
    rcases h2.origin with ⟨hp2, rfl⟩ | ⟨-, -, -, hzero⟩
    · rcases h1.origin with ⟨hp1, rfl⟩ | ⟨-, -, -, hzero⟩
      · refine htable ⟨hp1, ?_, ?_⟩
        · rwa [← h1.frame] at hp2
        · rwa [← h2.frame, ← h1.frame] at hp3
      · exact not_has_zero _ (hzero _ ▸ hp2)
    · exact not_has_zero _ (hzero _ ▸ hp3)
  have hother {g : Phys} (hg : s2.allocated g = true) : g ≠ c3 := fun h => by
    rw [h, hnew] at hg
    cases hg
  have htables : m.tables = s3.tables.set c3 (index 12 p.toNat)
      (frameOf p ||| pteReadwrite ||| ptePresent) := by rw [hm]
  have hroot : m.kernelPml4 = s.kernelPml4 := by rw [hm, ← h1.root, ← h2.root, ← h3.root]
  have e4 : frameOf (pml4e m.tables m.kernelPml4 p.toNat) = c1 := by
    have hp2 := h2.entries _ _ hroot1 h1.present
    rw [pml4e, htables, hroot, Tables.set_of_ne (hother hroot2),
      h3.entries _ _ hroot2 (hp2 ▸ h1.present), hp2, h1.frame]
  have e3 : frameOf (pdpte m.tables m.kernelPml4 p.toNat) = c2 := by
    rw [pdpte, e4, htables, Tables.set_of_ne (hother hc1), h3.entries _ _ hc1 h2.present, h2.frame]
  have e2 : frameOf (pde m.tables m.kernelPml4 p.toNat) = c3 := by
    rw [pde, e3, htables, Tables.set_of_ne (hother h2.allocated), h3.frame]
  have hempty : tableEmpty (m.tables.set c3 (index 12 p.toNat) 0) c3 := fun j _ => by
    rcases Tables.set_cases m.tables c3 (index 12 p.toNat) j 0 with hj | ⟨hj, heq⟩
    · rw [hj]
      exact not_has_zero _
    · rw [heq, htables, Tables.set, if_neg fun h => hj h.2, hzero]
      exact not_has_zero _
  obtain ⟨l, hl, hnot⟩ : ∃ l, (unlink m.tables m.kernelPml4 p.toNat).2 = l ++ [p] ∧ c3 ∉ l := by
    have hc2 : c3 ≠ frameOf (m.tables c1 (index 30 p.toNat)) := by
      rw [← e4]
      exact (e3 ▸ hother h2.allocated).symm
    have hc1' := (e4 ▸ hother hc1).symm
    simp only [unlink, e4, e3, e2, hentry]
    rw [if_pos hempty]
    split_ifs
    · refine ⟨[_, _], rfl, ?_⟩
      rw [List.mem_pair, not_or]
      exact ⟨frameOf_set_zero hne (frameOf_set_zero hne (frameOf_set_zero hne hc1')),
        frameOf_set_zero hne (frameOf_set_zero hne hc2)⟩
    · refine ⟨[_], rfl, ?_⟩
      rw [List.mem_singleton]
      exact frameOf_set_zero hne (frameOf_set_zero hne hc2)
    · exact ⟨[], rfl, List.not_mem_nil⟩
  have hgone : gone m p = (l ++ [p]).filter (· ≠ 0) := by rw [gone, hl]
  rintro ⟨-, hallocated, fs, hfreed, -, -, hp, -⟩
  have hfreed' : m.freed = s.freed := by rw [hm, ← h1.freed, ← h2.freed, ← h3.freed]
  rw [hs', hfreed'] at hfreed
  obtain rfl := List.append_cancel_left hfreed
  rw [hgone] at hp
  have hp0 : p = 0 := by
    by_contra hp0
    exact hp (List.mem_filter.mpr ⟨by simp, decide_eq_true hp0⟩)
  have hstays : s'.allocated c3 = true := by
    have hmem : c3 ∉ gone m p := by
      rw [hgone]
      simp [hp0, hnot]
    rw [hs', hm] at *
    exact (if_neg hmem).trans h3.allocated
  rw [hallocated] at hstays
  exact hother (h2.kept _ (h1.kept _ hstays)) rfl

end

/-- The mapping is taken back without a trace if and only if the page table was there before.
Otherwise the frame of the new page table stays allocated, and the page is given back. -/
theorem bootstrap_gives_back_iff {s m s' : Vm} {p : Phys} (hs : Unmapped s p.toNat)
    (hmap : vmmMapBootstrapPage p s = (.ok true, m))
    (hunmap : vmmUnmapBootstrapPage p m = (.ok true, s')) :
    GivesBack s m s' p ↔ HasTable s p.toNat :=
  ⟨fun h => by_contra fun htable => not_givesBack hs hmap hunmap htable h,
    givesBack_of_table hs hmap hunmap⟩

/-- A kernel with nothing but a direct map of one huge page, and frame 8 reserved. -/
def directMapVm : Vm where
  tables t i :=
    if t = 0x200000 ∧ i = 256 then 0x201003
    else if t = 0x201000 ∧ i = 0 then 0x83
    else 0
  allocated f := f = 0x200000 ∨ f = 0x201000 ∨ f = 0x8000
  freed := []
  kernelPml4 := 0x200000
  metadata _ := none
  bootstrapMappingActive := false
  supply n := some (0x300000 + BitVec.ofNat 64 n * 0x1000)
  chances _ := true

lemma directMap_linked {level : Nat} (h : Linked directMapVm level t) :
    (level = 3 ∧ t = 0x200000) ∨ (level = 2 ∧ t = 0x201000) := by
  induction h with
  | root => exact .inl ⟨rfl, rfl⟩
  | @child level t i _ hi hpresent hhuge ih =>
    rcases ih with ⟨hlevel, rfl⟩ | ⟨hlevel, rfl⟩
    · by_cases h256 : i = 256
      · subst h256
        exact .inr ⟨by omega, by decide⟩
      · simp [directMapVm, h256] at hpresent
        exact absurd hpresent (not_has_zero _)
    · by_cases h0 : i = 0
      · subst h0
        exact absurd (by decide) (hhuge (by omega))
      · simp [directMapVm, h0] at hpresent
        exact absurd hpresent (not_has_zero _)

lemma directMap_unmapped : Unmapped directMapVm 0x8000 where
  full level t h hempty := by
    rcases directMap_linked h with ⟨-, rfl⟩ | ⟨-, rfl⟩
    · exact hempty 256 (by decide) (by decide)
    · exact hempty 0 (by decide) (by decide)
  allocated level t h := by rcases directMap_linked h with ⟨-, rfl⟩ | ⟨-, rfl⟩ <;> decide
  free := by decide +kernel

def mappedVm : Vm := (vmmMapBootstrapPage 0x8000 directMapVm).2

def unmappedVm : Vm := (vmmUnmapBootstrapPage 0x8000 mappedVm).2

lemma run_of_toOption {x : VmProg Bool} {s : Vm} (h : (x s).1.toOption = some true) :
    x s = (.ok true, (x s).2) := by
  rcases hx : x s with ⟨_ | r, s'⟩ <;> rw [hx] at h
  · cases h
  · rw [Option.some.inj h]

lemma directMap_map : vmmMapBootstrapPage 0x8000 directMapVm = (.ok true, mappedVm) :=
  run_of_toOption (by decide +kernel)

lemma directMap_unmap : vmmUnmapBootstrapPage 0x8000 mappedVm = (.ok true, unmappedVm) :=
  run_of_toOption (by decide +kernel)

/-- The same kernel with the tables for the first 2 MiB, in which page 9 is mapped. -/
def tabledVm : Vm where
  __ := directMapVm
  tables t i :=
    if t = 0x200000 ∧ i = 0 then 0x202003
    else if t = 0x202000 ∧ i = 0 then 0x203003
    else if t = 0x203000 ∧ i = 0 then 0x204003
    else if t = 0x204000 ∧ i = 9 then 0x9003
    else directMapVm.tables t i
  allocated f := directMapVm.allocated f || f = 0x202000 || f = 0x203000 || f = 0x204000

lemma tabled_linked {level : Nat} (h : Linked tabledVm level t) :
    (level = 3 ∧ t = 0x200000) ∨ (level = 2 ∧ t = 0x201000) ∨ (level = 2 ∧ t = 0x202000) ∨
      (level = 1 ∧ t = 0x203000) ∨ (level = 0 ∧ t = 0x204000) := by
  induction h with
  | root => exact .inl ⟨rfl, rfl⟩
  | @child level t i _ hi hpresent hhuge ih =>
    rcases ih with ⟨hlevel, rfl⟩ | ⟨hlevel, rfl⟩ | ⟨hlevel, rfl⟩ | ⟨hlevel, rfl⟩ | ⟨hlevel, rfl⟩
    · by_cases h256 : i = 256
      · subst h256
        exact .inr (.inl ⟨by omega, by decide⟩)
      · by_cases h0 : i = 0
        · subst h0
          exact .inr (.inr (.inl ⟨by omega, by decide⟩))
        · simp [tabledVm, directMapVm, h256, h0] at hpresent
          exact absurd hpresent (not_has_zero _)
    · by_cases h0 : i = 0
      · subst h0
        exact absurd (by decide) (hhuge (by omega))
      · simp [tabledVm, directMapVm, h0] at hpresent
        exact absurd hpresent (not_has_zero _)
    · by_cases h0 : i = 0
      · subst h0
        exact .inr (.inr (.inr (.inl ⟨by omega, by decide⟩)))
      · simp [tabledVm, directMapVm, h0] at hpresent
        exact absurd hpresent (not_has_zero _)
    · by_cases h0 : i = 0
      · subst h0
        exact .inr (.inr (.inr (.inr ⟨by omega, by decide⟩)))
      · simp [tabledVm, directMapVm, h0] at hpresent
        exact absurd hpresent (not_has_zero _)
    · omega

lemma tabled_unmapped : Unmapped tabledVm 0x8000 where
  full level t h hempty := by
    rcases tabled_linked h with ⟨-, rfl⟩ | ⟨-, rfl⟩ | ⟨-, rfl⟩ | ⟨-, rfl⟩ | ⟨-, rfl⟩
    · exact hempty 256 (by decide) (by decide)
    · exact hempty 0 (by decide) (by decide)
    · exact hempty 0 (by decide) (by decide)
    · exact hempty 0 (by decide) (by decide)
    · exact hempty 9 (by decide) (by decide)
  allocated level t h := by
    rcases tabled_linked h with ⟨-, rfl⟩ | ⟨-, rfl⟩ | ⟨-, rfl⟩ | ⟨-, rfl⟩ | ⟨-, rfl⟩ <;> decide
  free := by decide +kernel

def tabledMapped : Vm := (vmmMapBootstrapPage 0x8000 tabledVm).2

def tabledUnmapped : Vm := (vmmUnmapBootstrapPage 0x8000 tabledMapped).2

/-- With the page table in place nothing is freed; without it the wrong frame is. -/
theorem bootstrap_gives_back_tabled :
    GivesBack tabledVm tabledMapped tabledUnmapped 0x8000 ∧
      ¬ GivesBack directMapVm mappedVm unmappedVm 0x8000 := by
  have hmap : vmmMapBootstrapPage 0x8000 tabledVm = (.ok true, tabledMapped) :=
    run_of_toOption (by decide +kernel)
  have hunmap : vmmUnmapBootstrapPage 0x8000 tabledMapped = (.ok true, tabledUnmapped) :=
    run_of_toOption (by decide +kernel)
  have htable : HasTable tabledVm (0x8000 : Phys).toNat :=
    ⟨by decide +kernel, by decide +kernel, by decide +kernel⟩
  refine ⟨(bootstrap_gives_back_iff tabled_unmapped hmap hunmap).mpr htable, fun h => ?_⟩
  exact absurd ((bootstrap_gives_back_iff directMap_unmapped directMap_map
    directMap_unmap).mp h).1 (by decide)

/-- The frame of the page itself goes to the allocator, and the page table stays. -/
theorem bootstrap_page_given_back : ∃ s m s' p, Unmapped s p.toNat ∧
    vmmMapBootstrapPage p s = (.ok true, m) ∧ vmmUnmapBootstrapPage p m = (.ok true, s') ∧
    s'.freed = [0x300000, 0x301000, p] ∧ s'.allocated 0x302000 = true ∧ ¬ GivesBack s m s' p :=
  ⟨directMapVm, mappedVm, unmappedVm, 0x8000, directMap_unmapped, directMap_map, directMap_unmap,
    by decide +kernel, by decide +kernel,
    not_givesBack directMap_unmapped directMap_map directMap_unmap
      fun h => absurd h.1 (by decide)⟩

end Mangrove.Vmm
