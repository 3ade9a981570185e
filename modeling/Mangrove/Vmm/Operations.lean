import Mangrove.Vmm.AddressSpace

/-! What each operation on address spaces does to the owners of frames: a failed user
mapping nothing, a successful one makes a leaf and turns reserve into tables. -/

namespace Mangrove.Vmm

open Prog (wp wp_bind wp_get_bind wp_modify wp_modify_bind wp_pure)

variable {P : Entry → Prop}

/-- Nothing but the answers of the allocator still to come has changed. -/
structure Quiet (s s' : Vm) : Prop where
  tables : s'.tables = s.tables
  allocated : s'.allocated = s.allocated
  freed : s'.freed = s.freed
  kernelPml4 : s'.kernelPml4 = s.kernelPml4
  metadata : s'.metadata = s.metadata

lemma Quiet.refl (s : Vm) : Quiet s s := ⟨rfl, rfl, rfl, rfl, rfl⟩

lemma Quiet.trans {s t u : Vm} (h : Quiet s t) (h' : Quiet t u) : Quiet s u :=
  ⟨h'.tables.trans h.tables, h'.allocated.trans h.allocated, h'.freed.trans h.freed,
    h'.kernelPml4.trans h.kernelPml4, h'.metadata.trans h.metadata⟩

lemma Owned.quiet {s s' : Vm} {owner : Owners} (h : Owned P s owner) (hq : Quiet s s') :
    Owned P s' owner :=
  h.recontent ⟨hq.allocated, hq.kernelPml4⟩ hq.metadata fun u o _ hold => by
    rw [hq.tables]
    exact hold

/-- One frame was taken from the allocator. -/
structure Taken (s s' : Vm) (f : Phys) : Prop where
  empty : ∀ j, s'.tables f j = 0
  tables : ∀ t, t ≠ f → s'.tables t = s.tables t
  freed : s'.freed = s.freed
  kernelPml4 : s'.kernelPml4 = s.kernelPml4
  metadata : s'.metadata = s.metadata

section

variable {s : Vm} {owner : Owners}

lemma pmmAllocFrame_spec (h : Owned P s owner) : wp pmmAllocFrame (fun r s' =>
      (r = none ∧ Quiet s s') ∨
        ∃ f, r = some f ∧ owner f = none ∧ Taken s s' f ∧ Owned P s' (owner.set f (some .held)))
      (fun _ _ => False) s := by
  unfold wp pmmAllocFrame
  cases hs : s.supply 0 with
  | none => exact .inl ⟨rfl, rfl, rfl, rfl, rfl, rfl⟩
  | some f =>
    dsimp only
    split
    next a s' heq =>
      split at heq
      · next hf =>
        cases heq
        have hnone := h.not_allocated hf.2
        refine .inr ⟨f, rfl, hnone, ⟨fun j => ?_, fun t ht => ?_, rfl, rfl, rfl⟩, ?_⟩
        · simp [Tables.clear]
        · funext j
          simp [Tables.clear, ht]
        · refine h.loose (.inl hnone) (.inr rfl) (fun _ => hf.1) (fun g => ?_) (fun t ht => ?_) rfl rfl
          · simp
          · funext j
            simp [Tables.clear, ht]
      · cases heq
        exact .inl ⟨rfl, rfl, rfl, rfl, rfl, rfl⟩
    next e s' heq =>
      split at heq <;> cases heq

lemma chance_spec {Q : Bool → Vm → Prop} {E : Panic → Vm → Prop}
    (h : ∀ b s', Quiet s s' → Q b s') : wp chance Q E s :=
  h _ _ ⟨rfl, rfl, rfl, rfl, rfl⟩

instance : LawfulBEq Phys := inferInstance

def Owners.release (owner : Owners) (l : List Phys) : Owners :=
  fun g => if g ∈ l then none else owner g

lemma release_nil (owner : Owners) : owner.release [] = owner := by
  funext g
  simp [Owners.release]

lemma release_cons (owner : Owners) (f : Phys) (l : List Phys) :
    owner.release (f :: l) = (owner.set f none).release l := by
  funext g
  by_cases hl : g ∈ l
  · simp [Owners.release, hl]
  · by_cases hg : g = f
    · simp [Owners.release, Owners.set, hg]
    · simp [Owners.release, Owners.set, hl, hg]

/-- These frames were given back to it. -/
structure Released (s s' : Vm) (l : List Phys) : Prop where
  tables : s'.tables = s.tables
  freed : s'.freed = s.freed ++ l
  kernelPml4 : s'.kernelPml4 = s.kernelPml4
  metadata : s'.metadata = s.metadata

lemma pmmFreeFrame_spec {f : Phys} (h : Owned P s owner) (hf : owner f = some .held) :
    wp (pmmFreeFrame f) (fun _ s' => Released s s' [f] ∧ Owned P s' (owner.set f none))
      (fun _ _ => False) s := by
  refine wp_modify.mpr ⟨⟨rfl, rfl, rfl, rfl⟩, ?_⟩
  refine h.loose (.inr hf) (.inl rfl) (fun hne => absurd rfl hne) (fun g => ?_) (fun t ht => rfl)
    rfl rfl
  simp

lemma pmmFreeFrames_spec {l : List Phys} (h : Owned P s owner)
    (hl : ∀ f ∈ l, owner f = some .held) (hnodup : l.Nodup) :
    wp (pmmFreeFrames l) (fun _ s' => Released s s' l ∧ Owned P s' (owner.release l))
      (fun _ _ => False) s := by
  induction l generalizing s owner with
  | nil =>
    refine wp_pure.mpr ⟨⟨rfl, (List.append_nil _).symm, rfl, rfl⟩, ?_⟩
    rw [release_nil]
    exact h
  | cons f l ih =>
    rw [List.nodup_cons] at hnodup
    rw [List.forall_mem_cons] at hl
    refine (pmmFreeFrame_spec h hl.1).bind fun _ s1 ⟨hr, howned⟩ => ?_
    have hheld : ∀ g ∈ l, owner.set f none g = some .held := by
      intro g hg
      have hgf : g ≠ f := by
        rintro rfl
        exact hnodup.1 hg
      rw [Owners.set_of_ne hgf]
      exact hl.2 g hg
    refine (ih howned hheld hnodup.2).mono (fun _ s2 ⟨hr', howned'⟩ => ⟨?_, ?_⟩) fun _ _ he => he
    · refine ⟨hr'.tables.trans hr.tables, ?_, hr'.kernelPml4.trans hr.kernelPml4,
        hr'.metadata.trans hr.metadata⟩
      rw [hr'.freed, hr.freed, List.append_assoc, List.singleton_append]
    · rw [release_cons]
      exact howned'

end

section

variable {s s₀ : Vm} {base : Owners} {l : List Phys}

def Owners.hold (base : Owners) (l : List Phys) : Owners :=
  fun g => if g ∈ l then some .held else base g

lemma hold_nil (base : Owners) : base.hold [] = base := by
  funext g
  simp [Owners.hold]

lemma hold_append (base : Owners) (l : List Phys) (f : Phys) :
    (base.hold l).set f (some .held) = base.hold (l ++ [f]) := by
  funext g
  by_cases hg : g = f
  · simp [Owners.hold, Owners.set, hg]
  · by_cases hl : g ∈ l <;> simp [Owners.hold, Owners.set, hg, hl]

lemma release_hold (h : ∀ f ∈ l, base f = none) : (base.hold l).release l = base := by
  funext g
  by_cases hl : g ∈ l
  · simp [Owners.release, hl, h g hl]
  · simp [Owners.release, Owners.hold, hl]

/-- The frames of `l` were taken since `s₀` and are empty; the tables and spaces
of `s₀` are as they were. -/
structure Reserved (P : Entry → Prop) (base : Owners) (s₀ s : Vm) (l : List Phys) : Prop where
  owned : Owned P s (base.hold l)
  free : ∀ f ∈ l, base f = none
  nodup : l.Nodup
  empty : ∀ f ∈ l, ∀ j, s.tables f j = 0
  tables : ∀ t, base t ≠ none → s.tables t = s₀.tables t
  kernelPml4 : s.kernelPml4 = s₀.kernelPml4
  metadata : s.metadata = s₀.metadata

lemma Reserved.start (h : Owned P s base) (hq : Quiet s₀ s) : Reserved P base s₀ s [] :=
  ⟨by rwa [hold_nil], by simp, List.nodup_nil, by simp, fun t _ => by rw [hq.tables],
    hq.kernelPml4, hq.metadata⟩

section

variable (h : Reserved P base s₀ s l)

include h

lemma Reserved.quiet {s' : Vm} (hq : Quiet s s') : Reserved P base s₀ s' l := by
  refine ⟨h.owned.quiet hq, h.free, h.nodup, ?_, ?_, hq.kernelPml4.trans h.kernelPml4,
    hq.metadata.trans h.metadata⟩
  · rw [hq.tables]
    exact h.empty
  · rw [hq.tables]
    exact h.tables

lemma Reserved.take {s' : Vm} {f : Phys} (hf : base.hold l f = none) (ht : Taken s s' f)
    (howned : Owned P s' ((base.hold l).set f (some .held))) : Reserved P base s₀ s' (l ++ [f]) := by
  have hfl : f ∉ l := by
    intro hfl
    simp [Owners.hold, hfl] at hf
  have hfree : base f = none := by simpa [Owners.hold, hfl] using hf
  refine ⟨hold_append base l f ▸ howned, ?_, ?_, ?_, fun t hb => ?_, ht.kernelPml4.trans h.kernelPml4,
    ht.metadata.trans h.metadata⟩
  · intro g hg
    rcases List.mem_append.mp hg with hg | hg
    · exact h.free g hg
    · rw [List.mem_singleton.mp hg]
      exact hfree
  · rw [List.nodup_append]
    exact ⟨h.nodup, List.nodup_singleton f, by
      intro a ha b hb
      rw [List.mem_singleton.mp hb]
      rintro rfl
      exact hfl ha⟩
  · intro g hg
    rcases List.mem_append.mp hg with hg | hg
    · rw [ht.tables g (fun hgf => hfl (hgf ▸ hg))]
      exact h.empty g hg
    · rw [List.mem_singleton.mp hg]
      exact ht.empty
  · have htf : t ≠ f := by
      rintro rfl
      exact hb hfree
    rw [ht.tables t htf, h.tables t hb]

lemma Reserved.giveBack :
    wp (pmmFreeFrames l) (fun _ s' => Owned P s' base) (fun _ _ => False) s := by
  refine (pmmFreeFrames_spec h.owned ?_ h.nodup).mono (fun _ s' hs' => ?_) fun _ _ he => he
  · intro f hf
    simp [Owners.hold, hf]
  · rw [← release_hold h.free]
    exact hs'.2

variable {E : Panic → Vm → Prop} {Q : Bool → Vm → Prop}

lemma Reserved.failWith
    (hfail : ∀ s', Owned P s' base → Q false s') :
    wp (do pmmFreeFrames l; return false) Q E s :=
  (h.giveBack.mono (fun _ _ hs => hs) fun _ _ he => he.elim).bind fun _ s' hs' => hfail s' hs'

lemma reserveTable_spec {go : Phys → VmProg Bool}
    (hgo : ∀ f s', Reserved P base s₀ s' (l ++ [f]) → wp (go f) Q E s')
    (hfail : ∀ s', Owned P s' base → Q false s') : wp (reserveTable l go) Q E s := by
  refine ((pmmAllocFrame_spec h.owned).mono (fun _ _ hq => hq) fun _ _ he => he.elim).bind
    fun r s1 hr => ?_
  rcases hr with ⟨rfl, hq⟩ | ⟨f, rfl, hf, ht, howned⟩
  · exact (h.quiet hq).failWith hfail
  · have hres := h.take hf ht howned
    refine wp_bind.mpr (chance_spec fun node s2 hq => ?_)
    cases node with
    | true => exact hgo f s2 (hres.quiet hq)
    | false => exact (hres.quiet hq).failWith hfail

end

end

/-- The owners while a branch grows: `left` are the frames taken and not yet linked, and the others
are as before or tables of the root. -/
structure Growing (root : Phys) (base owner : Owners) (left : List Phys) : Prop where
  nodup : left.Nodup
  reserve : ∀ f ∈ left, base f = none ∧ owner f = some .held
  other : ∀ f, f ∉ left → owner f = base f ∨ base f = none ∧ ∃ l, owner f = some (.table root l)

/-- The mapped frame is a leaf of `root`; other frames keep their owner or were
free and are tables of `root`. -/
structure Mapped (root physical : Phys) (base owner : Owners) : Prop where
  leaf : owner physical = some (.leaf root)
  other : ∀ f, f ≠ physical →
    owner f = base f ∨ base f = none ∧ ∃ l, owner f = some (.table root l)

/-- An address space whose branch is growing, with the frames still left for it. -/
structure Grown (P : Entry → Prop) (base : Owners) (slot : Fin 64) (root : Phys) (s : Vm) (owner : Owners)
    (left : List Phys) : Prop where
  owned : Owned P s owner
  space : ∃ space, s.metadata slot = some space ∧ space.root = root
  growing : Growing root base owner left
  empty : ∀ f ∈ left, ∀ j, s.tables f j = 0

section

variable {s : Vm} {base owner : Owners} {slot : Fin 64} {root parent : Phys} {l i : Nat}
  {pre post : List Phys} {r : Phys}

lemma Growing.link (h : Growing root base owner (pre ++ r :: post)) :
    Growing root base (owner.set r (some (.table root l))) (pre ++ post) := by
  have hnodup := h.nodup
  rw [List.nodup_middle, List.nodup_cons] at hnodup
  have hmem (f : Phys) : f ∈ pre ++ r :: post ↔ f = r ∨ f ∈ pre ++ post := by
    simp only [List.mem_append, List.mem_cons]
    tauto
  refine ⟨hnodup.2, fun f hf => ?_, fun f hf => ?_⟩
  · have hfr : f ≠ r := by
      rintro rfl
      exact hnodup.1 hf
    rw [Owners.set_of_ne hfr]
    exact h.reserve f ((hmem f).mpr (.inr hf))
  · by_cases hfr : f = r
    · subst hfr
      exact .inr ⟨(h.reserve f ((hmem f).mpr (.inl rfl))).1, l, Owners.set_same _ _ _⟩
    · rw [Owners.set_of_ne hfr]
      exact h.other f fun hmem' => ((hmem f).mp hmem').elim hfr hf

lemma Above.entry (h : Above owner root parent l i) (howned : Owned P s owner) :
    UserEntry owner root l (s.tables parent i) := by
  rcases h with ⟨rfl, hroot, rfl, hi⟩ | ⟨htable, hl⟩
  · exact (howned.content _ _ hroot).1 i hi
  · exact (howned.content _ _ htable).1 hl i

lemma userChildReserved_spec
    (h : Grown P base slot root s owner (pre ++ r :: post)) (hp : Above owner root parent l i) :
    wp (userChildReserved slot parent i r) (fun res s' =>
      ∃ owner' child, res.1 = some child ∧ owner' child = some (.table root (l - 1)) ∧
        Grown P base slot root s' owner' (pre ++ (res.2 ++ post))) (fun _ _ => False) s := by
  obtain ⟨space, hslot, rfl⟩ := h.space
  have hr : owner r = some .held := (h.growing.reserve r (by simp)).2
  refine wp_get_bind.mpr ?_
  simp only [hslot]
  rcases hp.entry h.owned with hzero | ⟨hlink, hchild⟩
  · rw [hzero, if_neg (by decide)]
    have hempty := h.empty r (by simp)
    have howned : Owned P { s with
        metadata := replaceSlot s.metadata slot (some { space with tables := r :: space.tables })
        tables := s.tables.set parent i (r ||| (ptePresent ||| pteReadwrite ||| pteUser)) }
        (owner.set r (some (.table space.root (l - 1)))) :=
      h.owned.linkTable hslot hp hr hempty ⟨rfl, rfl⟩ rfl rfl
    refine ⟨_, r, rfl, Owners.set_same _ _ _, howned, ⟨_, if_pos rfl, rfl⟩, h.growing.link,
      fun f hf j => ?_⟩
    have hmem : f ∈ pre ++ r :: post := by
      rcases List.mem_append.mp hf with hf | hf
      · simp [hf]
      · exact List.mem_append_right _ (List.mem_cons_of_mem _ hf)
    have hfp := hp.ne_held (h.growing.reserve f hmem).2
    exact (Tables.set_of_ne hfp.symm).trans (h.empty f hmem j)
  · rw [if_pos hlink.present, if_pos]
    · exact ⟨owner, _, rfl, hchild, h⟩
    · exact ⟨hlink.user, hlink.not_huge,
        ((h.owned.spaces slot space hslot).mem_tables _).mpr ⟨_, hchild⟩⟩

variable {left : List Phys} {physical : Phys}

lemma Grown.mapped_held (h : Grown P base slot root s owner left) (hp : base physical = some .held) :
    owner physical = some .held ∧ physical ∉ left := by
  have hnot : physical ∉ left := fun hmem => by
    simp [(h.growing.reserve physical hmem).1] at hp
  rcases h.growing.other physical hnot with heq | ⟨hnone, -⟩
  · exact ⟨heq.trans hp, hnot⟩
  · simp [hnone] at hp

/-- The entry by which a frame is mapped. -/
def leafEntry (physical : Phys) (flags : Entry) : Entry :=
  physical ||| flags ||| pteUser ||| ptePresent

def MapsHeld (P : Entry → Prop) (root physical : Phys) (flags : Entry) (base : Owners) (s' : Vm) : Prop :=
  base physical = some .held → P (leafEntry physical flags) →
    ∃ owner', Owned P s' owner' ∧ Mapped root physical base owner'

lemma pmmFreeFrames_returns (l : List Phys) (s : Vm) :
    wp (pmmFreeFrames l) (fun _ _ => True) (fun _ _ => False) s := by
  induction l generalizing s with
  | nil => trivial
  | cons f l ih => exact wp_modify_bind.mpr (ih _)

variable {pt : Phys} {virtual : Nat} {flags before : Entry}

lemma linkLeaf_returns {space : Space} (hslot : s.metadata slot = some space) :
    wp (linkLeaf slot pt virtual physical flags before left) (fun r _ => r = true)
      (fun _ _ => True) s := by
  refine wp_get_bind.mpr ?_
  simp only [hslot]
  refine wp_modify_bind.mpr (wp_modify_bind.mpr ?_)
  refine wp_get_bind.mpr ?_
  split
  · trivial
  · exact ((pmmFreeFrames_returns left _).mono (fun _ _ hs => hs) fun _ _ he => he.elim).bind
      fun _ _ _ => rfl

lemma linkLeaf_held (h : Grown P base slot root s owner left)
    (hpt : owner pt = some (.table root 1)) (hp : base physical = some .held)
    (he : P (leafEntry physical flags)) :
    wp (linkLeaf slot pt virtual physical flags before left) (fun r s' =>
      r = true ∧ ∃ owner', Owned P s' owner' ∧ Mapped root physical base owner')
      (fun _ _ => True) s := by
  obtain ⟨space, hslot, rfl⟩ := h.space
  obtain ⟨hheld, hleft⟩ := h.mapped_held hp
  have hframe := (h.owned.frame physical (by simp [hheld])).2.1
  refine wp_get_bind.mpr ?_
  simp only [hslot, hframe]
  have howned : Owned P { s with
      metadata := replaceSlot s.metadata slot (some { space with leaves := physical :: space.leaves })
      tables := s.tables.set pt (index 12 virtual) (physical ||| flags ||| pteUser ||| ptePresent) }
      (owner.set physical (some (.leaf space.root))) :=
    h.owned.linkLeaf hslot hpt hheld he ⟨rfl, rfl⟩ rfl rfl
  refine wp_modify_bind.mpr (wp_modify_bind.mpr ?_)
  refine wp_get_bind.mpr ?_
  split
  · trivial
  · have hleft' : ∀ f ∈ left, owner.set physical (some (.leaf space.root)) f = some .held := by
      intro f hf
      have hne : f ≠ physical := by
        rintro rfl
        exact hleft hf
      rw [Owners.set_of_ne hne]
      exact (h.growing.reserve f hf).2
    refine ((pmmFreeFrames_spec howned hleft' h.growing.nodup).mono (fun _ _ hs => hs)
      fun _ _ he => he.elim).bind fun _ s' hs' => ?_
    refine ⟨rfl, _, hs'.2, ?_, fun f hf => ?_⟩
    · simp [Owners.release, hleft, Owners.set_same]
    · by_cases hl : f ∈ left
      · exact .inl (by simp [Owners.release, hl, (h.growing.reserve f hl).1])
      · simpa [Owners.release, hl, Owners.set_of_ne hf] using h.growing.other f hl

lemma linkLeaf_spec (h : Grown P base slot root s owner left)
    (hpt : owner pt = some (.table root 1)) :
    wp (linkLeaf slot pt virtual physical flags before left)
      (fun r s' => r = true ∧ MapsHeld P root physical flags base s') (fun _ _ => True) s := by
  by_cases hp : base physical = some .held ∧ P (leafEntry physical flags)
  · exact (linkLeaf_held h hpt hp.1 hp.2).mono (fun _ _ hs => ⟨hs.1, fun _ _ => hs.2⟩)
      fun _ _ he => he
  · obtain ⟨space, hslot, -⟩ := h.space
    exact (linkLeaf_returns hslot).mono
      (fun _ _ hs => ⟨hs, fun hheld he => absurd ⟨hheld, he⟩ hp⟩) fun _ _ he => he

end

section

variable {s s₀ : Vm} {base : Owners} {root physical : Phys}

variable {space : Space} {slot : Fin 64}

lemma metadataFind_some (h : metadataFind s root = some (slot, space)) :
    s.metadata slot = some space ∧ space.root = root := by
  obtain ⟨i, -, hi⟩ := List.exists_of_findSome?_eq_some h
  obtain ⟨x, hx, hif⟩ := Option.bind_eq_some_iff.mp hi
  split at hif
  · next hroot =>
    cases hif
    exact ⟨hx, hroot⟩
  · cases hif

variable {owner : Owners}

lemma metadataFind_eq (h : Owned P s owner)
    (hslot : s.metadata slot = some space) : metadataFind s space.root = some (slot, space) := by
  cases hfind : metadataFind s space.root with
  | none =>
    have := List.findSome?_eq_none_iff.mp hfind slot (List.mem_finRange slot)
    simp [hslot] at this
  | some found =>
    obtain ⟨hfound, hroot⟩ := metadataFind_some hfind
    obtain rfl := h.slot_unique _ _ _ _ hfound hslot hroot
    rw [hslot] at hfound
    cases hfound
    rfl

def MapResult (P : Entry → Prop) (root physical : Phys) (flags : Entry) (base : Owners) (r : Bool) (s' : Vm) : Prop :=
  (r = false ∧ Owned P s' base) ∨ (r = true ∧ MapsHeld P root physical flags base s')

lemma mapReserved_spec {virtual : Nat} {flags before : Entry} {r0 r1 r2 : Phys}
    (h : Reserved P base s₀ s [r0, r1, r2]) (hv : index 39 virtual < 256) :
    wp (mapReserved root virtual physical flags before r0 r1 r2)
      (MapResult P root physical flags base) (fun _ _ => True) s := by
  refine wp_get_bind.mpr ?_
  cases hfind : metadataFind s root with
  | none => exact h.failWith fun s' hs' => .inl ⟨rfl, hs'⟩
  | some found =>
    obtain ⟨slot, space⟩ := found
    obtain ⟨hslot, rfl⟩ := metadataFind_some hfind
    dsimp only
    split
    · exact h.failWith fun s' hs' => .inl ⟨rfl, hs'⟩
    · have hgrown : Grown P base slot space.root s (base.hold [r0, r1, r2]) ([] ++ r0 :: [r1, r2]) := by
        refine ⟨h.owned, ⟨space, hslot, rfl⟩, ⟨h.nodup, fun f hf => ⟨h.free f hf, if_pos hf⟩,
          fun f hf => .inl (if_neg hf)⟩, h.empty⟩
      have hroot : Above (base.hold [r0, r1, r2]) space.root space.root 4 (index 39 virtual) :=
        .inl ⟨rfl, (h.owned.spaces slot space hslot).root, rfl, hv⟩
      refine ((userChildReserved_spec hgrown hroot).mono (fun _ _ hs => hs)
        fun _ _ he => he.elim).bind fun pdpt s1 h1 => ?_
      obtain ⟨owner1, table1, hchild1, hlevel1, hgrown1⟩ := h1
      simp only [hchild1]
      refine ((userChildReserved_spec hgrown1 (.inr ⟨hlevel1, by decide⟩)).mono (fun _ _ hs => hs)
        fun _ _ he => he.elim).bind fun pd s2 h2 => ?_
      obtain ⟨owner2, table2, hchild2, hlevel2, hgrown2⟩ := h2
      simp only [hchild2]
      rw [← List.append_assoc] at hgrown2
      refine ((userChildReserved_spec hgrown2 (.inr ⟨hlevel2, by decide⟩)).mono (fun _ _ hs => hs)
        fun _ _ he => he.elim).bind fun pt s3 h3 => ?_
      obtain ⟨owner3, table3, hchild3, hlevel3, hgrown3⟩ := h3
      simp only [hchild3]
      rw [List.append_nil, List.append_assoc] at hgrown3
      exact (linkLeaf_spec hgrown3 hlevel3).mono (fun _ _ hs => .inr hs) fun _ _ he => he

variable {virtual : UInt64}

lemma vmmMapUserPage_spec {flags : Entry} (h : Owned P s base) :
    wp (vmmMapUserPage root virtual physical flags) (MapResult P root physical flags base)
      (fun _ _ => True) s := by
  refine wp_get_bind.mpr ?_
  split
  · exact .inl ⟨rfl, h⟩
  next hargs =>
  simp only [not_or, Nat.not_le, not_not] at hargs
  cases metadataFind s root with
  | none => exact .inl ⟨rfl, h⟩
  | some found =>
    dsimp only
    split
    · exact .inl ⟨rfl, h⟩
    refine wp_bind.mpr (chance_spec fun locked s1 hq1 => ?_)
    cases locked with
    | false => exact .inl ⟨rfl, h.quiet hq1⟩
    | true =>
    refine wp_bind.mpr (chance_spec fun node s2 hq2 => ?_)
    have hquiet := hq1.trans hq2
    cases node with
    | false => exact .inl ⟨rfl, h.quiet hquiet⟩
    | true =>
    have hfail : ∀ s', Owned P s' base → MapResult P root physical flags base false s' :=
      fun s' hs' => .inl ⟨rfl, hs'⟩
    refine reserveTable_spec (Reserved.start (h.quiet hquiet) hquiet) (fun r0 t0 h0 => ?_) hfail
    refine reserveTable_spec h0 (fun r1 t1 h1 => ?_) hfail
    refine reserveTable_spec h1 (fun r2 t2 h2 => ?_) hfail
    exact mapReserved_spec h2 hargs.2.2.2.2.2.1

def UnmapResult (P : Entry → Prop) (root : Phys) (owner : Owners) (r : Option Phys) (s' : Vm) : Prop :=
  (r = none ∧ Owned P s' owner) ∨
    ∃ f, r = some f ∧ owner f = some (.leaf root) ∧ Owned P s' (owner.set f (some .held))

lemma ownedTable_spec {t : Phys} {l i : Nat}
    (h : Owned P s owner) (ht : Above owner space.root t l i) (hentry : ownedTable space (s.tables t i)) :
    owner (frameOf (s.tables t i)) = some (.table space.root (l - 1)) := by
  rcases ht.entry h with hzero | ⟨-, howner⟩
  · rw [hzero] at hentry
    exact absurd hentry.1 (by decide)
  · exact howner

lemma vmmUnmapUserPage_spec (h : Owned P s owner) :
    wp (vmmUnmapUserPage root virtual) (UnmapResult P root owner) (fun _ _ => False) s := by
  refine wp_get_bind.mpr ?_
  split
  · exact .inl ⟨rfl, h⟩
  next hargs =>
  simp only [not_or, Nat.not_le] at hargs
  cases hfind : metadataFind s root with
  | none => exact .inl ⟨rfl, h⟩
  | some found =>
    obtain ⟨slot, space⟩ := found
    obtain ⟨hslot, rfl⟩ := metadataFind_some hfind
    refine wp_bind.mpr (chance_spec fun locked s1 hq => ?_)
    cases locked with
    | false => exact .inl ⟨rfl, h.quiet hq⟩
    | true =>
    rw [if_neg (by decide)]
    split
    · exact .inl ⟨rfl, h.quiet hq⟩
    next hwalk =>
    simp only [not_or, not_not] at hwalk
    obtain ⟨hpml4e, hpdpte, hpde, -, -, hleaf⟩ := hwalk
    have hroot := (h.spaces slot space hslot).root
    have hpdpt := ownedTable_spec h (.inl ⟨rfl, hroot, rfl, hargs.2.2.2⟩) hpml4e
    have hpd := ownedTable_spec h (.inr ⟨hpdpt, by decide⟩) hpdpte
    have hpt := ownedTable_spec h (.inr ⟨hpd, by decide⟩) hpde
    have howned : Owned P { s1 with
        metadata := replaceSlot s1.metadata slot (some { space with
          leaves := space.leaves.erase (frameOf (pte s.tables space.root virtual.toNat)) })
        tables := s1.tables.set (frameOf (pde s.tables space.root virtual.toNat))
          (index 12 virtual.toNat) 0 }
        (owner.set (frameOf (pte s.tables space.root virtual.toNat)) (some .held)) :=
      (h.quiet hq).unlinkLeaf (hq.metadata ▸ hslot) hpt hleaf ⟨rfl, rfl⟩ rfl rfl
    exact .inr ⟨_, rfl, ((h.spaces slot space hslot).mem_leaves _).mp hleaf, howned⟩

end

section

variable {s : Vm} {owner : Owners} {t : Phys} {l i : Nat}

def OnKernelPath (s : Vm) (virtual : Nat) (f : Phys) : Prop :=
  has (pml4e s.tables s.kernelPml4 virtual) ptePresent ∧
    (frameOf (pml4e s.tables s.kernelPml4 virtual) = f ∨
      has (pdpte s.tables s.kernelPml4 virtual) ptePresent ∧
        (frameOf (pdpte s.tables s.kernelPml4 virtual) = f ∨
          has (pde s.tables s.kernelPml4 virtual) ptePresent ∧
            frameOf (pde s.tables s.kernelPml4 virtual) = f))

/-- One level of a kernel mapping: the table below, which may be new. -/
structure KernelStep (P : Entry → Prop) (s s' : Vm) (owner owner' : Owners) (t : Phys) (l i : Nat) (r : Option Phys) :
    Prop where
  owned : Owned P s' owner'
  kernelPml4 : s'.kernelPml4 = s.kernelPml4
  metadata : s'.metadata = s.metadata
  tables : ∀ u, owner u ≠ none → u ≠ t → s'.tables u = s.tables u
  child : ∀ c, r = some c → has (s'.tables t i) ptePresent ∧ frameOf (s'.tables t i) = c ∧
    owner' c = some (.kernel (l - 1))
  other : ∀ f, owner' f = owner f ∨ owner f = none ∧ r = some f

lemma kernelChild_spec (h : Owned P s owner) (ht : owner t = some (.kernel l)) (hl : 1 < l) :
    wp (kernelChild t i) (fun r s' => ∃ owner', KernelStep P s s' owner owner' t l i r)
      (fun _ _ => False) s := by
  have hentry := h.content t _ ht i
  refine wp_get_bind.mpr ?_
  split
  · next hpresent =>
    refine ⟨owner, h, rfl, rfl, fun _ _ _ => rfl, fun c hc => ?_, fun f => .inl rfl⟩
    rw [if_neg hentry.supervisor] at hc
    cases hc
    exact ⟨hpresent, rfl, hentry.below hl hpresent⟩
  · refine (pmmAllocFrame_spec h).bind fun r s1 hr => ?_
    rcases hr with ⟨rfl, hq⟩ | ⟨f, rfl, hf, htaken, howned⟩
    · refine ⟨owner, h.quiet hq, hq.kernelPml4, hq.metadata, fun u _ _ => ?_, fun c hc => ?_,
        fun f => .inl rfl⟩
      · rw [hq.tables]
      · cases hc
    · have htf : t ≠ f := by
        rintro rfl
        simp [hf] at ht
      have hframe := howned.frame f (by simp [Owners.set_same])
      have hlinked : Owned P
          { s1 with tables := s1.tables.set t i (f ||| (ptePresent ||| pteReadwrite)) }
          ((owner.set f (some .held)).set f (some (.kernel (l - 1)))) :=
        howned.linkKernel ((Owners.set_of_ne htf).trans ht) (Owners.set_same _ _ _)
          htaken.empty ⟨rfl, rfl⟩ rfl rfl
      refine ⟨_, hlinked, htaken.kernelPml4, htaken.metadata, fun u hu hut => ?_, fun c hc => ?_,
        fun g => ?_⟩
      · have huf : u ≠ f := by
          rintro rfl
          exact hu hf
        exact (Tables.set_other hut).trans (htaken.tables u huf)
      · cases hc
        have hset : (s1.tables.set t i (f ||| (ptePresent ||| pteReadwrite))) t i =
            f ||| (ptePresent ||| pteReadwrite) := Tables.set_same _ _ _ _
        refine ⟨?_, ?_, Owners.set_same _ _ _⟩
        · show has (s1.tables.set t i _ t i) ptePresent
          rw [hset]
          exact has_or.mpr (.inr (by decide))
        · show frameOf (s1.tables.set t i _ t i) = f
          rw [hset]
          exact frameOf_or hframe (by decide)
      · by_cases hg : g = f
        · exact .inr ⟨hg ▸ hf, hg ▸ rfl⟩
        · exact .inl (by rw [Owners.set_of_ne hg, Owners.set_of_ne hg])

variable {s' : Vm} {owner' : Owners} {r : Option Phys} {u : Phys}

lemma KernelStep.keep {o : Owner}
    (h : KernelStep P s s' owner owner' t l i r) (hu : owner u = some o) : owner' u = some o := by
  rcases h.other u with heq | ⟨hnone, -⟩
  · exact heq.trans hu
  · simp [hnone] at hu

def LeadsTo (s : Vm) (t : Phys) (i : Nat) (f : Phys) : Prop :=
  has (s.tables t i) ptePresent ∧ frameOf (s.tables t i) = f

variable {f : Phys}

lemma LeadsTo.congr {j : Nat} (h : LeadsTo s u j f)
    (heq : s'.tables u = s.tables u) : LeadsTo s' u j f := by
  unfold LeadsTo
  rw [heq]
  exact h

lemma KernelStep.leadsTo {j m : Nat}
    (h : KernelStep P s s' owner owner' t l i r) (hu : owner u = some (.kernel m))
    (ht : owner t = some (.kernel l)) (hm : m ≠ l) (hlead : LeadsTo s u j f) :
    LeadsTo s' u j f := by
  have hut : u ≠ t := by
    rintro rfl
    rw [hu] at ht
    cases ht
    exact hm rfl
  exact hlead.congr (h.tables u (by simp [hu]) hut)

section

variable {virtual : Nat} {pdpt pd pt : Phys}

section

variable (h : LeadsTo s s.kernelPml4 (index 39 virtual) pdpt)

include h

lemma onKernelPath_pdpt :
    OnKernelPath s virtual pdpt :=
  ⟨h.1, .inl h.2⟩

lemma onKernelPath_pd
    (h' : LeadsTo s pdpt (index 30 virtual) pd) : OnKernelPath s virtual pd := by
  obtain ⟨hp, rfl⟩ := h
  exact ⟨hp, .inr ⟨h'.1, .inl h'.2⟩⟩

lemma onKernelPath_pt
    (h' : LeadsTo s pdpt (index 30 virtual) pd) (h'' : LeadsTo s pd (index 21 virtual) pt) :
    OnKernelPath s virtual pt := by
  obtain ⟨hp, rfl⟩ := h
  obtain ⟨hp', rfl⟩ := h'
  exact ⟨hp, .inr ⟨hp', .inr ⟨h''.1, h''.2⟩⟩⟩

end

end

def KernelResult (P : Entry → Prop) (owner : Owners) (virtual : Nat) (s' : Vm) : Prop :=
  ∃ owner', Owned P s' owner' ∧
    ∀ f, owner' f = owner f ∨
      owner f = none ∧ (∃ l, owner' f = some (.kernel l)) ∧ OnKernelPath s' virtual f

variable {physical : Phys} {flags : Entry}

lemma supervisor_leaf (h : ¬ has flags pteUser) :
    ¬ has (frameOf physical ||| flags ||| ptePresent) pteUser := by
  have hframe : ¬ has (frameOf physical) pteUser := by
    rw [has, not_not, frameOf, BitVec.and_assoc, show pteFrameMask &&& pteUser = 0#64 by decide,
      BitVec.and_zero]
  rw [has_or, has_or, not_or, not_or]
  exact ⟨⟨hframe, h⟩, by decide⟩

def Extends (owner owner' : Owners) (path : List Phys) : Prop :=
  ∀ f, owner' f = owner f ∨ owner f = none ∧ f ∈ path

variable {path : List Phys}

lemma Extends.step {base : Owners}
    (h : Extends base owner path) (hs : KernelStep P s s' owner owner' t l i r) :
    Extends base owner' (path ++ r.toList) := by
  intro f
  rcases hs.other f with heq | ⟨hnone, rfl⟩
  · rw [heq]
    exact (h f).imp_right fun hf => ⟨hf.1, List.mem_append_left _ hf.2⟩
  · rcases h f with heq | ⟨hbase, hmem⟩
    · exact .inr ⟨heq ▸ hnone, by simp⟩
    · exact .inr ⟨hbase, List.mem_append_left _ hmem⟩

lemma Extends.result {virtual : Nat}
    (h : Extends owner owner' path) (howned : Owned P s owner')
    (hpath : ∀ f ∈ path, (∃ l, owner' f = some (.kernel l)) ∧ OnKernelPath s virtual f) :
    KernelResult P owner virtual s :=
  ⟨owner', howned, fun f => (h f).imp_right fun hf => ⟨hf.1, hpath f hf.2⟩⟩

variable {virtual : UInt64}

lemma mapKernelOne_spec (h : Owned P s owner) :
    wp (mapKernelOne virtual physical flags)
      (fun _ s' => KernelResult P owner virtual.toNat s') (fun _ _ => False) s := by
  unfold mapKernelOne
  split
  · exact ⟨owner, h, fun f => .inl rfl⟩
  next hargs =>
  simp only [not_or, not_not] at hargs
  refine wp_get_bind.mpr ?_
  refine (kernelChild_spec h h.kernelPml4 (by decide)).bind fun r1 s1 ⟨o1, h1⟩ => ?_
  have hext1 : Extends owner o1 ([] ++ r1.toList) := Extends.step (fun f => .inl rfl) h1
  have hk1 := h1.keep h.kernelPml4
  cases r1 with
  | none => exact hext1.result h1.owned (by simp)
  | some pdpt =>
  obtain ⟨hp1, hf1, hpdpt1⟩ := h1.child pdpt rfl
  refine (kernelChild_spec h1.owned hpdpt1 (by decide)).bind fun r2 s2 ⟨o2, h2⟩ => ?_
  have hext2 := hext1.step h2
  have hk2 := h2.keep hk1
  have hpdpt2 := h2.keep hpdpt1
  have hpml4₂ := h2.kernelPml4.trans h1.kernelPml4
  have hlead2 := h2.leadsTo hk1 hpdpt1 (by decide) ⟨hp1, hf1⟩
  cases r2 with
  | none =>
    refine hext2.result h2.owned fun f hf => ?_
    obtain rfl : f = pdpt := by simpa using hf
    exact ⟨⟨_, hpdpt2⟩, onKernelPath_pdpt (hpml4₂ ▸ hlead2)⟩
  | some pd =>
  obtain ⟨hp2, hf2, hpd2⟩ := h2.child pd rfl
  refine (kernelChild_spec h2.owned hpd2 (by decide)).bind fun r3 s3 ⟨o3, h3⟩ => ?_
  have hext3 := hext2.step h3
  have hk3 := h3.keep hk2
  have hpdpt3 := h3.keep hpdpt2
  have hpd3 := h3.keep hpd2
  have hpml4₃ := h3.kernelPml4.trans hpml4₂
  have hlead3 := h3.leadsTo hk2 hpd2 (by decide) hlead2
  have hlead3' := h3.leadsTo hpdpt2 hpd2 (by decide) ⟨hp2, hf2⟩
  cases r3 with
  | none =>
    refine hext3.result h3.owned fun f hf => ?_
    obtain rfl | rfl : f = pdpt ∨ f = pd := by simpa using hf
    · exact ⟨⟨_, hpdpt3⟩, onKernelPath_pdpt (hpml4₃ ▸ hlead3)⟩
    · exact ⟨⟨_, hpd3⟩, onKernelPath_pd (hpml4₃ ▸ hlead3) hlead3'⟩
  | some pt =>
  obtain ⟨hp3, hf3, hpt3⟩ := h3.child pt rfl
  have hleaf : KernelEntry o3 1 (frameOf physical ||| flags ||| ptePresent) :=
    ⟨supervisor_leaf hargs.2.1, fun hl => absurd hl (by decide)⟩
  refine wp_modify_bind.mpr (wp_pure.mpr ?_)
  refine hext3.result (h3.owned.setKernel hpt3 hleaf (i := index 12 virtual.toNat) ⟨rfl, rfl⟩ rfl rfl)
    fun f hf => ?_
  have hkeep {u g : Phys} {m j : Nat} (hu : o3 u = some (.kernel m)) (hm : m ≠ 1)
      (hlead : LeadsTo s3 u j g) : LeadsTo { s3 with
        tables := s3.tables.set pt (index 12 virtual.toNat)
          (frameOf physical ||| flags ||| ptePresent) } u j g := by
    have hut : u ≠ pt := by
      rintro rfl
      rw [hpt3] at hu
      cases hu
      exact hm rfl
    exact hlead.congr (Tables.set_other hut)
  have hpath := hkeep hk3 (by decide) hlead3
  have hpath' := hkeep hpdpt3 (by decide) hlead3'
  have hpath'' := hkeep hpd3 (by decide) ⟨hp3, hf3⟩
  rw [← hpml4₃] at hpath
  obtain rfl | rfl | rfl : f = pdpt ∨ f = pd ∨ f = pt := by simpa using hf
  · exact ⟨⟨_, hpdpt3⟩, onKernelPath_pdpt hpath⟩
  · exact ⟨⟨_, hpd3⟩, onKernelPath_pd hpath hpath'⟩
  · exact ⟨⟨_, hpt3⟩, onKernelPath_pt hpath hpath' hpath''⟩

lemma OnKernelPath.keep {virtual : Nat} (h : OnKernelPath s virtual f)
    (howned : Owned P s owner) (hkernel : s'.kernelPml4 = s.kernelPml4)
    (htables : ∀ u m, owner u = some (.kernel m) → s'.tables u = s.tables u) :
    OnKernelPath s' virtual f := by
  have hpml4e : pml4e s'.tables s'.kernelPml4 virtual = pml4e s.tables s.kernelPml4 virtual := by
    rw [pml4e, pml4e, hkernel, htables _ _ howned.kernelPml4]
  obtain ⟨hpresent, h⟩ := h
  have hpdpt := (howned.content _ _ howned.kernelPml4 (index 39 virtual)).below (by decide) hpresent
  have hpdpte : pdpte s'.tables s'.kernelPml4 virtual = pdpte s.tables s.kernelPml4 virtual := by
    rw [pdpte, pdpte, hpml4e]
    exact congrFun (htables _ _ hpdpt) _
  unfold OnKernelPath
  rw [hpml4e, hpdpte]
  refine ⟨hpresent, h.imp_right fun hd => ⟨hd.1, hd.2.imp_right fun h => ?_⟩⟩
  have hpd := (howned.content _ _ hpdpt (index 30 virtual)).below (by decide) hd.1
  have hpde : pde s'.tables s'.kernelPml4 virtual = pde s.tables s.kernelPml4 virtual := by
    rw [pde, pde, hpdpte]
    exact congrFun (htables _ _ hpd) _
  rw [hpde]
  exact h

lemma vmmMap_spec (h : Owned P s owner) : wp (vmmMap virtual physical flags)
      (fun _ s' => KernelResult P owner virtual.toNat s') (fun _ _ => False) s := by
  refine (mapKernelOne_spec h).bind fun r s1 hr => ?_
  cases r with
  | false => exact hr
  | true =>
  obtain ⟨owner', howned, hother⟩ := hr
  refine wp_modify_bind.mpr (wp_pure.mpr ?_)
  have hroot {u : Phys} (hu : ∃ slot, (s1.metadata slot).any (·.root = u)) :
      owner' u = some .root := by
    obtain ⟨slot, hslot⟩ := hu
    cases hspace : s1.metadata slot with
    | none => simp [hspace] at hslot
    | some space =>
      obtain rfl : space.root = u := by simpa [hspace] using hslot
      exact (howned.spaces slot space hspace).root
  refine ⟨owner', howned.publish ⟨rfl, rfl⟩ rfl fun u j => ?_, fun f => ?_⟩
  · dsimp only
    split
    · next hpub => exact .inr ⟨hroot hpub.1, hpub.2.1, hpub.2.2.2, rfl⟩
    · exact .inl rfl
  · refine (hother f).imp_right fun ⟨hnone, hkernel, hpath⟩ => ⟨hnone, hkernel, ?_⟩
    refine hpath.keep howned rfl fun u m hu => ?_
    funext j
    exact if_neg fun hpub => by simp [hroot hpub.1] at hu

end

end Mangrove.Vmm
