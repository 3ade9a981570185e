import Mangrove.Vmm.Operations

/-! Runs of all the operations on address spaces: each frame has one owner. System calls check
user buffers, but never ask for the write bit. -/

namespace Mangrove.Vmm

open Prog (wp wp_bind wp_get_bind wp_modify_bind)

variable {P : Entry → Prop}

section

variable {s : Vm} {owner : Owners}

lemma set_none {f : Phys} {o : Option Owner} (h : owner f = none) :
    (owner.set f o).set f none = owner := by
  funext g
  by_cases hg : g = f
  · simp [Owners.set, hg, h]
  · simp [Owners.set, hg]

lemma set_set (owner : Owners) (f : Phys) (o o' : Option Owner) :
    (owner.set f o).set f o' = owner.set f o' := by
  funext g
  by_cases hg : g = f <;> simp [Owners.set, hg]

lemma metadataFree_some {slot : Fin 64} (h : metadataFree s = some slot) :
    s.metadata slot = none := by
  simpa using List.find?_some h

def CreateResult (P : Entry → Prop) (owner : Owners) (r : Option Phys) (s' : Vm) : Prop :=
  (r = none ∧ Owned P s' owner) ∨
    ∃ root, r = some root ∧ owner root = none ∧ Owned P s' (owner.set root (some .root))

lemma giveBackRoot {root : Phys} (h : Owned P s (owner.set root (some .held)))
    (hroot : owner root = none) :
    wp (do pmmFreeFrame root; return none) (CreateResult P owner) (fun _ _ => False) s := by
  refine (pmmFreeFrame_spec h (Owners.set_same _ _ _)).bind fun _ s' hs' => .inl ⟨rfl, ?_⟩
  rw [set_none hroot] at hs'
  exact hs'.2

lemma registerRoot_spec {root : Phys} (h : Owned P s (owner.set root (some .held)))
    (hroot : owner root = none) (hlower : ∀ j < 256, s.tables root j = 0)
    (hupper : ∀ j, 256 ≤ j → BranchEntry (owner.set root (some .held)) j (s.tables root j)) :
    wp (registerRoot root) (CreateResult P owner) (fun _ _ => False) s := by
  refine wp_get_bind.mpr ?_
  cases hfree : metadataFree s with
  | none => exact giveBackRoot h hroot
  | some slot =>
  have hslot := metadataFree_some hfree
  refine wp_modify_bind.mpr (wp_get_bind.mpr ?_)
  split
  · have howned : Owned P { s with metadata := replaceSlot s.metadata slot (some ⟨root, [], []⟩) }
        ((owner.set root (some .held)).set root (some .root)) :=
      h.newRoot (Owners.set_same _ _ _) hslot hlower hupper ⟨rfl, rfl⟩ rfl rfl
    rw [set_set] at howned
    exact .inr ⟨root, rfl, hroot, howned⟩
  · refine wp_modify_bind.mpr (giveBackRoot ?_ hroot)
    refine h.recontent ⟨rfl, rfl⟩ ?_ fun _ _ _ hold => hold
    funext j
    by_cases hj : j = slot
    · simp [replaceSlot, hj, hslot]
    · simp [replaceSlot, hj]

lemma vmmCreateAddressSpace_spec (h : Owned P s owner) :
    wp vmmCreateAddressSpace (CreateResult P owner) (fun _ _ => False) s := by
  refine (pmmAllocFrame_spec h).bind fun r s1 hr => ?_
  rcases hr with ⟨rfl, hq⟩ | ⟨root, rfl, hroot, htaken, howned⟩
  · exact .inl ⟨rfl, h.quiet hq⟩
  refine wp_get_bind.mpr ?_
  split
  · exact giveBackRoot howned hroot
  refine wp_modify_bind.mpr ?_
  have hkernel := howned.kernelPml4
  refine registerRoot_spec ?_ hroot (fun j hj => ?_) (fun j hj => ?_)
  · rw [← set_set owner root (some .held)]
    refine howned.loose (.inr (Owners.set_same _ _ _)) (.inr rfl)
      (fun _ => howned.frame root (by simp [Owners.set_same])) (fun g => ?_) (fun t ht => ?_) rfl rfl
    · split
      · next hg =>
        subst hg
        exact (howned.allocated g).mpr (by simp [Owners.set_same])
      · rfl
    · funext i
      exact if_neg fun hc => ht hc.1
  · dsimp only
    rw [if_neg (by omega)]
    exact htaken.empty j
  · dsimp only
    split
    · next hshared =>
      have hentry := howned.content _ _ hkernel j
      exact ⟨hentry.supervisor, fun hp => ⟨hshared.2.2.2, hentry.below (by decide) hp⟩⟩
    · rw [htaken.empty j]
      exact ⟨by decide, fun hp => absurd hp (by decide)⟩

end

section

variable {s : Vm} {owner : Owners}

variable {slot : Fin 64} {space : Space} {g : Phys}

/-- The tables of the kernel, each with its level: all closed to user mode, and those above
the last level lead to each other only. -/
structure KernelTables (s : Vm) (level : Phys → Option Nat) : Prop where
  root : level s.kernelPml4 = some 4
  supervisor : ∀ t l i, level t = some l → ¬ has (s.tables t i) pteUser
  below : ∀ t l i, level t = some l → 1 < l → has (s.tables t i) ptePresent →
    level (frameOf (s.tables t i)) = some (l - 1)

section

variable {level : Phys → Option Nat} (h : KernelTables s level)

include h

lemma KernelTables.reaches {levels : Nat} {t p : Phys} {i : Nat}
    (ht : level t = some (levels + 2)) (hr : kernelReaches s levels t i p) : level p ≠ none := by
  induction levels generalizing t i with
  | zero =>
    obtain ⟨hp, -, rfl⟩ := hr
    simp [h.below t _ i ht (by decide) hp]
  | succ levels ih =>
    obtain ⟨hp, -, hr⟩ := hr
    have hchild := h.below t _ i ht (by omega) hp
    rcases hr with rfl | ⟨j, -, hr⟩
    · simp [hchild]
    · exact ih hchild hr

lemma KernelTables.not_reachesTable {f : Phys} (hf : level (frameOf f) = none) :
    ¬ kernelReachesTable s f := by
  rintro (hroot | ⟨i, -, -, hr⟩)
  · rw [hroot, h.root] at hf
    cases hf
  · exact h.reaches h.root hr hf

end

def Owners.kernelLevel (owner : Owners) (f : Phys) : Option Nat :=
  match owner f with
  | some (.kernel l) => some l
  | _ => none

lemma Owners.kernelLevel_eq_some {f : Phys} {l : Nat} :
    owner.kernelLevel f = some l ↔ owner f = some (.kernel l) := by
  unfold Owners.kernelLevel
  split
  · next ho => simp [ho]
  · next ho => simpa using ho l

section

variable (h : Owned P s owner)

include h

lemma Owned.kernelTables : KernelTables s owner.kernelLevel where
  root := Owners.kernelLevel_eq_some.mpr h.kernelPml4
  supervisor t _ i ht := (h.content t _ (Owners.kernelLevel_eq_some.mp ht) i).supervisor
  below t _ i ht hl hp := Owners.kernelLevel_eq_some.mpr
    ((h.content t _ (Owners.kernelLevel_eq_some.mp ht) i).below hl hp)

lemma not_kernelReachesTable {f : Phys} (hf : owner f = some .held) :
    ¬ kernelReachesTable s f := by
  refine h.kernelTables.not_reachesTable ?_
  rw [(h.frame f (by simp [hf])).2.1, Owners.kernelLevel, hf]

lemma freeTables_eq {l : List Phys} (hl : ∀ f ∈ l, owner f = some .held)
    (hnodup : l.Nodup) : freeTables l s = pmmFreeFrames l s := by
  induction l generalizing s owner with
  | nil => rfl
  | cons f l ih =>
    rw [List.nodup_cons] at hnodup
    rw [List.forall_mem_cons] at hl
    have hstep : freeTables (f :: l) s = freeTables l (pmmFreeFrame f s).2 := by
      show (if kernelReachesTable s f then _ else _ : VmProg Unit) s = _
      rw [if_neg (not_kernelReachesTable h hl.1)]
      rfl
    refine hstep.trans (ih ((pmmFreeFrame_spec h hl.1).ok rfl).2 (fun g hg => ?_) hnodup.2)
    have hgf : g ≠ f := by
      rintro rfl
      exact hnodup.1 hg
    rw [Owners.set_of_ne hgf]
    exact hl.2 g hg

def Space.frames (space : Space) : List Phys := space.root :: (space.leaves ++ space.tables)

section

variable (hslot : s.metadata slot = some space)

include hslot

lemma mem_frames : g ∈ space.frames ↔ ∃ o, owner g = some o ∧ o.space g = some space.root := by
  have hspace := h.spaces slot space hslot
  rw [Space.frames, List.mem_cons, List.mem_append, hspace.mem_leaves, hspace.mem_tables]
  constructor
  · rintro (rfl | hg | ⟨l, hg⟩)
    · exact ⟨_, hspace.root, rfl⟩
    · exact ⟨_, hg, rfl⟩
    · exact ⟨_, hg, rfl⟩
  · rintro ⟨o, hg, ho⟩
    cases o with
    | root => exact .inl (Option.some.inj ho)
    | table r l =>
      obtain rfl : r = space.root := Option.some.inj ho
      exact .inr (.inr ⟨l, hg⟩)
    | leaf r =>
      obtain rfl : r = space.root := Option.some.inj ho
      exact .inr (.inl hg)
    | kernel | held => cases ho

lemma nodup_frames : space.frames.Nodup := by
  have hspace := h.spaces slot space hslot
  rw [Space.frames, List.nodup_cons, List.nodup_append, List.mem_append, hspace.mem_leaves,
    hspace.mem_tables]
  refine ⟨?_, hspace.leaves_nodup, hspace.tables_nodup, fun a ha b hb hab => ?_⟩
  · rintro (hroot | ⟨l, hroot⟩) <;> simp [hspace.root] at hroot
  · subst hab
    rw [hspace.mem_leaves] at ha
    rw [hspace.mem_tables] at hb
    obtain ⟨l, hb⟩ := hb
    simp [ha] at hb

def DestroyResult (P : Entry → Prop) (s : Vm) (owner : Owners) (root : Phys) (r : Bool)
    (s' : Vm) : Prop :=
  (r = false ∧ Quiet s s' ∧ (owner root ≠ some .root ∨ s.chances 0 = false)) ∨
    r = true ∧ ∃ slot space, s.metadata slot = some space ∧ space.root = root ∧
      s'.metadata = replaceSlot s.metadata slot none ∧ s'.freed = s.freed ++ space.frames ∧
      Owned P s' (owner.release space.frames)

lemma detach_frame (hg : g ∈ space.frames) : owner.detach space.root g = some .held := by
  obtain ⟨o, ho, hspace⟩ := (mem_frames h hslot).mp hg
  simp [Owners.detach, ho, hspace]

lemma release_detach :
    (owner.detach space.root).release space.frames = owner.release space.frames := by
  funext g
  unfold Owners.release
  split
  · rfl
  · next hg =>
    unfold Owners.detach
    cases ho : owner g with
    | none => rfl
    | some o =>
      have hne : o.space g ≠ some space.root := fun hspace =>
        hg ((mem_frames h hslot).mpr ⟨o, ho, hspace⟩)
      simp [hne]

end

end

lemma release_append (owner : Owners) (l l' : List Phys) :
    owner.release (l ++ l') = (owner.release l).release l' := by
  funext g
  by_cases hl : g ∈ l <;> by_cases hl' : g ∈ l' <;> simp [Owners.release, hl, hl']

lemma release_held {l : List Phys} (hg : owner g = some .held) (hl : g ∉ l) :
    owner.release l g = some .held := (if_neg hl).trans hg

lemma freeSpace_spec {root : Phys} {leaves tables : List Phys} (h : Owned P s owner)
    (hheld : ∀ f ∈ root :: (leaves ++ tables), owner f = some .held)
    (hnodup : (root :: (leaves ++ tables)).Nodup) :
    wp (do pmmFreeFrame root; pmmFreeFrames leaves; freeTables tables; return true)
      (fun r s' => r = true ∧ Released s s' (root :: (leaves ++ tables)) ∧
        Owned P s' (owner.release (root :: (leaves ++ tables)))) (fun _ _ => False) s := by
  have hparts := hnodup
  rw [List.nodup_cons, List.nodup_append] at hparts
  obtain ⟨hroot, hleaves, htables, hdisjoint⟩ := hparts
  refine (pmmFreeFrame_spec h (hheld root List.mem_cons_self)).bind fun _ s1 ⟨hr1, h1⟩ => ?_
  have hne {f : Phys} (hf : f ∈ leaves ++ tables) : f ≠ root := by
    rintro rfl
    exact hroot hf
  have hheld1 {f : Phys} (hf : f ∈ leaves ++ tables) : owner.set root none f = some .held :=
    (Owners.set_of_ne (hne hf)).trans (hheld f (List.mem_cons_of_mem _ hf))
  refine (pmmFreeFrames_spec h1 (fun f hf => hheld1 (List.mem_append_left _ hf)) hleaves).bind
    fun _ s2 ⟨hr2, h2⟩ => ?_
  have hheld2 : ∀ f ∈ tables, (owner.set root none).release leaves f = some .held :=
    fun f hf => release_held (hheld1 (List.mem_append_right _ hf))
      fun hmem => hdisjoint f hmem f hf rfl
  have hfree := pmmFreeFrames_spec h2 hheld2 htables
  unfold wp at hfree
  rw [← freeTables_eq h2 hheld2 htables] at hfree
  refine wp.bind hfree fun _ s3 ⟨hr3, h3⟩ => ⟨rfl, ?_, ?_⟩
  · refine ⟨hr3.tables.trans (hr2.tables.trans hr1.tables), ?_,
      hr3.kernelPml4.trans (hr2.kernelPml4.trans hr1.kernelPml4),
      hr3.metadata.trans (hr2.metadata.trans hr1.metadata)⟩
    rw [hr3.freed, hr2.freed, hr1.freed]
    simp
  · rw [release_cons, release_append]
    exact h3

lemma vmmDestroyAddressSpace_spec {root : Phys} (h : Owned P s owner) :
    wp (vmmDestroyAddressSpace root) (DestroyResult P s owner root) (fun _ _ => False) s := by
  refine wp_get_bind.mpr ?_
  split
  · next hkernel =>
    refine .inl ⟨rfl, Quiet.refl s, .inl ?_⟩
    rw [hkernel, h.kernelPml4]
    simp
  cases hfind : metadataFind s root with
  | none =>
    refine .inl ⟨rfl, Quiet.refl s, .inl fun hroot => ?_⟩
    obtain ⟨slot, space, hslot, rfl⟩ := h.home root .root root hroot rfl
    rw [metadataFind_eq h hslot] at hfind
    cases hfind
  | some found =>
  obtain ⟨slot, space⟩ := found
  obtain ⟨hslot, rfl⟩ := metadataFind_some hfind
  have hq : Quiet s { s with chances := fun n => s.chances (n + 1) } := ⟨rfl, rfl, rfl, rfl, rfl⟩
  refine wp_bind.mpr ?_
  show wp (if ¬ s.chances 0 then _ else _) _ _ { s with chances := fun n => s.chances (n + 1) }
  generalize { s with chances := fun n => s.chances (n + 1) } = s1 at hq
  cases hlocked : s.chances 0 with
  | false => exact .inl ⟨rfl, hq, .inr hlocked⟩
  | true =>
  refine wp_modify_bind.mpr ?_
  have hdetached : Owned P { s1 with metadata := replaceSlot s1.metadata slot none }
      (owner.detach space.root) :=
    (h.quiet hq).detach (hq.metadata ▸ hslot) ⟨rfl, rfl⟩ rfl rfl
  refine (freeSpace_spec hdetached (fun f hf => detach_frame h hslot hf)
    (nodup_frames h hslot)).mono (fun r s' hs' => .inr ?_) fun _ _ he => he
  obtain ⟨rfl, hreleased, howned⟩ := hs'
  refine ⟨rfl, slot, space, hslot, rfl, ?_, ?_, ?_⟩
  · rw [hreleased.metadata, ← hq.metadata]
  · rw [hreleased.freed, ← hq.freed]
    rfl
  · rw [← release_detach h hslot]
    exact howned

end

/-- The page tables, and the frames that callers hold. -/
structure Sys where
  vm : Vm
  held : Phys → Prop

def Vm.answering (s : Vm) (supply : Nat → Option Phys) (chances : Nat → Bool) : Vm :=
  { s with supply := supply, chances := chances }

/-- One operation. Callers map for user mode only frames they hold, and only with the flags
they are allowed. -/
inductive StepOn (allowed : Phys → Entry → Prop) (s : Sys) : Sys → Prop
  | alloc (supply : Nat → Option Phys) (chances : Nat → Bool) (r : Option Phys) (vm : Vm) :
    pmmAllocFrame (s.vm.answering supply chances) = (.ok r, vm) →
    StepOn allowed s ⟨vm, fun f => s.held f ∨ r = some f⟩
  | free (f : Phys) (vm : Vm) :
    s.held f → pmmFreeFrame f s.vm = (.ok (), vm) → StepOn allowed s ⟨vm, fun g => s.held g ∧ g ≠ f⟩
  | create (supply : Nat → Option Phys) (chances : Nat → Bool) (r : Option Phys) (vm : Vm) :
    vmmCreateAddressSpace (s.vm.answering supply chances) = (.ok r, vm) → StepOn allowed s ⟨vm, s.held⟩
  | map (supply : Nat → Option Phys) (chances : Nat → Bool) (root : Phys) (virtual : UInt64)
      (physical : Phys) (flags : Entry) (r : Bool) (vm : Vm) :
    s.held physical → allowed physical flags →
    vmmMapUserPage root virtual physical flags (s.vm.answering supply chances) = (.ok r, vm) →
    StepOn allowed s ⟨vm, fun g => s.held g ∧ (r = true → g ≠ physical)⟩
  | unmap (supply : Nat → Option Phys) (chances : Nat → Bool) (root : Phys) (virtual : UInt64)
      (r : Option Phys) (vm : Vm) :
    vmmUnmapUserPage root virtual (s.vm.answering supply chances) = (.ok r, vm) →
    StepOn allowed s ⟨vm, fun g => s.held g ∨ r = some g⟩
  | kernelMap (supply : Nat → Option Phys) (chances : Nat → Bool) (virtual : UInt64)
      (physical : Phys) (flags : Entry) (r : Bool) (vm : Vm) :
    vmmMap virtual physical flags (s.vm.answering supply chances) = (.ok r, vm) →
    StepOn allowed s ⟨vm, s.held⟩
  | destroy (supply : Nat → Option Phys) (chances : Nat → Bool) (root : Phys) (r : Bool)
      (vm : Vm) :
    vmmDestroyAddressSpace root (s.vm.answering supply chances) = (.ok r, vm) →
    StepOn allowed s ⟨vm, s.held⟩

abbrev Step : Sys → Sys → Prop := StepOn fun _ _ => True

/-- The kernel's tables are set up, there is no address space yet, and every other allocated
frame is held by someone. -/
structure Boot (s : Sys) (level : Phys → Option Nat) : Prop where
  kernel : KernelTables s.vm level
  metadata : ∀ slot, s.vm.metadata slot = none
  allocated : ∀ f, s.vm.allocated f = true ↔ level f ≠ none ∨ s.held f
  frame : ∀ f, s.vm.allocated f = true → Frame f
  apart : ∀ f, s.held f → level f = none

/-- Every frame has one owner, and the callers hold what they think they hold. -/
def Accounted (P : Entry → Prop) (s : Sys) : Prop :=
  ∃ owner, Owned P s.vm owner ∧ ∀ f, owner f = some .held ↔ s.held f

lemma Owned.answering {s : Vm} {owner : Owners} (h : Owned P s owner)
    (supply : Nat → Option Phys) (chances : Nat → Bool) : Owned P (s.answering supply chances) owner :=
  h.quiet ⟨rfl, rfl, rfl, rfl, rfl⟩

lemma Boot.accounted {s : Sys} {level : Phys → Option Nat} (h : Boot s level) : Accounted P s := by
  classical
  let owner : Owners := fun f =>
    if s.held f then some .held else (level f).map .kernel
  have hkernel {f : Phys} {l : Nat} (hf : level f = some l) : owner f = some (.kernel l) := by
    have hnot : ¬ s.held f := fun hh => by simp [h.apart f hh] at hf
    simp [owner, hnot, hf]
  have hcases {f : Phys} {o : Owner} (hf : owner f = some o) :
      s.held f ∧ o = .held ∨ ∃ l, level f = some l ∧ o = .kernel l := by
    by_cases hh : s.held f
    · simp only [owner, if_pos hh, Option.some.injEq] at hf
      exact .inl ⟨hh, hf.symm⟩
    · simp only [owner, if_neg hh, Option.map_eq_some_iff] at hf
      obtain ⟨l, hl, ho⟩ := hf
      exact .inr ⟨l, hl, ho.symm⟩
  have hsome (f : Phys) : s.vm.allocated f = true ↔ owner f ≠ none := by
    rw [h.allocated]
    by_cases hh : s.held f <;> simp [owner, hh]
  refine ⟨owner, ⟨hsome, fun f hf => h.frame f ((hsome f).mpr hf), hkernel h.kernel.root,
    fun t o ht => ?_, fun i space hi => ?_, fun i j space space' hi => ?_, fun f o r hf hr => ?_⟩,
    fun f => ?_⟩
  · rcases hcases ht with ⟨-, rfl⟩ | ⟨l, hl, rfl⟩
    · trivial
    · exact fun i => ⟨h.kernel.supervisor t l i hl,
        fun hone hp => hkernel (h.kernel.below t l i hl hone hp)⟩
  · simp [h.metadata i] at hi
  · simp [h.metadata i] at hi
  · rcases hcases hf with ⟨-, rfl⟩ | ⟨l, -, rfl⟩ <;> cases hr
  · by_cases hh : s.held f <;> simp [owner, hh]

section

variable {s : Sys} {owner : Owners} {vm : Vm}

lemma set_held_iff {f g : Phys} {o : Owner} (ho : o ≠ .held) (hf : owner f ≠ some .held) :
    owner.set f (some o) g = some .held ↔ owner g = some .held := by
  by_cases hg : g = f
  · subst hg
    rw [Owners.set_same]
    exact iff_of_false (by simpa using ho) hf
  · rw [Owners.set_of_ne hg]

variable {allowed : Phys → Entry → Prop}
  (hallowed : ∀ f flags, allowed f flags → P (leafEntry f flags))

include hallowed

lemma Accounted.step {s' : Sys} (h : Accounted P s) (hs : StepOn allowed s s') :
    Accounted P s' := by
  obtain ⟨owner, howned, hheld⟩ := h
  cases hs with
  | alloc supply chances r vm hrun =>
    rcases (pmmAllocFrame_spec (howned.answering supply chances)).ok hrun with
      ⟨rfl, hq⟩ | ⟨f, rfl, hf, -, howned'⟩
    · exact ⟨owner, (howned.answering supply chances).quiet hq, fun g => by simp [hheld]⟩
    · refine ⟨_, howned', fun g => ?_⟩
      by_cases hg : g = f
      · simp [Owners.set, hg]
      · simp [Owners.set, hg, hheld, Ne.symm hg]
  | free f vm hf hrun =>
    obtain ⟨-, howned'⟩ := (pmmFreeFrame_spec howned ((hheld f).mpr hf)).ok hrun
    refine ⟨_, howned', fun g => ?_⟩
    by_cases hg : g = f
    · simp [Owners.set, hg]
    · simp [Owners.set, hg, hheld]
  | create supply chances r vm hrun =>
    rcases (vmmCreateAddressSpace_spec (howned.answering supply chances)).ok hrun with
      ⟨-, howned'⟩ | ⟨root, -, hroot, howned'⟩
    · exact ⟨owner, howned', hheld⟩
    · exact ⟨_, howned', fun g => (set_held_iff (by simp) (by simp [hroot])).trans (hheld g)⟩
  | map supply chances root virtual physical flags r vm hp hflags hrun =>
    rcases (vmmMapUserPage_spec (howned.answering supply chances)).ok hrun with
      ⟨rfl, howned'⟩ | ⟨rfl, hmaps⟩
    · exact ⟨owner, howned', fun g => by simp [hheld]⟩
    · obtain ⟨owner', howned', hmapped⟩ := hmaps ((hheld physical).mpr hp) (hallowed _ _ hflags)
      refine ⟨owner', howned', fun g => ?_⟩
      by_cases hg : g = physical
      · subst hg
        simp [hmapped.leaf]
      · rcases hmapped.other g hg with heq | ⟨hnone, l, htable⟩
        · simp [heq, hheld, hg]
        · have hnot : ¬ s.held g := by simp [← hheld, hnone]
          simp [htable, hnot]
  | unmap supply chances root virtual r vm hrun =>
    rcases (vmmUnmapUserPage_spec (howned.answering supply chances)).ok hrun with
      ⟨rfl, howned'⟩ | ⟨f, rfl, -, howned'⟩
    · exact ⟨owner, howned', fun g => by simp [hheld]⟩
    · refine ⟨_, howned', fun g => ?_⟩
      by_cases hg : g = f
      · simp [Owners.set, hg]
      · simp [Owners.set, hg, hheld, Ne.symm hg]
  | kernelMap supply chances virtual physical flags r vm hrun =>
    obtain ⟨owner', howned', hother⟩ := (vmmMap_spec (howned.answering supply chances)).ok hrun
    refine ⟨owner', howned', fun g => ?_⟩
    rcases hother g with heq | ⟨hnone, ⟨l, hkernel⟩, -⟩
    · rw [heq, hheld]
    · have hnot : ¬ s.held g := by simp [← hheld, hnone]
      simp [hkernel, hnot]
  | destroy supply chances root r vm hrun =>
    have hans := howned.answering supply chances
    rcases (vmmDestroyAddressSpace_spec hans).ok hrun with
      ⟨-, hq, -⟩ | ⟨-, slot, space, hslot, -, -, -, howned'⟩
    · exact ⟨owner, hans.quiet hq, hheld⟩
    · refine ⟨_, howned', fun g => ?_⟩
      rw [← hheld]
      unfold Owners.release
      split
      · next hg =>
        obtain ⟨o, ho, hspace⟩ := (mem_frames hans hslot).mp hg
        refine iff_of_false (by simp) fun hg' => ?_
        rw [ho] at hg'
        cases hg'
        cases hspace
      · rfl

lemma Accounted.run {s0 : Sys} (h : Accounted P s0)
    (hrun : Relation.ReflTransGen (StepOn allowed) s0 s) : Accounted P s := by
  induction hrun with
  | refl => exact h
  | tail _ hstep ih => exact ih.step hallowed hstep

end

def BranchesClosed (s : Vm) (root : Phys) : Prop :=
  ∀ v, 256 ≤ index 39 v → ¬ has (pml4e s.tables root v) pteUser ∧
    (has (pml4e s.tables root v) ptePresent → ¬ has (pdpte s.tables root v) pteUser ∧
      (has (pdpte s.tables root v) ptePresent → ¬ has (pde s.tables root v) pteUser ∧
        (has (pde s.tables root v) ptePresent → ¬ has (pte s.tables root v) pteUser)))

def LowerOwned (s : Vm) (space : Space) : Prop :=
  ∀ v, index 39 v < 256 → has (pml4e s.tables space.root v) ptePresent →
    frameOf (pml4e s.tables space.root v) ∈ space.tables ∧
      (has (pdpte s.tables space.root v) ptePresent →
        frameOf (pdpte s.tables space.root v) ∈ space.tables ∧
          (has (pde s.tables space.root v) ptePresent →
            frameOf (pde s.tables space.root v) ∈ space.tables))

section

variable {s : Vm} {owner : Owners} {slot : Fin 64} {space : Space}

lemma Owned.branchesClosed (h : Owned P s owner) (hslot : s.metadata slot = some space) :
    BranchesClosed s space.root := by
  intro v hv
  have hbranch := (h.content _ _ (h.spaces slot space hslot).root).2 (index 39 v) hv
  refine ⟨hbranch.supervisor, fun hp => ?_⟩
  have hpdpt := h.content _ _ (hbranch.shared hp).2 (index 30 v)
  refine ⟨hpdpt.supervisor, fun hp => ?_⟩
  have hpd := h.content _ _ (hpdpt.below (by decide) hp) (index 21 v)
  refine ⟨hpd.supervisor, fun hp => ?_⟩
  exact (h.content _ _ (hpd.below (by decide) hp) (index 12 v)).supervisor

lemma UserEntry.table {root : Phys} {level : Nat} {e : Entry}
    (h : UserEntry owner root level e) (hp : has e ptePresent) :
    Link e ∧ owner (frameOf e) = some (.table root (level - 1)) := by
  rcases h with rfl | h
  · exact absurd hp (by decide)
  · exact h

lemma Owned.walk (h : Owned P s owner) (hslot : s.metadata slot = some space) {v : Nat}
    (hv : index 39 v < 256) (hp : has (pml4e s.tables space.root v) ptePresent) :
    (Link (pml4e s.tables space.root v) ∧
      owner (frameOf (pml4e s.tables space.root v)) = some (.table space.root 3)) ∧
    (has (pdpte s.tables space.root v) ptePresent → (Link (pdpte s.tables space.root v) ∧
        owner (frameOf (pdpte s.tables space.root v)) = some (.table space.root 2)) ∧
      (has (pde s.tables space.root v) ptePresent →
        Link (pde s.tables space.root v) ∧
          owner (frameOf (pde s.tables space.root v)) = some (.table space.root 1))) := by
  have hpdpt := ((h.content _ _ (h.spaces slot space hslot).root).1 (index 39 v) hv).table hp
  refine ⟨hpdpt, fun hp => ?_⟩
  have hpd := ((h.content _ _ hpdpt.2).1 (by decide) (index 30 v)).table hp
  exact ⟨hpd, fun hp => ((h.content _ _ hpd.2).1 (by decide) (index 21 v)).table hp⟩

lemma Owned.lowerOwned (h : Owned P s owner) (hslot : s.metadata slot = some space) :
    LowerOwned s space := by
  have hmem (f : Phys) (l : Nat) (hf : owner f = some (.table space.root l)) : f ∈ space.tables :=
    ((h.spaces slot space hslot).mem_tables f).mpr ⟨l, hf⟩
  intro v hv hp
  obtain ⟨⟨-, hpdpt⟩, hwalk⟩ := h.walk hslot hv hp
  refine ⟨hmem _ _ hpdpt, fun hp => ?_⟩
  obtain ⟨⟨-, hpd⟩, hwalk⟩ := hwalk hp
  exact ⟨hmem _ _ hpd, fun hp => hmem _ _ (hwalk hp).2⟩

lemma Owned.allocated_eq {s' : Vm} (h : Owned P s owner) (h' : Owned P s' owner) :
    s'.allocated = s.allocated := by
  funext f
  rw [Bool.eq_iff_iff, h.allocated, h'.allocated]

end

/-- Tear-down of a space that can be locked: every frame of it is given back
once, and no other. -/
def DestroysOnce (s : Vm) (space : Space) : Prop :=
  ∀ supply chances, chances 0 = true → ∃ s',
    vmmDestroyAddressSpace space.root (s.answering supply chances) = (.ok true, s') ∧
      s'.freed = s.freed ++ space.frames ∧ space.frames.Nodup ∧
      (∀ f ∈ space.frames, s.allocated f = true) ∧
      ∀ f, s'.allocated f = (s.allocated f && decide (f ∉ space.frames))

variable {owner : Owners} {space : Space} {slot : Fin 64} {s : Vm}

lemma Owned.destroysOnce
    (h : Owned P s owner) (hslot : s.metadata slot = some space) : DestroysOnce s space := by
  intro supply chances hlock
  have hans := h.answering supply chances
  have hroot := (h.spaces slot space hslot).root
  have hspec : Prog.wp (vmmDestroyAddressSpace space.root) _ _ _ := vmmDestroyAddressSpace_spec hans
  rcases hrun : vmmDestroyAddressSpace space.root (s.answering supply chances) with ⟨r | r, s'⟩
  · exact (hspec.error hrun).elim
  rcases hspec.ok hrun with ⟨-, -, hnot | hnot⟩ | ⟨rfl, slot', space', hslot', hr, -, hfreed, howned⟩
  · exact absurd hroot hnot
  · rw [show (s.answering supply chances).chances 0 = chances 0 from rfl, hlock] at hnot
    cases hnot
  · obtain rfl := h.slot_unique _ _ _ _ hslot' hslot hr
    obtain rfl : space' = space := Option.some.inj (hslot'.symm.trans hslot)
    refine ⟨s', rfl, hfreed, nodup_frames h hslot, fun f hf => ?_, fun f => ?_⟩
    · obtain ⟨o, ho, -⟩ := (mem_frames h hslot).mp hf
      exact (h.allocated f).mpr (by simp [ho])
    · rw [Bool.eq_iff_iff, howned.allocated, Bool.and_eq_true, h.allocated, decide_eq_true_iff]
      by_cases hf : f ∈ space'.frames <;> simp [Owners.release, hf]

/-- A user mapping that fails gives back every frame it took; a kernel mapping
that fails has linked every frame it keeps. -/
structure FailedMapsReturn (s : Vm) : Prop where
  user : ∀ supply chances root virtual physical flags s',
    vmmMapUserPage root virtual physical flags (s.answering supply chances) = (.ok false, s') →
      s'.allocated = s.allocated
  kernel : ∀ supply chances virtual physical flags s',
    vmmMap virtual physical flags (s.answering supply chances) = (.ok false, s') →
      ∀ f, s'.allocated f = true → s.allocated f = true ∨ OnKernelPath s' virtual.toNat f

lemma Owned.failedMapsReturn (h : Owned P s owner) : FailedMapsReturn s := by
  constructor
  · intro supply chances root virtual physical flags s' hrun
    rcases (vmmMapUserPage_spec (h.answering supply chances)).ok hrun with ⟨-, h'⟩ | ⟨hr, -⟩
    · exact h.allocated_eq h'
    · cases hr
  · intro supply chances virtual physical flags s' hrun f hf
    obtain ⟨owner', h', hother⟩ := (vmmMap_spec (h.answering supply chances)).ok hrun
    rcases hother f with heq | ⟨-, -, hpath⟩
    · rw [h'.allocated, heq] at hf
      exact .inl ((h.allocated f).mpr hf)
    · exact .inr hpath

def elfPfX : UInt32 := 1

def elfPfW : UInt32 := 2

def elfPfR : UInt32 := 4

def segmentFlags (flags : UInt32) : Entry :=
  let entry := if flags &&& elfPfW ≠ 0 then pteUser ||| pteReadwrite else pteUser
  if flags &&& elfPfX = 0 then entry ||| pteNx else entry

/-- A page of the direct map that the kernel alone can use, once `phys_map_is_ready`. -/
def vmmDirectMapValid (tables : Tables) (kernelPml4 physical : Phys) : Prop :=
  let virtual := physMapBase + physical.toNat
  let table (e : Entry) : Prop := e &&& (ptePresent ||| pteUser ||| pteHuge) = ptePresent
  physMapContains physical ∧ table (pml4e tables kernelPml4 virtual) ∧
    table (pdpte tables kernelPml4 virtual) ∧ table (pde tables kernelPml4 virtual) ∧
    pte tables kernelPml4 virtual &&& (ptePresent ||| pteUser) = ptePresent ∧
    frameOf (pte tables kernelPml4 virtual) = frameOf physical

instance (tables : Tables) (kernelPml4 physical : Phys) :
    Decidable (vmmDirectMapValid tables kernelPml4 physical) :=
  inferInstanceAs (Decidable (_ ∧ _ = _ ∧ _ = _ ∧ _ = _ ∧ _ = _ ∧ _ = _))

/-- The fields of `elf64_phdr_t` that `map_segment_page` reads. -/
structure Phdr where
  flags : UInt32
  offset : UInt64
  vaddr : UInt64
  filesz : UInt64

def addOverflows (left right : UInt64) : Prop := 2 ^ 64 ≤ left.toNat + right.toNat

instance (left right : UInt64) : Decidable (addOverflows left right) :=
  inferInstanceAs (Decidable (_ ≤ _))

/-- The end of `map_segment_page`, which fills the page from the file. `readAt` says which
reads give as many bytes as they ask for. -/
def segmentPageRead (readAt : UInt64 → UInt64 → Bool) (phdr : Phdr) (page segmentEnd : UInt64) :
    Bool :=
  let fileEnd := phdr.vaddr + phdr.filesz
  let copyStart := if phdr.vaddr < page then page else phdr.vaddr
  let copyEnd := if fileEnd < page + 0x1000 then fileEnd else page + 0x1000
  if phdr.filesz = 0 then true
  else if addOverflows phdr.vaddr phdr.filesz then false
  else if copyStart ≥ copyEnd ∨ copyStart ≥ segmentEnd then true
  else if addOverflows phdr.offset (copyStart - phdr.vaddr) then false
  else readAt (phdr.offset + (copyStart - phdr.vaddr)) (copyEnd - copyStart)

/-- A frame outside the direct map is not given back, and a page that cannot be read stays
mapped. -/
def mapSegmentPage (root : Phys) (readAt : UInt64 → UInt64 → Bool) (phdr : Phdr)
    (page segmentEnd : UInt64) : VmProg Bool := do
  match ← pmmAllocFrame with
  | none => return false
  | some frame => do
    let s ← Prog.get
    if ¬ vmmDirectMapValid s.tables s.kernelPml4 frame then return false
    else do
      let mapped ← vmmMapUserPage root page frame (segmentFlags phdr.flags)
      if mapped then return segmentPageRead readAt phdr page segmentEnd
      else do
        pmmFreeFrame frame
        return false

def syscallUserBufferValid (tables : Tables) (active : Option Phys) (buffer length : UInt64) :
    Bool :=
  if length = 0 then true else vmmUserRangeValid tables active buffer length

/-- A buffer that a system call stores to. -/
structure Output where
  buffer : UInt64
  length : UInt64
  data : List UInt8
  fits : data.length ≤ length.toNat

def Accepted (tables : Tables) (root : Phys) (outputs : List Output) : Prop :=
  ∀ o ∈ outputs, syscallUserBufferValid tables (some root) o.buffer o.length = true

def Stored (outputs : List Output) (a : Nat) : Prop :=
  ∃ o ∈ outputs, o.buffer.toNat ≤ a ∧ a < o.buffer.toNat + o.data.length

/-- User mode may write to the address: every level of the walk allows it. -/
structure UserWritable (tables : Tables) (root : Phys) (a : Nat) : Prop where
  low : a < userAddressLimit
  page : UserPage tables root a
  pml4e : has (pml4e tables root a) pteReadwrite
  pdpte : has (pdpte tables root a) pteReadwrite
  pde : has (pde tables root a) pteReadwrite
  pte : has (pte tables root a) pteReadwrite

variable {a : Nat} {root : Phys}

lemma Accepted.page {tables : Tables} {outputs : List Output}
    (h : Accepted tables root outputs) (ha : Stored outputs a) : UserPage tables root a := by
  obtain ⟨o, ho, hle, hlt⟩ := ha
  have hfits := o.fits
  have hvalid := h o ho
  unfold syscallUserBufferValid at hvalid
  split at hvalid
  · next hlen =>
    rw [hlen] at hfits
    simp only [UInt64.toNat_zero] at hfits
    omega
  · exact (vmmUserRangeValid_iff.mp hvalid).2 a hle (by omega)

lemma index_lt_of_user (ha : a < userAddressLimit) : index 39 a < 256 := by
  rw [index_eq]
  unfold userAddressLimit at ha
  omega

variable {s : Vm}

/-- The entries of its last tables being what the maps asked for, a page of a space is open
to writes as far as its own entry is. -/
lemma Owned.userWritable (h : Owned P s owner) (hslot : s.metadata slot = some space)
    (hlow : a < userAddressLimit) (hpage : UserPage s.tables space.root a)
    (hleaf : P (pte s.tables space.root a) → has (pte s.tables space.root a) pteReadwrite) :
    UserWritable s.tables space.root a := by
  obtain ⟨⟨hpml4e, -⟩, hwalk⟩ := h.walk hslot (index_lt_of_user hlow) hpage.pml4e.1
  obtain ⟨⟨hpdpte, -⟩, hwalk⟩ := hwalk hpage.pdpte.1
  obtain ⟨hpde, htable⟩ := hwalk hpage.pde.1
  refine ⟨hlow, hpage, hpml4e.readwrite, hpdpte.readwrite, hpde.readwrite, ?_⟩
  rcases (h.content _ _ htable).2 rfl (index 12 a) with hzero | hentry
  · have hpresent := hpage.pte.1
    rw [pte, hzero] at hpresent
    exact absurd hpresent (by decide)
  · exact hleaf hentry

/-- A page is loaded by the steps of the run; only a frame outside the direct map stays with
the loader. -/
lemma mapSegmentPage_run {s : Sys} {readAt : UInt64 → UInt64 → Bool} {phdr : Phdr}
    {page segmentEnd : UInt64} {supply : Nat → Option Phys} {chances : Nat → Bool} {r : Bool}
    {vm : Vm} {allowed : Phys → Entry → Prop} (h : Accounted P s)
    (hallowed : ∀ f, allowed f (segmentFlags phdr.flags))
    (hrun : mapSegmentPage root readAt phdr page segmentEnd (s.vm.answering supply chances) =
      (.ok r, vm)) : ∃ held, Relation.ReflTransGen (StepOn allowed) s ⟨vm, held⟩ ∧
        (r = true → held = s.held) := by
  obtain ⟨owner, howned, hheld⟩ := h
  obtain ⟨f, s1, halloc, hrest⟩ := Prog.bind_ok.mp hrun
  have hfirst := @StepOn.alloc allowed s supply chances f s1 halloc
  rcases (pmmAllocFrame_spec (howned.answering supply chances)).ok halloc with
    ⟨rfl, -⟩ | ⟨frame, rfl, hframe, -, -⟩
  · cases hrest
    refine ⟨s.held, .single ?_, fun _ => rfl⟩
    simpa using hfirst
  have hnot : ¬ s.held frame := by simp [← hheld, hframe]
  have hrelease (g : Phys) : ((s.held g ∨ some frame = some g) ∧ g ≠ frame) ↔ s.held g := by
    constructor
    · rintro ⟨hg | hg, hne⟩
      · exact hg
      · exact absurd (Option.some.inj hg).symm hne
    · intro hg
      exact ⟨.inl hg, fun hne => hnot (hne ▸ hg)⟩
  obtain ⟨s1', s1'', hget, hrest⟩ := Prog.bind_ok.mp hrest
  cases hget
  split at hrest
  · cases hrest
    exact ⟨_, .single hfirst, fun hr => Bool.noConfusion hr⟩
  obtain ⟨mapped, s2, hmap, hrest⟩ := Prog.bind_ok.mp hrest
  have hsecond := StepOn.map (s := ⟨s1, fun g => s.held g ∨ some frame = some g⟩) s1.supply
    s1.chances root page frame (segmentFlags phdr.flags) mapped s2 (.inr rfl) (hallowed frame) hmap
  cases mapped with
  | true =>
    cases hrest
    refine ⟨s.held, .head hfirst (.single ?_), fun _ => rfl⟩
    simpa only [forall_const, hrelease] using hsecond
  | false =>
    obtain ⟨⟨⟩, s3, hfree, hrest⟩ := Prog.bind_ok.mp hrest
    cases hrest
    simp only [Bool.false_eq_true, false_implies, and_true] at hsecond
    have hthird := @StepOn.free allowed ⟨s2, fun g => s.held g ∨ some frame = some g⟩ frame vm
      (.inr rfl) hfree
    simp only [hrelease] at hthird
    exact ⟨s.held, .head hfirst (.head hsecond (.single hthird)), fun _ => rfl⟩

def Vm.take (s : Vm) (f : Phys) : Vm :=
  { s with
    supply := fun n => s.supply (n + 1)
    allocated := fun g => if g = f then true else s.allocated g
    tables := s.tables.clear f }

def Vm.draw (s : Vm) : Vm := { s with chances := fun n => s.chances (n + 1) }

section

variable {f : Phys} {slot : Fin 64} {space : Space}

variable {E : Panic → Vm → Prop}

lemma wp_pmmAllocFrame {Q : Option Phys → Vm → Prop}
    (hs : s.supply 0 = some f) (hf : Frame f ∧ s.allocated f = false) (h : Q (some f) (s.take f)) :
    wp pmmAllocFrame Q E s := by
  unfold wp pmmAllocFrame
  simp only [hs, if_pos hf]
  exact h

variable {Q : Bool → Vm → Prop}

lemma wp_chance (hc : s.chances 0 = true) (h : Q true s.draw) : wp chance Q E s := by
  unfold wp chance
  simp only [hc]
  exact h

lemma wp_reserveTable {others : List Phys} {go : Phys → VmProg Bool}
    (hs : s.supply 0 = some f) (hf : Frame f ∧ s.allocated f = false)
    (hc : s.chances 0 = true) (h : wp (go f) Q E (s.take f).draw) :
    wp (reserveTable others go) Q E s := by
  refine wp_bind.mpr (wp_pmmAllocFrame hs hf (wp_bind.mpr (wp_chance hc ?_)))
  rwa [if_pos rfl]

lemma wp_userChildReserved {parent reserved : Phys} {i : Nat}
    {Q : Option Phys × List Phys → Vm → Prop}
    (hslot : s.metadata slot = some space) (hp : s.tables parent i = 0)
    (h : Q (some reserved, []) { s with
      metadata := replaceSlot s.metadata slot
        (some { space with tables := reserved :: space.tables })
      tables := s.tables.set parent i (reserved ||| (ptePresent ||| pteReadwrite ||| pteUser)) }) :
    wp (userChildReserved slot parent i reserved) Q E s := by
  refine wp_get_bind.mpr ?_
  simp only [hslot, hp]
  rw [if_neg (by decide)]
  exact h

end

/-- The tables of a kernel that maps nothing but the first 2 MiB of memory, directly. -/
def directTables : Tables := fun t i =>
  if t = 0x1000 ∧ i = 256 then 0x7003
  else if t = 0x7000 ∧ i = 0 then 0x8003
  else if t = 0x8000 ∧ i = 0 then 0x9003
  else if t = 0x9000 ∧ i < 512 then
    BitVec.ofNat 64 (i * pageSize) ||| pteReadwrite ||| pteNx ||| ptePresent
  else 0

def directLevel (t : Phys) : Option Nat :=
  if t = 0x1000 then some 4
  else if t = 0x7000 then some 3
  else if t = 0x8000 then some 2
  else if t = 0x9000 then some 1
  else none

def directSys : Sys where
  vm :=
    { tables := directTables
      allocated := fun f => (directLevel f).isSome
      freed := []
      kernelPml4 := 0x1000
      metadata := fun _ => none
      bootstrapMappingActive := false
      supply := fun _ => none
      chances := fun _ => true }
  held := fun _ => False

lemma directLevel_cases {t : Phys} {l : Nat} (h : directLevel t = some l) :
    t = 0x1000 ∧ l = 4 ∨ t = 0x7000 ∧ l = 3 ∨ t = 0x8000 ∧ l = 2 ∨ t = 0x9000 ∧ l = 1 := by
  unfold directLevel at h
  split at h
  · exact .inl ⟨‹_›, (Option.some.inj h).symm⟩
  split at h
  · exact .inr (.inl ⟨‹_›, (Option.some.inj h).symm⟩)
  split at h
  · exact .inr (.inr (.inl ⟨‹_›, (Option.some.inj h).symm⟩))
  split at h
  · exact .inr (.inr (.inr ⟨‹_›, (Option.some.inj h).symm⟩))
  · cases h

lemma directTables_entry {t : Phys} {l : Nat} (h : directLevel t = some l) (i : Nat) :
    directTables t i = 0 ∨ ¬ has (directTables t i) pteUser ∧
      (1 < l → directLevel (frameOf (directTables t i)) = some (l - 1)) := by
  rcases directLevel_cases h with ⟨rfl, rfl⟩ | ⟨rfl, rfl⟩ | ⟨rfl, rfl⟩ | ⟨rfl, rfl⟩
  · by_cases hi : i = 256
    · subst hi
      exact .inr (by decide)
    · exact .inl (by simp [directTables, hi])
  · by_cases hi : i = 0
    · subst hi
      exact .inr (by decide)
    · exact .inl (by simp [directTables, hi])
  · by_cases hi : i = 0
    · subst hi
      exact .inr (by decide)
    · exact .inl (by simp [directTables, hi])
  · by_cases hi : i < 512
    · have hclosed : ∀ i < 512, ¬ has (directTables 0x9000 i) pteUser := by decide +kernel
      exact .inr ⟨hclosed i hi, by omega⟩
    · exact .inl (by simp [directTables, hi])

/-- What the kernel's own tables are in every state of the run below. -/
lemma kernelTables_direct (hkernel : s.kernelPml4 = 0x1000)
    (htables : ∀ t, directLevel t ≠ none → s.tables t = directTables t) :
    KernelTables s directLevel where
  root := by
    rw [hkernel]
    rfl
  supervisor t l i ht := by
    rw [htables t (by simp [ht])]
    rcases directTables_entry ht i with hzero | ⟨hclosed, -⟩
    · rw [hzero]
      decide
    · exact hclosed
  below t l i ht hl hp := by
    rw [htables t (by simp [ht])] at hp ⊢
    rcases directTables_entry ht i with hzero | ⟨-, hbelow⟩
    · rw [hzero] at hp
      exact absurd hp (by decide)
    · exact hbelow hl

lemma directSys_boot : Boot directSys directLevel where
  kernel := kernelTables_direct rfl fun _ _ => rfl
  metadata := fun _ => rfl
  allocated := fun f => by simp [directSys, Option.isSome_iff_ne_none]
  frame := fun f hf => by
    obtain ⟨l, hl⟩ := Option.isSome_iff_exists.mp hf
    rcases directLevel_cases hl with ⟨rfl, -⟩ | ⟨rfl, -⟩ | ⟨rfl, -⟩ | ⟨rfl, -⟩ <;> decide
  apart := fun _ hf => hf.elim

/-- A space whose upper half is the kernel's passes the check after each map. -/
lemma addressSpaceValid_direct (hkernel : s.kernelPml4 = 0x1000)
    (htables : ∀ t, directLevel t ≠ none → s.tables t = directTables t)
    (hlower : ∀ i < 256, s.tables space.root i = 0 ∨ ownedTable space (s.tables space.root i))
    (hupper : ∀ i, 256 ≤ i → s.tables space.root i = directTables 0x1000 i)
    (hown : ∀ t ∈ space.tables, directLevel (frameOf t) = none) : AddressSpaceValid s space := by
  have hroot : s.tables s.kernelPml4 = directTables 0x1000 := by
    rw [hkernel]
    exact htables _ (by decide)
  refine ⟨fun i hi => ?_, fun i _ hi => ⟨fun hshared => ?_, fun hshared => ?_⟩, fun t ht => ?_⟩
  · refine (hlower i hi).imp_right fun ⟨hp, hu, hh, hm⟩ => ⟨hp, hu, hh, hm, fun hpresent => ?_⟩
    rw [hroot, directTables] at hpresent
    have hne : i ≠ 256 := by omega
    simp [hne, has] at hpresent
  · rw [hroot, hupper i hi]
    refine ⟨rfl, ?_⟩
    rcases @directTables_entry 0x1000 4 rfl i with hzero | ⟨hclosed, -⟩
    · rw [hzero]
      decide
    · exact hclosed
  · have hne : i ≠ 256 := by
      rintro rfl
      exact hshared (by decide)
    rw [hupper i hi]
    simp [directTables, hne]
  · exact (kernelTables_direct hkernel htables).not_reachesTable (hown t ht)

def createdTables : Tables := fun t => directTables (if t = 0x2000 then 0x1000 else t)

/-- The direct-map kernel after an address space was created. -/
structure Created (s : Vm) : Prop where
  tables : s.tables = createdTables
  kernelPml4 : s.kernelPml4 = 0x1000
  metadata : s.metadata = replaceSlot (fun _ => none) 0 (some ⟨0x2000, [], []⟩)

lemma vmmCreateAddressSpace_boot : wp vmmCreateAddressSpace (fun _ s => Created s ∧
        ∀ f ∈ [0x3000, 0x4000, 0x5000, 0x6000], s.allocated f = false) (fun _ _ => False)
      (directSys.vm.answering (fun _ => some 0x2000) fun _ => true) := by
  refine wp_bind.mpr (wp_pmmAllocFrame rfl (by decide) ?_)
  refine wp_get_bind.mpr ?_
  have htables : ((directSys.vm.answering (fun _ => some 0x2000) fun _ => true).take 0x2000).tables
      = directTables := by
    funext t i
    by_cases ht : t = 0x2000
    · simp [Vm.take, Vm.answering, directSys, Tables.clear, ht, directTables]
    · exact if_neg ht
  rw [if_neg]
  · refine wp_modify_bind.mpr (wp_get_bind.mpr ?_)
    refine wp_modify_bind.mpr (wp_get_bind.mpr ?_)
    have hcreated : (fun f i => if f = 0x2000 ∧ 256 ≤ i ∧ i < 512 ∧ kernelSharedPml4Index i then
        directTables 0x1000 i else directTables f i) = createdTables := by
      funext f i
      by_cases hf : f = 0x2000
      · by_cases hi : i = 256
        · subst hf hi
          decide
        · simp [createdTables, hf, hi, directTables]
      · rw [if_neg fun h => hf h.1, createdTables, if_neg hf]
    rw [htables]
    simp only [show ((directSys.vm.answering (fun _ => some 0x2000) fun _ => true).take
      0x2000).kernelPml4 = 0x1000 from rfl, hcreated]
    rw [if_pos]
    · exact ⟨⟨rfl, rfl, rfl⟩, by simp [directSys, Vm.take, Vm.answering, directLevel]⟩
    · refine addressSpaceValid_direct rfl (fun t ht => ?_) (fun i hi => .inl ?_) (fun i _ => rfl)
        (by simp)
      · have hne : t ≠ 0x2000 := by
          rintro rfl
          exact ht rfl
        exact congrArg directTables (if_neg hne)
      · have hne : i ≠ 256 := by omega
        simp [createdTables, directTables, hne]
  · rintro ⟨i, -, -, -, h⟩
    rw [htables] at h
    rcases @directTables_entry 0x1000 4 rfl i with hzero | ⟨hclosed, -⟩
    · exact absurd (hzero ▸ h) (by decide)
    · exact hclosed h

def imageFrames : Nat → Option Phys
  | 0 => some 0x3000
  | 1 => some 0x4000
  | 2 => some 0x5000
  | 3 => some 0x6000
  | _ => none

def imageTables (flags : Entry) : Tables :=
  (((createdTables.set 0x2000 0 0x4007).set 0x4000 0 0x5007).set 0x5000 2 0x6007).set 0x6000 0
    (leafEntry 0x3000 flags)

lemma imageTables_walk (flags : Entry) :
    pml4e (imageTables flags) 0x2000 0x400000 = 0x4007 ∧
      pdpte (imageTables flags) 0x2000 0x400000 = 0x5007 ∧
      pde (imageTables flags) 0x2000 0x400000 = 0x6007 ∧
      pte (imageTables flags) 0x2000 0x400000 = leafEntry 0x3000 flags := by
  have hpml4e : pml4e (imageTables flags) 0x2000 0x400000 = 0x4007 := by
    simp [pml4e, imageTables, Tables.set, index]
  have hpdpte : pdpte (imageTables flags) 0x2000 0x400000 = 0x5007 := by
    rw [pdpte, hpml4e]
    simp [imageTables, Tables.set, index, frameOf, pteFrameMask]
  have hpde : pde (imageTables flags) 0x2000 0x400000 = 0x6007 := by
    rw [pde, hpdpte]
    simp [imageTables, Tables.set, index, frameOf, pteFrameMask]
  refine ⟨hpml4e, hpdpte, hpde, ?_⟩
  rw [pte, hpde]
  simp [imageTables, Tables.set, index, frameOf, pteFrameMask]

lemma imageTables_other {flags : Entry} {t : Phys} (ht : directLevel t ≠ none) :
    imageTables flags t = directTables t := by
  obtain ⟨l, hl⟩ := Option.ne_none_iff_exists'.mp ht
  unfold imageTables
  rcases directLevel_cases hl with ⟨rfl, -⟩ | ⟨rfl, -⟩ | ⟨rfl, -⟩ | ⟨rfl, -⟩
  all_goals
    rw [Tables.set_other (by decide), Tables.set_other (by decide), Tables.set_other (by decide),
      Tables.set_other (by decide)]
    rfl

lemma imageTables_root {flags : Entry} {i : Nat} (hi : i ≠ 0) :
    imageTables flags 0x2000 i = directTables 0x1000 i := by
  simp [imageTables, Tables.set, hi, createdTables]

/-- The page at 0x400000 is mapped, and nothing else. -/
structure Loaded (flags : Entry) (s : Vm) : Prop where
  tables : s.tables = imageTables flags
  kernelPml4 : s.kernelPml4 = 0x1000
  metadata : s.metadata 0 = some ⟨0x2000, [0x6000, 0x5000, 0x4000], [0x3000]⟩

lemma metadataFind_first {space : Space} (h : s.metadata 0 = some space) :
    metadataFind s space.root = some (0, space) := by
  unfold metadataFind
  rw [List.finRange_succ, List.findSome?_cons, h]
  simp

section

variable {flags before : Entry}

lemma Created.metadata_first (h : Created s) : s.metadata 0 = some ⟨0x2000, [], []⟩ := by
  rw [h.metadata]
  rfl

lemma Created.userPathAvailable (h : Created s) :
    userPathAvailable s ⟨0x2000, [], []⟩ 0x400000 := by
  refine .inl ?_
  rw [pml4e, h.tables]
  decide

lemma createdTables_zero {t : Phys} (ht : t ≠ 0x2000) (hl : directLevel t = none) (i : Nat) :
    createdTables t i = 0 := by
  rw [createdTables, if_neg ht]
  unfold directLevel at hl
  split_ifs at hl
  simp_all [directTables]

lemma Created.take {f : Phys} (h : Created s) (ht : f ≠ 0x2000) (hl : directLevel f = none) :
    Created (s.take f) where
  tables := by
    funext t i
    by_cases hf : t = f
    · subst hf
      rw [createdTables_zero ht hl]
      exact if_pos rfl
    · rw [← h.tables]
      exact if_neg hf
  kernelPml4 := h.kernelPml4
  metadata := h.metadata

lemma Created.draw (h : Created s) : Created s.draw := ⟨h.tables, h.kernelPml4, h.metadata⟩

lemma mapReserved_created (h : Created s) (hbefore : before = 0) :
    wp (mapReserved 0x2000 0x400000 0x3000 flags before 0x4000 0x5000 0x6000)
      (fun r s' => r = true ∧ Loaded flags s') (fun _ _ => False) s := by
  refine wp_get_bind.mpr ?_
  simp only [metadataFind_first h.metadata_first]
  rw [if_neg (not_or.mpr ⟨not_not.mpr h.userPathAvailable, List.not_mem_nil⟩)]
  refine wp_bind.mpr (wp_userChildReserved h.metadata_first ?_ ?_)
  · rw [h.tables]
    decide
  refine wp_bind.mpr (wp_userChildReserved rfl ?_ ?_)
  · dsimp only
    rw [h.tables]
    decide
  refine wp_bind.mpr (wp_userChildReserved rfl ?_ ?_)
  · dsimp only
    rw [h.tables]
    decide
  refine wp_get_bind.mpr ?_
  refine wp_modify_bind.mpr (wp_modify_bind.mpr ?_)
  refine wp_get_bind.mpr ?_
  rw [h.tables, if_neg]
  · exact ⟨rfl, rfl, h.kernelPml4, rfl⟩
  rw [not_or, not_not, not_not]
  constructor
  · rw [h.kernelPml4, hbefore]
    exact congrFun (@imageTables_other flags 0x1000 (by decide)) 0
  · refine addressSpaceValid_direct h.kernelPml4 (fun t ht => imageTables_other ht) (fun i hi => ?_)
      (fun i hi => @imageTables_root flags i (by omega)) (by simp [frameOf, pteFrameMask, directLevel])
    by_cases hzero : i = 0
    · subst hzero
      refine .inr ?_
      show ownedTable _ (pml4e (imageTables flags) 0x2000 0x400000)
      rw [(imageTables_walk flags).1]
      exact ⟨by decide, by decide, by decide, by decide⟩
    · refine .inl ((@imageTables_root flags i hzero).trans ?_)
      have hne : i ≠ 256 := by omega
      simp [directTables, hne]

end

/-- A segment with one page at 0x400000 and no bytes in the file. -/
def imagePhdr (flags : UInt32) : Phdr := ⟨flags, 0, 0x400000, 0⟩

def loadImage (flags : UInt32) : VmProg Bool :=
  mapSegmentPage 0x2000 (fun _ _ => true) (imagePhdr flags) 0x400000 0x401000

lemma loadImage_created {flags : UInt32} (h : Created s)
    (hfree : ∀ f ∈ [0x3000, 0x4000, 0x5000, 0x6000], s.allocated f = false) :
    wp (loadImage flags) (fun r s' => r = true ∧ Loaded (segmentFlags flags) s')
      (fun _ _ => False) (s.answering imageFrames fun _ => true) := by
  have h' : Created (s.answering imageFrames fun _ => true) := ⟨h.tables, h.kernelPml4, h.metadata⟩
  have hframe : Created ((s.answering imageFrames fun _ => true).take 0x3000) :=
    h'.take (by decide) rfl
  refine wp_bind.mpr (wp_pmmAllocFrame rfl ⟨by decide, hfree _ (by simp)⟩ ?_)
  refine wp_get_bind.mpr ?_
  rw [if_neg (by rw [hframe.tables, hframe.kernelPml4]; decide)]
  refine wp_bind.mpr ?_
  have hmap : wp (vmmMapUserPage 0x2000 0x400000 0x3000 (segmentFlags flags))
      (fun r s' => r = true ∧ Loaded (segmentFlags flags) s') (fun _ _ => False)
      ((s.answering imageFrames fun _ => true).take 0x3000) := by
    refine wp_get_bind.mpr ?_
    rw [if_neg]
    · simp only [metadataFind_first hframe.metadata_first]
      rw [show UInt64.toNat 0x400000 = 0x400000 from rfl,
        if_neg (not_not.mpr hframe.userPathAvailable)]
      refine wp_bind.mpr (wp_chance rfl ?_)
      rw [if_neg (by simp)]
      refine wp_bind.mpr (wp_chance rfl ?_)
      rw [if_neg (by simp)]
      refine wp_reserveTable rfl ⟨by decide, ?_⟩ rfl ?_
      · simp [Vm.draw, Vm.take, Vm.answering, hfree]
      refine wp_reserveTable rfl ⟨by decide, ?_⟩ rfl ?_
      · simp [Vm.draw, Vm.take, Vm.answering, hfree]
      refine wp_reserveTable rfl ⟨by decide, ?_⟩ rfl ?_
      · simp [Vm.draw, Vm.take, Vm.answering, hfree]
      refine mapReserved_created (((hframe.draw.draw.take (by decide) rfl).draw.take
        (by decide) rfl).draw.take (by decide) rfl).draw ?_
      rw [hframe.tables, hframe.kernelPml4]
      decide
    · rw [hframe.kernelPml4, segmentFlags]
      split <;> split <;> decide
  refine hmap.mono ?_ fun _ _ he => he
  rintro _ s' ⟨rfl, hloaded⟩
  exact ⟨rfl, hloaded⟩

/-- From the start the kernel creates a space and loads the page. -/
lemma directSys_loads {allowed : Phys → Entry → Prop} {flags : UInt32}
    (hallowed : ∀ f, allowed f (segmentFlags flags)) : ∃ vm,
    Relation.ReflTransGen (StepOn allowed) directSys ⟨vm, directSys.held⟩ ∧
      Loaded (segmentFlags flags) vm := by
  rcases hcreate : vmmCreateAddressSpace (directSys.vm.answering (fun _ => some 0x2000)
    fun _ => true) with ⟨r | r, s⟩
  · exact (vmmCreateAddressSpace_boot.error hcreate).elim
  obtain ⟨hcreated, hfree⟩ := vmmCreateAddressSpace_boot.ok hcreate
  have hfirst := @StepOn.create allowed directSys _ _ r s hcreate
  have hload : wp (loadImage flags) _ _ _ := loadImage_created hcreated hfree
  rcases hmap : loadImage flags (s.answering imageFrames fun _ => true) with ⟨b | b, vm⟩
  · exact (hload.error hmap).elim
  obtain ⟨rfl, hloaded⟩ := hload.ok hmap
  have haccounted : Accounted (fun _ => True) ⟨s, directSys.held⟩ :=
    directSys_boot.accounted.step (fun _ _ _ => trivial) hfirst
  obtain ⟨held, hrun, hheld⟩ := mapSegmentPage_run haccounted hallowed hmap
  obtain rfl := hheld rfl
  exact ⟨vm, .head hfirst hrun, hloaded⟩

lemma Loaded.unmaps {flags : UInt32} (h : Loaded (segmentFlags flags) s) :
    wp (vmmUnmapUserPage 0x2000 0x400000) (fun r s' => r = some 0x3000 ∧
        s'.metadata 0 = some ⟨0x2000, [0x6000, 0x5000, 0x4000], []⟩) (fun _ _ => False)
      (s.answering (fun _ => none) fun _ => true) := by
  obtain ⟨hpml4e, hpdpte, hpde, hpte⟩ := imageTables_walk (segmentFlags flags)
  have hleaf : frameOf (leafEntry 0x3000 (segmentFlags flags)) = 0x3000 := by
    unfold segmentFlags
    split <;> split <;> decide
  have hmeta : (s.answering (fun _ => none) fun _ => true).metadata 0 =
      some ⟨0x2000, [0x6000, 0x5000, 0x4000], [0x3000]⟩ := h.metadata
  refine wp_get_bind.mpr ?_
  rw [if_neg]
  · simp only [metadataFind_first hmeta]
    refine wp_bind.mpr (wp_chance rfl ?_)
    rw [show UInt64.toNat 0x400000 = 0x400000 from rfl, if_neg (by simp),
      show (s.answering (fun _ => none) fun _ => true).tables = imageTables (segmentFlags flags)
        from h.tables, hpml4e, hpdpte, hpde, hpte, hleaf, if_neg]
    · exact ⟨rfl, rfl⟩
    · simp only [not_or, not_not]
      refine ⟨by decide, by decide, by decide, ?_, ?_, by decide⟩
      · exact has_or.mpr (.inr (by decide))
      · exact has_or.mpr (.inl (has_or.mpr (.inr (by decide))))
  · show ¬ (0x2000 = s.kernelPml4 ∨ _)
    rw [h.kernelPml4]
    decide

/-- In every state reached, process roots share only supervisor branches and
build their lower half from tables of their own, no table has two owners,
tear-down gives every frame back once, and failed mappings keep no stray frame. -/
theorem address_spaces_isolated {s₀ s : Sys} {level : Phys → Option Nat} (hboot : Boot s₀ level)
    (hrun : Relation.ReflTransGen Step s₀ s) : (∀ slot space, s.vm.metadata slot = some space →
      BranchesClosed s.vm space.root ∧ LowerOwned s.vm space ∧ DestroysOnce s.vm space) ∧
    (∀ slot slot' space space' f, s.vm.metadata slot = some space →
      s.vm.metadata slot' = some space' → f ∈ space.tables → f ∈ space'.frames →
      slot = slot' ∧ f ∈ space'.tables) ∧ FailedMapsReturn s.vm := by
  obtain ⟨owner, h, -⟩ := (hboot.accounted (P := fun _ => True)).run (fun _ _ h => h) hrun
  refine ⟨fun slot space hslot => ⟨h.branchesClosed hslot, h.lowerOwned hslot, h.destroysOnce hslot⟩,
    fun slot slot' space space' f hslot hslot' hf hf' => ?_, h.failedMapsReturn⟩
  obtain ⟨l, hl⟩ := ((h.spaces slot space hslot).mem_tables f).mp hf
  obtain ⟨o, ho, hspace⟩ := (mem_frames h hslot').mp hf'
  rw [hl] at ho
  cases ho
  have hroot := Option.some.inj hspace
  obtain rfl := h.slot_unique _ _ _ _ hslot hslot' hroot
  obtain rfl : space = space' := Option.some.inj (hslot.symm.trans hslot')
  exact ⟨rfl, hf⟩

/-- A space is created, a page of it mapped and unmapped, and the space destroyed. -/
theorem address_spaces_isolated_run : ∃ mapped unmapped destroyed : Sys,
    Relation.ReflTransGen Step directSys mapped ∧ Step mapped unmapped ∧
    Step unmapped destroyed ∧
    LowerOwned mapped.vm ⟨0x2000, [0x6000, 0x5000, 0x4000], [0x3000]⟩ ∧
    DestroysOnce mapped.vm ⟨0x2000, [0x6000, 0x5000, 0x4000], [0x3000]⟩ ∧
    unmapped.held 0x3000 ∧ BranchesClosed unmapped.vm 0x2000 ∧
    destroyed.vm.freed = unmapped.vm.freed ++ [0x2000, 0x6000, 0x5000, 0x4000] ∧
    FailedMapsReturn destroyed.vm := by
  obtain ⟨vm, hrun, hloaded⟩ := @directSys_loads (fun _ _ => True) elfPfR fun _ => trivial
  have hmapped := (address_spaces_isolated directSys_boot hrun).1 0 _ hloaded.metadata
  rcases hunmap : vmmUnmapUserPage 0x2000 0x400000 (vm.answering (fun _ => none) fun _ => true)
    with ⟨r | r, vm'⟩
  · exact (hloaded.unmaps.error hunmap).elim
  obtain ⟨rfl, hmeta⟩ := hloaded.unmaps.ok hunmap
  have hstep := @StepOn.unmap (fun _ _ => True) ⟨vm, directSys.held⟩ _ _ 0x2000 0x400000 _ vm' hunmap
  have hunmapped := (address_spaces_isolated directSys_boot (hrun.tail hstep)).1 0 _ hmeta
  obtain ⟨vm'', hdestroy, hfreed, -⟩ := hunmapped.2.2 (fun _ => none) (fun _ => true) rfl
  have hlast := @StepOn.destroy (fun _ _ => True)
    ⟨vm', fun g => directSys.held g ∨ some 0x3000 = some g⟩ _ _ 0x2000 _ vm'' hdestroy
  exact ⟨_, _, _, hrun, hstep, hlast, hmapped.2.1, hmapped.2.2, .inr rfl, hunmapped.1, hfreed,
    (address_spaces_isolated directSys_boot ((hrun.tail hstep).tail hlast)).2.2⟩

/-- In every state reached, a frame of an address space is allocated, held by no caller, and in no
other address space. -/
theorem frame_of_one_space {s₀ s : Sys} {level : Phys → Option Nat} (hboot : Boot s₀ level)
    (hrun : Relation.ReflTransGen Step s₀ s) {slot : Fin 64} {space : Space} {f : Phys}
    (hslot : s.vm.metadata slot = some space) (hf : f ∈ space.frames) : s.vm.allocated f = true ∧ f ≠ s.vm.kernelPml4 ∧ ¬ s.held f ∧
      ∀ slot' space', s.vm.metadata slot' = some space' → f ∈ space'.frames → slot' = slot := by
  obtain ⟨owner, h, hheld⟩ := (hboot.accounted (P := fun _ => True)).run (fun _ _ h => h) hrun
  obtain ⟨o, ho, hspace⟩ := (mem_frames h hslot).mp hf
  refine ⟨(h.allocated f).mpr (by simp [ho]), ?_, ?_, fun slot' space' hslot' hf' => ?_⟩
  · rintro rfl
    cases ho.symm.trans h.kernelPml4
    cases hspace
  · intro hf'
    cases ho.symm.trans ((hheld f).mpr hf')
    cases hspace
  · obtain ⟨o', ho', hspace'⟩ := (mem_frames h hslot').mp hf'
    cases ho.symm.trans ho'
    exact h.slot_unique _ _ _ _ hslot' hslot (Option.some.inj (hspace'.symm.trans hspace))

/-- A page of an image in the only address space there is. -/
theorem frame_of_one_space_loaded : ∃ s : Sys, Relation.ReflTransGen Step directSys s ∧
    s.vm.allocated 0x3000 = true ∧ ¬ s.held 0x3000 := by
  obtain ⟨vm, hrun, hloaded⟩ := @directSys_loads (fun _ _ => True) elfPfR fun _ => trivial
  have h := frame_of_one_space (f := 0x3000) directSys_boot hrun hloaded.metadata
    (by simp [Space.frames])
  exact ⟨_, hrun, h.1, h.2.2.1⟩

/-- The frames of `frames` are mapped for user mode only with the write bit. -/
def MapsWritable (frames : Set Phys) (physical : Phys) (flags : Entry) : Prop :=
  frameOf (leafEntry physical flags) ∈ frames → has flags pteReadwrite

/-- After every run that maps certain frames only writable, what a system call stores into
these frames, below the user limit, goes to pages its caller may write. -/
theorem syscallStores_writable {s₀ s : Sys} {level : Phys → Option Nat} {frames : Set Phys}
    (hboot : Boot s₀ level) (hrun : Relation.ReflTransGen (StepOn (MapsWritable frames)) s₀ s)
    {slot : Fin 64} {space : Space} (hslot : s.vm.metadata slot = some space)
    {outputs : List Output} (haccepted : Accepted s.vm.tables space.root outputs)
    (hframes : ∀ a, Stored outputs a →
      a < userAddressLimit ∧ frameOf (pte s.vm.tables space.root a) ∈ frames) :
    ∀ a, Stored outputs a → UserWritable s.vm.tables space.root a := by
  have hmaps (f : Phys) (flags : Entry) (h : MapsWritable frames f flags) :
      frameOf (leafEntry f flags) ∈ frames → has (leafEntry f flags) pteReadwrite := by
    intro hmem
    exact has_or.mpr (.inl (has_or.mpr (.inl (has_or.mpr (.inr (h hmem))))))
  obtain ⟨owner, howned, -⟩ := (hboot.accounted
    (P := fun e => frameOf e ∈ frames → has e pteReadwrite)).run hmaps hrun
  intro a ha
  obtain ⟨hlow, hmem⟩ := hframes a ha
  exact howned.userWritable hslot hlow (haccepted.page ha) fun hentry => hentry hmem

def imageOutput : Output where
  buffer := 0x400000
  length := 1
  data := [0]
  fits := by decide

lemma stored_imageOutput : Stored [imageOutput] a ↔ a = 0x400000 := by
  constructor
  · rintro ⟨o, ho, hle, hlt⟩
    obtain rfl := List.mem_singleton.mp ho
    exact Nat.le_antisymm (Nat.lt_succ_iff.mp hlt) hle
  · rintro rfl
    exact ⟨_, List.mem_singleton.mpr rfl, by decide⟩

lemma Loaded.accepted {flags : Entry} (h : Loaded flags s) :
    Accepted s.tables 0x2000 [imageOutput] := by
  obtain ⟨hpml4e, hpdpte, hpde, hpte⟩ := imageTables_walk flags
  rw [← h.tables] at hpml4e hpdpte hpde hpte
  intro o ho
  obtain rfl := List.mem_singleton.mp ho
  show vmmUserRangeValid s.tables (some 0x2000) 0x400000 1 = true
  refine vmmUserRangeValid_iff.mpr ⟨by decide, fun a hle hlt => ?_⟩
  obtain rfl : a = 0x400000 := Nat.le_antisymm (Nat.lt_succ_iff.mp hlt) hle
  refine ⟨?_, ?_, ?_, ?_⟩
  · rw [hpml4e]
    decide
  · rw [hpdpte]
    decide
  · rw [hpde]
    decide
  · rw [hpte]
    exact ⟨has_or.mpr (.inr (by decide)), has_or.mpr (.inl (has_or.mpr (.inr (by decide))))⟩

/-- A system call stores into the code of a process, which is loaded read-only. -/
theorem readonly_page_stored : ∃ s : Sys, Relation.ReflTransGen Step directSys s ∧
    s.vm.metadata 0 = some ⟨0x2000, [0x6000, 0x5000, 0x4000], [0x3000]⟩ ∧
      Accepted s.vm.tables 0x2000 [imageOutput] ∧ Stored [imageOutput] 0x400000 ∧
      ¬ UserWritable s.vm.tables 0x2000 0x400000 := by
  obtain ⟨vm, hrun, hloaded⟩ :=
    @directSys_loads (fun _ _ => True) (elfPfR ||| elfPfX) fun _ => trivial
  refine ⟨_, hrun, hloaded.metadata, hloaded.accepted, stored_imageOutput.mpr rfl, fun hw => ?_⟩
  have hleaf := hw.pte
  rw [hloaded.tables, (imageTables_walk _).2.2.2] at hleaf
  exact absurd hleaf (by decide)

/-- A page of a data segment. -/
theorem syscallStores_writable_data : ∃ s : Sys,
    Relation.ReflTransGen (StepOn (MapsWritable (Set.singleton 0x3000))) directSys s ∧
    Accepted s.vm.tables 0x2000 [imageOutput] ∧ Stored [imageOutput] 0x400000 ∧
      ∀ a, Stored [imageOutput] a → UserWritable s.vm.tables 0x2000 a := by
  obtain ⟨vm, hrun, hloaded⟩ := @directSys_loads (MapsWritable (Set.singleton 0x3000))
    (elfPfR ||| elfPfW) fun _ _ => by decide
  refine ⟨_, hrun, hloaded.accepted, stored_imageOutput.mpr rfl, ?_⟩
  refine syscallStores_writable directSys_boot hrun hloaded.metadata hloaded.accepted ?_
  intro a ha
  obtain rfl := stored_imageOutput.mp ha
  refine ⟨by decide, ?_⟩
  rw [hloaded.tables, (imageTables_walk _).2.2.2]
  exact Set.mem_singleton_iff.mpr (by decide)

end Mangrove.Vmm
