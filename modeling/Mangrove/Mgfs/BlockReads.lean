import Mangrove.Mgfs.WriteFile

/-! Reading one logical block of a record, where the readers check more than the walk over
the extents, and finding the block of a place in a directory's stream. -/

namespace Mangrove.Mgfs

lemma inDataArea_iff {l : Layout} {p n : Nat} (hn : n ≠ 0) :
    inDataArea l p n ↔ ∀ b, p ≤ b → b < p + n → InData l b := by
  rw [inDataArea]
  constructor
  · rintro ⟨h1, h2, h3⟩ b hb hb'
    exact ⟨by omega, by omega⟩
  · intro h
    have h1 := h p (by omega) (by omega)
    have h2 := h (p + n - 1) (by omega) (by omega)
    unfold InData at h1 h2
    omega

lemma inDataArea_zero {l : Layout} {p : Nat} : inDataArea l p 0 ↔ InData l p := by
  rw [inDataArea, InData]
  omega

/-- The extents lie in ascending order on the device. -/
def Ascending : Nat → List Extent → Prop
  | _, [] => True
  | start, e :: es => start ≤ e.physicalStart ∧ Ascending (e.physicalStart + e.blockCount) es

/-- The block behind the last of the extents. -/
def lastEnd (start : Nat) (es : List Extent) : Nat :=
  es.foldl (fun _ e => e.physicalStart + e.blockCount) start

/-- One extent passes the checks of the walk, which then stands behind it. -/
structure StepOk (w : World) (requested flag : Nat) (ordered : Bool) (s : WalkState) (e : Extent)
    (u : WalkState) : Prop where
  blockCount : e.blockCount ≠ 0
  flags : e.flags = flag
  logicalStart : e.logicalStart = s.expectedLogicalBlock
  order : s.previousPhysicalEnd ≤ e.physicalStart
  bound : e.blockCount ≤ u64Max - e.logicalStart
  inData : inDataArea w.fs.layout e.physicalStart e.blockCount
  count : s.extentCount + 1 ≤ w.fs.layout.recordCount
  read : readRequested w e requested s.found = .ok u.found
  expected : u.expectedLogicalBlock = s.expectedLogicalBlock + e.blockCount
  previous : u.previousPhysicalEnd =
    if ordered then e.physicalStart + e.blockCount else s.previousPhysicalEnd
  extentCount : u.extentCount = s.extentCount + 1

lemma validateExtent_ok {w : World} {k : Nat} {s u : WalkState} {e : Extent}
    (hs : s.previousPhysicalEnd = 0) :
    validateExtent w k s e = .ok u ↔ StepOk w k extentDirectoryMetadata false s e u := by
  simp only [validateExtent, except_bind_ok, ensure_ok, exists_const, pure, Except.pure,
    Except.ok.injEq, not_or, not_not, Nat.not_lt, gt_iff_lt]
  constructor
  · rintro ⟨⟨h1, h2, h3, h5, h6⟩, found, hf, hc, rfl⟩
    exact ⟨h1, h2, h3, by omega, h5, h6, hc, hf, rfl, rfl, rfl⟩
  · intro h
    refine ⟨⟨h.blockCount, h.flags, h.logicalStart, h.bound, h.inData⟩, u.found, h.read,
      h.count, ?_⟩
    obtain ⟨a, b, c, d⟩ := u
    have h1 := h.expected
    have h2 := h.previous
    have h3 := h.extentCount
    simp only [Bool.false_eq_true, if_false] at h1 h2 h3
    rw [h1, h2, h3]

/-- The block of the device at which the `k`-th block of the extents lies. -/
def placeOf (start : Nat) (es : List Extent) (k : Nat) : Option Nat :=
  if start ≤ k then (extentBlocks es)[k - start]? else none

lemma placeOf_cons {start k : Nat} {e : Extent} {es : List Extent} : placeOf start (e :: es) k =
      if start ≤ k ∧ k - start < e.blockCount then some (e.physicalStart + (k - start))
      else placeOf (start + e.blockCount) es k := by
  rw [placeOf, placeOf, extentBlocks_cons]
  have hlen : e.blocks.length = e.blockCount := List.length_range'
  by_cases h1 : start ≤ k
  · by_cases h2 : k - start < e.blockCount
    · rw [if_pos h1, if_pos ⟨h1, h2⟩, List.getElem?_append_left (by omega), Extent.blocks,
        List.getElem?_range' h2, Nat.one_mul]
    · rw [if_pos h1, if_neg (fun h => h2 h.2), if_pos (by omega),
        List.getElem?_append_right (by omega), hlen, Nat.sub_add_eq]
  · rw [if_neg h1, if_neg (fun h => h1 h.1), if_neg (by omega)]

lemma readRequested_ok {w : World} (hm : Mounted w) {e : Extent} {k : Nat} {found f : Option Buf}
    (hin : ∀ b, e.physicalStart ≤ b → b < e.physicalStart + e.blockCount → InData w.fs.layout b) :
    readRequested w e k found = .ok f ↔
      if e.logicalStart ≤ k ∧ k - e.logicalStart < e.blockCount then
        w.env.readable (e.physicalStart + (k - e.logicalStart)) = true ∧
          f = some (w.dev.block (e.physicalStart + (k - e.logicalStart)))
      else f = found := by
  rw [readRequested]
  by_cases h : e.logicalStart ≤ k ∧ k - e.logicalStart < e.blockCount
  · rw [if_pos h, if_pos h, except_bind_ok]
    have hb := hin (e.physicalStart + (k - e.logicalStart)) (by omega) (by omega)
    constructor
    · rintro ⟨x, hx, hf⟩
      obtain ⟨-, -, -, hr, rfl⟩ := readBlock_ok.mp hx
      cases hf
      exact ⟨hr, rfl⟩
    · rintro ⟨hr, rfl⟩
      exact ⟨_, hm.readBlock (hm.inData_lt hb) hr, rfl⟩
  · rw [if_neg h, if_neg h]
    exact ⟨fun h => (Except.ok.inj h).symm, fun h => by rw [h]; rfl⟩

/-- The state of the walk behind all of the extents. -/
def walked (w : World) (ordered : Bool) (k : Nat) (s : WalkState) (es : List Extent) : WalkState where
  expectedLogicalBlock := s.expectedLogicalBlock + covered es
  previousPhysicalEnd := if ordered then lastEnd s.previousPhysicalEnd es else s.previousPhysicalEnd
  extentCount := s.extentCount + es.length
  found := match placeOf s.expectedLogicalBlock es k with
    | some b => some (w.dev.block b)
    | none => s.found

lemma walked_nil (w : World) (ordered : Bool) (k : Nat) (s : WalkState) :
    walked w ordered k s [] = s := by
  simp [walked, placeOf, covered, lastEnd, extentBlocks]

lemma placeOf_nil (start k : Nat) : placeOf start [] k = none := by
  simp [placeOf, extentBlocks]

lemma walked_cons (w : World) (ordered : Bool) (k : Nat) (s : WalkState) (e : Extent)
    (es : List Extent) :
    walked w ordered k s (e :: es) = walked w ordered k (walked w ordered k s [e]) es := by
  simp only [walked, covered_cons, placeOf_cons, placeOf_nil, List.length_cons, List.length_nil]
  congr 1
  · simp [covered, Nat.add_assoc]
  · cases ordered <;> rfl
  · omega
  · by_cases h : s.expectedLogicalBlock ≤ k ∧ k - s.expectedLogicalBlock < e.blockCount
    · have hn : placeOf (s.expectedLogicalBlock + (e.blockCount + covered [])) es k = none := by
        rw [placeOf, if_neg]
        omega
      simp only [if_pos h, hn]
    · simp only [if_neg h, covered, List.map_nil, List.sum_nil, Nat.add_zero]

section

variable {w : World} (hm : Mounted w) {k flag : Nat} {ordered : Bool}

include hm

lemma stepOk_iff {s u : WalkState} {e : Extent} (hl : Laid flag s.expectedLogicalBlock [e])
    (hcov : s.expectedLogicalBlock + e.blockCount < 2 ^ 64)
    (hin : ∀ b, e.physicalStart ≤ b → b < e.physicalStart + e.blockCount → InData w.fs.layout b) :
    StepOk w k flag ordered s e u ↔ s.previousPhysicalEnd ≤ e.physicalStart ∧
      s.extentCount + 1 ≤ w.fs.layout.recordCount ∧
      (∀ b, placeOf s.expectedLogicalBlock [e] k = some b → w.env.readable b = true) ∧
      u = walked w ordered k s [e] := by
  obtain ⟨h1, h2, h3, -⟩ := hl
  have hread := @readRequested_ok w hm e k s.found u.found hin
  rw [h1] at hread
  simp only [walked, placeOf_cons, placeOf_nil]
  constructor
  · intro h
    obtain ⟨a, b, c, d⟩ := u
    have hr := hread.mp h.read
    refine ⟨h.order, h.count, ?_, ?_⟩
    · intro b hb
      split at hb
      · rename_i hk
        rw [if_pos hk] at hr
        cases hb
        exact hr.1
      · cases hb
    · have ha := h.expected
      have hb := h.previous
      have hc := h.extentCount
      simp only at ha hb hc hr
      rw [ha, hb, hc]
      congr 1
      split at hr
      · rename_i hk
        rw [if_pos hk]
        exact hr.2
      · rename_i hk
        rw [if_neg hk]
        exact hr
  · rintro ⟨ho, hc, hb, rfl⟩
    refine ⟨h2, h3, h1, ho, ?_, (inDataArea_iff h2).mpr hin, hc, hread.mpr ?_, rfl, rfl, rfl⟩
    · rw [h1, show u64Max = 2 ^ 64 - 1 from rfl]
      omega
    · split
      · rename_i hk
        rw [if_pos hk] at hb
        exact ⟨hb _ rfl, rfl⟩
      · rfl

variable {step : WalkState → Extent → Res WalkState}
  (hstep : ∀ s e u, (ordered = false → s.previousPhysicalEnd = 0) → (step s e = .ok u ↔ StepOk w k flag ordered s e u))

include hstep

lemma walk_foldlM {es : List Extent} {s u : WalkState}
    (hs : ordered = false → s.previousPhysicalEnd = 0) (hl : Laid flag s.expectedLogicalBlock es)
    (hcov : s.expectedLogicalBlock + covered es < 2 ^ 64)
    (hin : ∀ b ∈ extentBlocks es, InData w.fs.layout b) : es.foldlM step s = .ok u ↔
      (ordered = true → Ascending s.previousPhysicalEnd es) ∧
      (es ≠ [] → s.extentCount + es.length ≤ w.fs.layout.recordCount) ∧
      (∀ b, placeOf s.expectedLogicalBlock es k = some b → w.env.readable b = true) ∧
      u = walked w ordered k s es := by
  induction es generalizing s with
  | nil =>
    rw [List.foldlM_nil, walked_nil, placeOf_nil]
    constructor
    · intro h
      cases h
      exact ⟨fun _ => trivial, nofun, nofun, rfl⟩
    · rintro ⟨-, -, -, rfl⟩
      rfl
  | cons e es ih =>
    obtain ⟨h1, h2, h3, h4⟩ := hl
    rw [covered_cons] at hcov
    rw [add64_of_lt (by omega)] at h4
    have hine : ∀ b, e.physicalStart ≤ b → b < e.physicalStart + e.blockCount →
        InData w.fs.layout b :=
      fun b hb hb' => hin b (mem_extentBlocks.mpr ⟨e, by simp, hb, hb'⟩)
    have hinr : ∀ b ∈ extentBlocks es, InData w.fs.layout b := by
      intro b hb
      rw [extentBlocks_cons] at hin
      exact hin b (List.mem_append_right _ hb)
    have hexp : (walked w ordered k s [e]).expectedLogicalBlock =
        s.expectedLogicalBlock + e.blockCount := by
      simp [walked, covered]
    have hprev : ordered = false → (walked w ordered k s [e]).previousPhysicalEnd = 0 := by
      rintro rfl
      exact hs rfl
    rw [List.foldlM_cons, except_bind_ok, walked_cons]
    simp only [hstep _ _ _ hs, stepOk_iff hm ⟨h1, h2, h3, trivial⟩ (by omega) hine]
    constructor
    · rintro ⟨t, ⟨ho, hc, hb, rfl⟩, hf⟩
      obtain ⟨g1, g2, g3, g4⟩ := (ih hprev (by rw [hexp]; exact h4) (by rw [hexp]; omega) hinr).mp hf
      refine ⟨fun h => ⟨ho, ?_⟩, fun _ => ?_, fun b h => ?_, g4⟩
      · subst h
        exact g1 rfl
      · by_cases hnil : es = []
        · simpa [hnil] using hc
        · have := g2 hnil
          simp only [walked, List.length_cons, List.length_nil] at this
          rw [List.length_cons]
          omega
      · rw [placeOf_cons] at h hb
        by_cases hk : s.expectedLogicalBlock ≤ k ∧ k - s.expectedLogicalBlock < e.blockCount
        · rw [if_pos hk] at h hb
          exact hb b h
        · rw [if_neg hk] at h
          exact g3 b (by rw [hexp]; exact h)
    · rintro ⟨h5, h6, h7, rfl⟩
      refine ⟨_, ⟨?_, ?_, fun b h => h7 b ?_, rfl⟩,
        (ih hprev (by rw [hexp]; exact h4) (by rw [hexp]; omega) hinr).mpr
          ⟨fun h => ?_, fun hnil => ?_, fun b h => h7 b ?_, rfl⟩⟩
      · cases ordered with
        | false => rw [hs rfl]; exact Nat.zero_le _
        | true => exact (h5 rfl).1
      · have := h6 (by simp)
        rw [List.length_cons] at this
        omega
      · rw [placeOf_cons] at h ⊢
        by_cases hk : s.expectedLogicalBlock ≤ k ∧ k - s.expectedLogicalBlock < e.blockCount
        · rw [if_pos hk] at h ⊢
          exact h
        · rw [if_neg hk, placeOf_nil] at h
          cases h
      · subst h
        exact (h5 rfl).2
      · have := h6 (by simp)
        simp only [walked, List.length_cons, List.length_nil] at this ⊢
        omega
      · rw [placeOf_cons, if_neg]
        · rw [hexp] at h
          exact h
        · rw [hexp, placeOf] at h
          split at h
          · omega
          · cases h

end

lemma enterList_ok {w : World} {r b : Buf} {m : ListMessages} {s : WalkState} {list n : Nat} :
    enterList w r m s list = .ok (b, n) ↔
      s.extentCount < getLe64 r 40 ∧ readBlock w list = .ok b ∧ n = getLe64 b 24 ∧
        ListBlockOk b (getLe64 r 16) ∧ (∀ i < (24 : Nat), b (40 + i) = 0) ∧
        getLe64 b 16 ≠ list ∧ InData w.fs.layout list := by
  simp only [enterList, except_bind_ok, ensure_ok, orElse_ok, exists_const, pure, Except.pure,
    Except.ok.injEq, Prod.mk.injEq, inDataArea_zero]
  constructor
  · rintro ⟨x, ⟨hlt, hr⟩, ⟨hm, ho⟩, he, hres, hc, ⟨hself, hin⟩, rfl, rfl⟩
    exact ⟨hlt, hr, rfl, ⟨hm, ho, he.1, he.2, hc⟩, hres, hself, hin⟩
  · rintro ⟨hlt, hr, rfl, hl, hres, hself, hin⟩
    exact ⟨b, ⟨hlt, hr⟩, ⟨hl.magic, hl.owner⟩, ⟨hl.entries_ne, hl.entries_le⟩, hres, hl.checksum,
      ⟨hself, hin⟩, rfl, rfl⟩

lemma Chain.next_ne {block : Nat → Buf} {list : Nat} {ls : List Nat} (h : Chain block list ls) :
    ∀ b ∈ ls, getLe64 (block b) 16 ≠ b := by
  induction h with
  | nil => nofun
  | @cons list rest hne hr ih =>
    intro b hb
    rcases List.mem_cons.mp hb with rfl | hb
    · intro hself
      have hlen := congrArg List.length ((Chain.cons hne hr).unique (hself ▸ hr))
      simp at hlen
    · exact ih b hb

/-- What the walk checks beyond the collection of the extents. -/
structure Readable (w : World) (es : List Extent) (ls : List Nat) (ordered : Bool) : Prop where
  ascending : ordered = true → Ascending 0 es
  count : es ≠ [] → es.length ≤ w.fs.layout.recordCount
  reserved : ∀ b ∈ ls, ∀ i < (24 : Nat), (vol w).block b (40 + i) = 0

section

variable {w : World} (hm : Mounted w) {r : Buf} {k flag : Nat} {ordered : Bool} {es : List Extent}
  {ls : List Nat} (hmap : Mapped w r flag es ls) {step : WalkState → Extent → Res WalkState}
  (hstep : ∀ s e u, (ordered = false → s.previousPhysicalEnd = 0) → (step s e = .ok u ↔ StepOk w k flag ordered s e u))

include hm hmap hstep

omit hm hstep in
lemma Mapped.length_before {pre post : List Nat} {l : Nat} (h : ls = pre ++ l :: post) :
    (extentList r 0 (getLe64 r 48) ++ listExtents w.dev.block pre).length < getLe64 r 40 := by
  have hcol := hmap.onDevice
  have hlen := hcol.length
  have hne := (hcol.lists l (by rw [h]; simp)).entries_ne
  have hsplit : (listExtents w.dev.block (l :: post)).length =
      getLe64 (w.dev.block l) 24 + (listExtents w.dev.block post).length := by
    rw [listExtents, List.flatMap_cons, List.length_append, length_extentList]
    rfl
  rw [hcol.extents, h, listExtents_append, ← List.append_assoc, List.length_append, hsplit] at hlen
  omega

lemma walkRecord_iff {m : ListMessages} {u : WalkState} : walkRecord w r m step = .ok u ↔
      Readable w es ls ordered ∧ (∀ b ∈ ls, w.env.readable b = true) ∧
      (∀ b, (extentBlocks es)[k]? = some b → w.env.readable b = true) ∧
      u = walked w ordered k ⟨0, 0, 0, none⟩ es := by
  have hcol := hmap.onDevice
  have hcov := hmap.covered_le
  have hdata := hm.dataBlocks_lt
  have hinl : ∀ b ∈ ls, InData w.fs.layout b := fun b hb => hmap.inData b (mem_blocks_of_list hb)
  have hfold := @walk_foldlM w hm k flag ordered step hstep es ⟨0, 0, 0, none⟩ u (fun _ => rfl)
    hcol.laid (by simp only; omega) fun b hb => hmap.inData b (mem_blocks_of_extent hb)
  simp only [Nat.zero_add, placeOf, Nat.zero_le, if_true, Nat.sub_zero] at hfold
  have happ : es.foldlM step ⟨0, 0, 0, none⟩ = .ok u ↔ ∃ t,
      (extentList r 0 (getLe64 r 48)).foldlM step ⟨0, 0, 0, none⟩ = .ok t ∧
        (listExtents w.dev.block ls).foldlM step t = .ok u := by
    rw [← foldlM_append_ok, ← hcol.extents]
  rw [walkRecord, except_bind_ok]
  constructor
  · rintro ⟨t, ht, hu⟩
    rw [walkExtents_eq] at ht
    have hblock : ∀ s list b n, enterList w r m s list = .ok (b, n) →
        b = w.dev.block list ∧ n = getLe64 (w.dev.block list) 24 := by
      intro s list b n he
      obtain ⟨-, hr, hn, -⟩ := enterList_ok.mp he
      cases readBlock_eq hr
      exact ⟨rfl, hn⟩
    obtain ⟨ls', hc, hf, henter⟩ := walkLists_chain hblock hu
    obtain rfl := hc.unique hcol.chain
    obtain ⟨h1, h2, h3, h4⟩ := hfold.mp (happ.mpr ⟨t, ht, hf⟩)
    have hl : ∀ b ∈ ls', w.env.readable b = true ∧ ∀ i < (24 : Nat), (vol w).block b (40 + i) = 0 := by
      intro b hb
      obtain ⟨pre, post, hpre⟩ := List.append_of_mem hb
      obtain ⟨v, ⟨x, n⟩, -, hx⟩ := henter pre b post hpre
      obtain ⟨-, hr, -, -, hres, -⟩ := enterList_ok.mp hx
      obtain ⟨-, -, -, hread, rfl⟩ := readBlock_ok.mp hr
      exact ⟨hread, by rw [vol_block (hinl b hb)]; exact hres⟩
    exact ⟨⟨h1, h2, fun b hb => (hl b hb).2⟩, fun b hb => (hl b hb).1, h3, h4⟩
  · rintro ⟨hread, hlr, hk, hu⟩
    obtain ⟨t, ht, hf⟩ := happ.mp (hfold.mpr ⟨hread.ascending, hread.count, hk, hu⟩)
    refine ⟨t, by rw [walkExtents_eq, ht], walkLists_of_chain hcol.chain ?_ hf ?_⟩
    · have := hcol.lists_length
      omega
    · intro pre l post v hpre hv
      have hl : l ∈ ls := by rw [hpre]; simp
      have hall := foldlM_append_ok.mpr ⟨t, ht, hv⟩
      have hsplit : es = (extentList r 0 (getLe64 r 48) ++ listExtents w.dev.block pre) ++
          listExtents w.dev.block (l :: post) := by
        rw [hcol.extents, hpre, listExtents_append, List.append_assoc]
      have hcov' := hcov
      rw [hsplit, covered_append] at hcov'
      have hlaid := hcol.laid
      rw [hsplit, laid_append (by omega)] at hlaid
      have hv' := (walk_foldlM hm hstep (fun _ => rfl) hlaid.1 (by simp only; omega) fun b hb => by
        refine hmap.inData b (mem_blocks_of_extent ?_)
        rw [hsplit, extentBlocks_append]
        exact List.mem_append_left _ hb).mp hall
      have hcount : v.extentCount < getLe64 r 40 := by
        rw [hv'.2.2.2, walked]
        simp only [Nat.zero_add]
        exact hmap.length_before hpre
      have hres := hread.reserved l hl
      rw [vol_block (hinl l hl)] at hres
      exact enterList_ok.mpr ⟨hcount, hm.readBlock (hm.inData_lt (hinl l hl)) (hlr l hl), rfl,
        hcol.lists l hl, hres, hcol.chain.next_ne l hl, hinl l hl⟩

end

section

variable {w : World} (hm : Mounted w) {r x : Buf} {k : Nat} {es : List Extent} {ls : List Nat}

/-- The list blocks can be read, and so can the `k`-th block of the extents, which is `x`. -/
def Delivers (w : World) (es : List Extent) (ls : List Nat) (k : Nat) (x : Buf) : Prop :=
  (∀ b ∈ ls, w.env.readable b = true) ∧
    ∃ b, (extentBlocks es)[k]? = some b ∧ w.env.readable b = true ∧ x = (vol w).block b

lemma found_walked {ordered : Bool} :
    (walked w ordered k ⟨0, 0, 0, none⟩ es).found = (extentBlocks es)[k]?.map w.dev.block := by
  simp only [walked, placeOf, Nat.zero_le, if_true, Nat.sub_zero]
  cases (extentBlocks es)[k]? <;> rfl

include hm

lemma readDirectoryBlock_iff (hmap : Mapped w r extentDirectoryMetadata es ls) :
    readDirectoryBlock w r k = .ok x ↔ Readable w es ls false ∧ Delivers w es ls k x := by
  have hwalk := @walkRecord_iff w hm r k extentDirectoryMetadata false es ls hmap
    (validateExtent w k) (fun s e u hs => validateExtent_ok (hs rfl)) directoryMessages
  rw [readDirectoryBlock, except_bind_ok]
  constructor
  · rintro ⟨u, hu, h⟩
    obtain ⟨h1, h2, h3, rfl⟩ := hwalk.mp hu
    rw [found_walked] at h
    cases hk : (extentBlocks es)[k]? with
    | none => simp [hk] at h
    | some b =>
      simp only [hk, Option.map_some, ensure_bind_ok] at h
      refine ⟨h1, h2, b, hk, h3 b hk, ?_⟩
      rw [vol_block (hmap.inData b (mem_blocks_of_extent (List.mem_of_getElem? hk)))]
      exact (Except.ok.inj h.2).symm
  · rintro ⟨h1, h2, b, hk, hr, rfl⟩
    refine ⟨_, hwalk.mpr ⟨h1, h2, fun b' hb' => ?_, rfl⟩, ?_⟩
    · rw [hk] at hb'
      cases hb'
      exact hr
    · rw [found_walked, hk]
      simp only [Option.map_some, ensure_bind_ok]
      refine ⟨by simpa [walked] using hmap.collected.length, ?_⟩
      rw [vol_block (hmap.inData b (mem_blocks_of_extent (List.mem_of_getElem? hk)))]
      rfl

end

section

variable {w : World} {checkFlags : Bool} {k : Nat}

lemma findInExtent_eq {expected : Nat} {e : Extent}
    (hl : Laid extentDirectoryMetadata expected [e])
    (hcov : expected + e.blockCount < 2 ^ 64) (hk : expected ≤ k)
    (hin : ∀ b, e.physicalStart ≤ b → b < e.physicalStart + e.blockCount → InData w.fs.layout b) :
    findInExtent w checkFlags k expected e = .ok
      (match placeOf expected [e] k with
        | some p => .inl p
        | none => .inr (expected + e.blockCount)) := by
  obtain ⟨h1, h2, h3, -⟩ := hl
  have hok : ¬ (e.logicalStart ≠ expected ∨ e.blockCount = 0 ∨
      (checkFlags ∧ e.flags ≠ extentDirectoryMetadata) ∨
      ¬ inDataArea w.fs.layout e.physicalStart e.blockCount) := by
    rw [inDataArea_iff h2]
    simp only [h1, h2, h3, ne_eq, not_true_eq_false, and_false, false_or, not_not]
    exact hin
  rw [findInExtent, (ensure_ok (u := ())).mpr hok, placeOf_cons, placeOf_nil, h1,
    add64_of_lt hcov]
  by_cases hlt : expected ≤ k ∧ k - expected < e.blockCount
  · simp only [if_pos hlt, bind, Except.bind, pure, Except.pure, Nat.add_sub_assoc hk]
  · simp only [if_neg hlt, bind, Except.bind, pure, Except.pure]

lemma findInExtents_eq {b : Buf} {i n expected : Nat}
    (hl : Laid extentDirectoryMetadata expected (extentList b i n))
    (hcov : expected + covered (extentList b i n) < 2 ^ 64) (hk : expected ≤ k)
    (hin : ∀ p ∈ extentBlocks (extentList b i n), InData w.fs.layout p) :
    findInExtents w checkFlags k b i n expected = .ok
      (match placeOf expected (extentList b i n) k with
        | some p => .inl p
        | none => .inr (expected + covered (extentList b i n))) := by
  induction n generalizing i expected with
  | zero => simp [findInExtents, extentList, placeOf_nil, covered]
  | succ n ih =>
    rw [extentList_succ] at hl hcov hin ⊢
    obtain ⟨h1, h2, h3, h4⟩ := hl
    rw [covered_cons] at hcov
    rw [add64_of_lt (by omega)] at h4
    rw [findInExtents, findInExtent_eq ⟨h1, h2, h3, trivial⟩ (by omega) hk fun b' hb hb' =>
      hin b' (mem_extentBlocks.mpr ⟨_, by simp, hb, hb'⟩), placeOf_cons, placeOf_cons, placeOf_nil]
    by_cases hlt : expected ≤ k ∧ k - expected < (extentAt b (64 + i * 32)).blockCount
    · simp only [if_pos hlt]
      rfl
    · simp only [if_neg hlt, bind, Except.bind, covered_cons, ← Nat.add_assoc]
      refine ih h4 (by omega) (by omega) fun p hp => hin p ?_
      rw [extentBlocks_cons]
      exact List.mem_append_right _ hp

end

variable {es : List Extent}

lemma placeOf_append {start k : Nat} {fs : List Extent} :
    placeOf start (es ++ fs) k = match placeOf start es k with
      | some p => some p
      | none => placeOf (start + covered es) fs k := by
  induction es generalizing start with
  | nil => simp [placeOf_nil, covered]
  | cons e es ih =>
    rw [List.cons_append, placeOf_cons, placeOf_cons, covered_cons, ih, Nat.add_assoc]
    by_cases h : start ≤ k ∧ k - start < e.blockCount
    · simp only [if_pos h]
    · simp only [if_neg h]

/-- The extents of a directory record can be walked to their end. -/
structure Walkable (w : World) (r : Buf) (es : List Extent) (ls : List Nat) : Prop where
  chain : Chain w.dev.block (getLe64 r 56) ls
  extents : es = extentList r 0 (getLe64 r 48) ++ listExtents w.dev.block ls
  laid : Laid extentDirectoryMetadata 0 es
  inData : ∀ b ∈ extentBlocks es, InData w.fs.layout b
  covered_lt : covered es < 2 ^ 64
  lists : ∀ b ∈ ls, ListBlockOk (w.dev.block b) (getLe64 r 16)
  listsInData : ∀ b ∈ ls, InData w.fs.layout b
  before : ∀ pre l post, ls = pre ++ l :: post →
    (extentList r 0 (getLe64 r 48) ++ listExtents w.dev.block pre).length < getLe64 r 40

lemma Mapped.walkable {w : World} {r : Buf} {ls : List Nat}
    (h : Mapped w r extentDirectoryMetadata es ls) (hm : Mounted w) : Walkable w r es ls where
  chain := h.chain
  extents := h.onDevice.extents
  laid := h.collected.laid
  inData := fun b hb => h.inData b (mem_blocks_of_extent hb)
  covered_lt := by
    have := h.covered_le
    have := hm.dataBlocks_lt
    omega
  lists := h.onDevice.lists
  listsInData := fun b hb => h.inData b (mem_blocks_of_list hb)
  before := fun _ _ _ => h.length_before

section

variable {w : World} {r : Buf} {k : Nat}

lemma findInLists_cons {fuel list count expected : Nat} (hne : list ≠ 0)
    (hl : Laid extentDirectoryMetadata expected
      (extentList (w.dev.block list) 0 (getLe64 (w.dev.block list) 24))) (hcov : expected +
      covered (extentList (w.dev.block list) 0 (getLe64 (w.dev.block list) 24)) < 2 ^ 64)
    (hk : expected ≤ k)
    (hin : ∀ p ∈ extentBlocks (extentList (w.dev.block list) 0 (getLe64 (w.dev.block list) 24)),
      InData w.fs.layout p)
    (hok : ListBlockOk (w.dev.block list) (getLe64 r 16)) (hcount : count < getLe64 r 40)
    (hread : readBlock w list = .ok (w.dev.block list)) :
    findInLists w r k (fuel + 1) list count expected =
      match placeOf expected (extentList (w.dev.block list) 0 (getLe64 (w.dev.block list) 24)) k with
      | some p => .ok p
      | none => findInLists w r k fuel (getLe64 (w.dev.block list) 16)
          (count + getLe64 (w.dev.block list) 24)
          (expected + covered (extentList (w.dev.block list) 0 (getLe64 (w.dev.block list) 24))) := by
  rw [findInLists, if_neg hne, (ensure_ok (u := ())).mpr hcount, hread]
  simp only [bind, Except.bind]
  rw [(ensure_ok (u := ())).mpr ⟨hok.magic, hok.owner⟩]
  simp only [pure, Except.pure, orElse]
  rw [(ensure_ok (u := ())).mpr ⟨hok.entries_ne, hok.entries_le⟩]
  rw [findInExtents_eq hl hcov hk hin]
  cases placeOf expected (extentList (w.dev.block list) 0 (getLe64 (w.dev.block list) 24)) k <;> rfl

variable {ls : List Nat}

lemma findInLists_spec {fuel list count expected : Nat}
    (hc : Chain w.dev.block list ls) (hfuel : ls.length < fuel)
    (hl : Laid extentDirectoryMetadata expected (listExtents w.dev.block ls))
    (hcov : expected + covered (listExtents w.dev.block ls) < 2 ^ 64) (hk : expected ≤ k)
    (hin : ∀ p ∈ extentBlocks (listExtents w.dev.block ls), InData w.fs.layout p)
    (hlists : ∀ b ∈ ls, ListBlockOk (w.dev.block b) (getLe64 r 16))
    (hcount : ∀ pre l post, ls = pre ++ l :: post →
      count + (listExtents w.dev.block pre).length < getLe64 r 40) :
    (∀ p, findInLists w r k fuel list count expected = .ok p →
      placeOf expected (listExtents w.dev.block ls) k = some p) ∧
    ((∀ b ∈ ls, readBlock w b = .ok (w.dev.block b)) →
      ∀ p, placeOf expected (listExtents w.dev.block ls) k = some p →
        findInLists w r k fuel list count expected = .ok p) := by
  induction hc generalizing fuel count expected with
  | nil =>
    cases fuel with
    | zero => simp at hfuel
    | succ fuel =>
      rw [findInLists, if_pos rfl]
      exact ⟨nofun, fun _ p hp => by simp [listExtents, placeOf_nil] at hp⟩
  | @cons list rest hne hrest ih =>
    cases fuel with
    | zero => simp at hfuel
    | succ fuel =>
      have hcons : listExtents w.dev.block (list :: rest) =
          extentList (w.dev.block list) 0 (getLe64 (w.dev.block list) 24) ++
            listExtents w.dev.block rest := by
        rw [listExtents, List.flatMap_cons]
        rfl
      rw [hcons] at hl hcov hin ⊢
      rw [covered_append] at hcov
      rw [laid_append (by omega)] at hl
      rw [extentBlocks_append] at hin
      have hstep := @findInLists_cons w r k fuel list count expected hne hl.1 (by omega) hk
        (fun p hp => hin p (List.mem_append_left _ hp)) (hlists list (by simp))
        (by simpa [listExtents] using hcount [] list rest rfl)
      have ih' : expected +
          covered (extentList (w.dev.block list) 0 (getLe64 (w.dev.block list) 24)) ≤ k → _ :=
        fun hle => @ih fuel (count + getLe64 (w.dev.block list) 24) _ (by simpa using hfuel) hl.2
          (by omega) hle (fun p hp => hin p (List.mem_append_right _ hp))
          (fun b hb => hlists b (List.mem_cons_of_mem _ hb)) fun pre l post hpre => by
            have := hcount (list :: pre) l post (by rw [hpre]; rfl)
            rw [listExtents, List.flatMap_cons, List.length_append, length_extentList] at this
            rw [listExtents]
            omega
      have hout : placeOf expected
          (extentList (w.dev.block list) 0 (getLe64 (w.dev.block list) 24)) k = none →
          expected + covered (extentList (w.dev.block list) 0 (getLe64 (w.dev.block list) 24)) ≤ k := by
        intro hnone
        rw [placeOf, if_pos hk, List.getElem?_eq_none_iff, length_extentBlocks] at hnone
        omega
      rw [placeOf_append]
      constructor
      · intro p hp
        have hread : readBlock w list = .ok (w.dev.block list) := by
          rw [findInLists, if_neg hne] at hp
          simp only [except_bind_ok, orElse_ok, ensure_ok, exists_const] at hp
          obtain ⟨x, ⟨-, y, hr, -⟩, -⟩ := hp
          rw [hr, readBlock_eq hr]
        rw [hstep hread] at hp
        cases hplace : placeOf expected
          (extentList (w.dev.block list) 0 (getLe64 (w.dev.block list) 24)) k with
        | some q =>
          rw [hplace] at hp
          exact congrArg some (Except.ok.inj hp)
        | none =>
          rw [hplace] at hp
          exact (ih' (hout hplace)).1 p hp
      · intro hread p hp
        rw [hstep (hread list (by simp))]
        cases hplace : placeOf expected
          (extentList (w.dev.block list) 0 (getLe64 (w.dev.block list) 24)) k with
        | some q =>
          rw [hplace] at hp
          exact congrArg Except.ok (Option.some.inj hp)
        | none =>
          rw [hplace] at hp
          exact (ih' (hout hplace)).2 (fun b hb => hread b (List.mem_cons_of_mem _ hb)) p hp

lemma placeOf_zero : placeOf 0 es k = (extentBlocks es)[k]? := by
  simp [placeOf]

lemma Walkable.find (h : Walkable w r es ls) :
    (∀ p, findDirectoryBlock w r k = .ok p → (extentBlocks es)[k]? = some p) ∧
    ((∀ b ∈ ls, readBlock w b = .ok (w.dev.block b)) →
      ∀ p, (extentBlocks es)[k]? = some p → findDirectoryBlock w r k = .ok p) := by
  have hlaid := h.laid
  have hcov := h.covered_lt
  have hin := h.inData
  rw [h.extents, covered_append] at hcov
  rw [h.extents, laid_append (by omega), Nat.zero_add] at hlaid
  rw [h.extents, extentBlocks_append] at hin
  have hfirst := @findInExtents_eq w false k r 0 (getLe64 r 48) 0 hlaid.1 (by omega) (Nat.zero_le k)
    fun p hp => hin p (List.mem_append_left _ hp)
  rw [← placeOf_zero, h.extents, placeOf_append, Nat.zero_add, findDirectoryBlock, hfirst]
  cases hplace : placeOf 0 (extentList r 0 (getLe64 r 48)) k with
  | some q =>
    exact ⟨fun p hp => congrArg some (Except.ok.inj hp),
      fun _ p hp => congrArg Except.ok (Option.some.inj hp)⟩
  | none =>
    have hle : covered (extentList r 0 (getLe64 r 48)) ≤ k := by
      rwa [placeOf_zero, List.getElem?_eq_none_iff, length_extentBlocks] at hplace
    have hfuel : ls.length < getLe64 r 40 + 1 := by
      rcases List.eq_nil_or_concat ls with rfl | ⟨pre, l, rfl⟩
      · simp
      · have hb := h.before pre l [] (by simp)
        have hlen : pre.length ≤ (listExtents w.dev.block pre).length :=
          length_le_listExtents fun b hb => (h.lists b (by simp [hb])).entries_ne
        rw [List.length_append] at hb
        rw [List.length_concat]
        omega
    simp only [bind, Except.bind, Nat.zero_add]
    refine findInLists_spec h.chain hfuel hlaid.2 (by omega) hle
      (fun p hp => hin p (List.mem_append_right _ hp)) h.lists fun pre l post hpre => ?_
    have := h.before pre l post hpre
    rwa [List.length_append, length_extentList] at this

lemma Walkable.find_of_healthy (h : Walkable w r es ls)
    (hm : Mounted w) (hh : w.env.Healthy) (hk : k < covered es) :
    ∃ p, findDirectoryBlock w r k = .ok p := by
  rw [← length_extentBlocks] at hk
  exact ⟨_, h.find.2 (fun b hb => hm.readBlock (hm.inData_lt (h.listsInData b hb)) (hh.1 b)) _
    (List.getElem?_eq_getElem hk)⟩

end

section

variable {w : World} {r : Buf} {k p : Nat}

variable {expected : Nat} {checkFlags : Bool}

lemma findInExtent_raw {e : Extent} (h : findInExtent w checkFlags k expected e = .ok (.inl p)) :
    p ∈ e.blocks ∧ InData w.fs.layout p := by
  simp only [findInExtent, ensure_bind_ok, not_or, not_not] at h
  obtain ⟨⟨-, hne, -, hin⟩, h⟩ := h
  split at h
  · rename_i hk
    cases h
    have hp : e.physicalStart ≤ e.physicalStart + k - e.logicalStart ∧
        e.physicalStart + k - e.logicalStart < e.physicalStart + e.blockCount := by omega
    exact ⟨Extent.mem_blocks.mpr hp, (inDataArea_iff hne).mp hin _ hp.1 hp.2⟩
  · cases h

lemma findInExtents_raw {b : Buf} {i n : Nat}
    (h : findInExtents w checkFlags k b i n expected = .ok (.inl p)) :
    p ∈ extentBlocks (extentList b i n) ∧ InData w.fs.layout p := by
  induction n generalizing i expected with
  | zero => cases h
  | succ n ih =>
    rw [extentList_succ, extentBlocks_cons, List.mem_append]
    rw [findInExtents, except_bind_ok] at h
    obtain ⟨x | x, hx, h⟩ := h
    · cases h
      obtain ⟨h1, h2⟩ := findInExtent_raw hx
      exact ⟨.inl h1, h2⟩
    · obtain ⟨h1, h2⟩ := ih h
      exact ⟨.inr h1, h2⟩

lemma listChain_subset {block : Nat → Buf} {m n list : Nat} (h : m ≤ n) :
    ∀ b ∈ listChain block m list, b ∈ listChain block n list := by
  induction m generalizing n list with
  | zero => nofun
  | succ m ih =>
    obtain ⟨n, rfl⟩ : ∃ n', n = n' + 1 := ⟨n - 1, by omega⟩
    intro b hb
    rw [listChain] at hb ⊢
    split at hb
    · cases hb
    · rename_i hne
      rw [if_neg hne]
      rcases List.mem_cons.mp hb with rfl | hb
      · exact List.mem_cons_self
      · exact List.mem_cons_of_mem _ (ih (by omega) b hb)

lemma findInLists_raw {fuel list count : Nat}
    (hraw : ∀ b ∈ listChain (vol w).block (getLe64 r 40 - count) list, InData w.fs.layout b)
    (h : findInLists w r k fuel list count expected = .ok p) :
    (∃ l ∈ listChain (vol w).block (getLe64 r 40 - count) list,
      p ∈ extentBlocks (extentList ((vol w).block l) 0 (getLe64 ((vol w).block l) 24))) ∧
      InData w.fs.layout p := by
  induction fuel generalizing list count expected with
  | zero => cases h
  | succ fuel ih =>
    rw [findInLists] at h
    split at h
    · cases h
    rename_i hne
    simp only [except_bind_ok, orElse_ok, ensure_ok, exists_const, pure, Except.pure,
      Except.ok.injEq] at h
    obtain ⟨x, ⟨hcount, y, hread, -, rfl⟩, ⟨hent, -⟩, out, hout, h⟩ := h
    obtain rfl := readBlock_eq hread
    obtain ⟨m, hm⟩ : ∃ m, getLe64 r 40 - count = m + 1 := ⟨getLe64 r 40 - count - 1, by omega⟩
    have hin := hraw list (by rw [hm, listChain, if_neg hne]; simp)
    rw [← vol_block hin] at hout h hent
    rw [hm, listChain, if_neg hne] at hraw ⊢
    rcases out with q | q
    · cases h
      obtain ⟨h1, h2⟩ := findInExtents_raw hout
      exact ⟨⟨list, by simp, h1⟩, h2⟩
    · have hsub := @listChain_subset (vol w).block
        (getLe64 r 40 - (count + getLe64 ((vol w).block list) 24)) m
        (getLe64 ((vol w).block list) 16) (by omega)
      obtain ⟨⟨l, hl, h1⟩, h2⟩ := ih (fun b hb => hraw b (List.mem_cons_of_mem _ (hsub b hb))) h
      exact ⟨⟨l, List.mem_cons_of_mem _ (hsub l hl), h1⟩, h2⟩

lemma findDirectoryBlock_raw (hraw : ∀ b ∈ (fileMap (vol w).block r).lists, InData w.fs.layout b)
    (h : findDirectoryBlock w r k = .ok p) :
    p ∈ extentBlocks (fileMap (vol w).block r).extents ∧ InData w.fs.layout p := by
  rw [findDirectoryBlock, except_bind_ok] at h
  simp only [fileMap, extentBlocks_append, List.mem_append]
  obtain ⟨x | x, hx, h⟩ := h
  · cases h
    obtain ⟨h1, h2⟩ := findInExtents_raw hx
    exact ⟨.inl h1, h2⟩
  · have hsub := @listChain_subset (vol w).block (getLe64 r 40 - getLe64 r 48) (getLe64 r 40)
      (getLe64 r 56) (Nat.sub_le _ _)
    obtain ⟨⟨l, hl, h1⟩, h2⟩ := findInLists_raw (fun b hb => hraw b (hsub b hb)) h
    obtain ⟨e, he, hpe⟩ := mem_extentBlocks.mp h1
    exact ⟨.inr (mem_extentBlocks.mpr ⟨e, List.mem_flatMap.mpr ⟨l, hsub l hl, he⟩, hpe⟩), h2⟩

end

end Mangrove.Mgfs
