import Mangrove.Mgfs.FileUpdate

/-! A record on its way from one map to the next keeps its old blocks until the new ones are
written. What `mgfs_write` and `mgfs_truncate` do, also if they stop early. -/

namespace Mangrove.Mgfs

open Function (update)

/-- A new map for a record: old blocks of it and new ones, and a list block where it needs one. -/
structure Remap (w : World) (r : Buf) (es : List Extent) (es' : List Extent)
    (news extra : List Nat) (head : Nat) : Prop where
  source : ∀ b ∈ extentBlocks es', b ∈ extentBlocks es ∨ b ∈ news
  nodup : (extentBlocks es').Nodup
  fits : FirstFits w.fs.layout (vol w).used (news ++ extra)
  placed : ListPlaced w.fs.layout (marked (vol w).used news) (getLe64 r 56) es' head extra
  front : 2 < es'.length → getLe64 r 56 ≠ 0 →
    es'.take (getLe64 r 48) = es.take (getLe64 r 48)

section

variable {w : World} {s : Nat} {r : Buf} {flag : Nat} {es es' : List Extent}
  {ls news extra : List Nat} {head : Nat} (hr : (vol w).record s = r)
  (hmap : Mapped w r flag es ls)

include hr hmap

lemma Mapped.owned : Owned (vol w) s :=
  ⟨by rw [hmap.recordBlocks hr]; exact hmap.nodup, by rw [hmap.recordBlocks hr]; exact hmap.used⟩

lemma Mapped.before {v' : Vol} (hlive : v'.live = (vol w).live)
    (hrec : v'.record = (vol w).record) (hused : ∀ b, (vol w).used b = true → v'.used b = true)
    (hblock : ∀ b, (vol w).used b = true → b ∉ extentBlocks es → v'.block b = (vol w).block b) :
    Rewrites (vol w) v' s := by
  have hlists : ∀ b ∈ (fileMap (vol w).block ((vol w).record s)).lists,
      v'.block b = (vol w).block b := by
    rw [hr, hmap.collected.fileMap]
    intro b hb
    exact hblock b (hmap.used b (mem_blocks_of_list hb)) (hmap.disjoint hb)
  have hm : fileMap v'.block (v'.record s) = fileMap (vol w).block ((vol w).record s) := by
    rw [hrec]
    exact fileMap_congr hlists
  have hblocks : Mgfs.recordBlocks v' s = Mgfs.recordBlocks (vol w) s := by
    rw [Mgfs.recordBlocks, hm, Mgfs.recordBlocks]
  have ho := hmap.owned hr
  refine ⟨hlive, fun t _ => by rw [hrec], fun b _ hb => hused b hb, fun b hn hb => ?_, ⟨?_, ?_⟩, ?_⟩
  · refine hblock b hb fun he => hn ?_
    rw [hmap.recordBlocks hr]
    exact mem_blocks_of_extent he
  · rw [hblocks]
    exact ho.nodup
  · rw [hblocks]
    exact fun b hb => hused b (ho.used b hb)
  · rw [hblocks]
    exact fun b hb => .inl hb

variable (hp : Remap w r es es' news extra head)

include hp

omit hr hmap in
lemma Remap.free {b : Nat} (h : b ∈ news ++ extra) :
    InData w.fs.layout b ∧ (vol w).used b = false :=
  hp.fits.free b h

omit hr in
lemma Remap.head_not_mem (h2 : 2 < es'.length) : head ∉ extentBlocks es' := by
  obtain ⟨-, hold, hnew⟩ := hp.placed.long h2
  intro hb
  by_cases h0 : getLe64 r 56 = 0
  · obtain ⟨hfree, hextra⟩ := hnew h0
    have hhead := hp.free (b := head) (by rw [hextra]; simp)
    rcases hp.source head hb with he | hn
    · rw [hmap.used head (mem_blocks_of_extent he)] at hhead
      cases hhead.2
    · have := hfree.free
      rw [marked_of_mem hn] at this
      cases this
  · obtain ⟨rfl, -⟩ := hold h0
    have hl := hmap.head h0
    rcases hp.source _ hb with he | hn
    · exact hmap.disjoint hl he
    · have := hp.free (List.mem_append_left extra hn)
      rw [hmap.used _ (mem_blocks_of_list hl)] at this
      cases this.2

omit hr in
lemma Remap.nodup_blocks : (FileMap.mk es' (newLists es' head)).blocks.Nodup := by
  rw [FileMap.blocks, newLists]
  by_cases h2 : 2 < es'.length
  · rw [if_pos h2, List.singleton_append, List.nodup_cons]
    exact ⟨hp.head_not_mem hmap h2, hp.nodup⟩
  · rw [if_neg h2]
    exact hp.nodup

omit hr in
lemma Remap.source_blocks {b : Nat} (h : b ∈ (FileMap.mk es' (newLists es' head)).blocks) :
    b ∈ (FileMap.mk es ls).blocks ∨ b ∈ news ++ extra := by
  rw [FileMap.blocks, List.mem_append] at h
  rcases h with h | h
  · rw [newLists] at h
    by_cases h2 : 2 < es'.length
    · simp only [if_pos h2, List.mem_singleton] at h
      subst h
      obtain ⟨-, hold, hnew⟩ := hp.placed.long h2
      by_cases h0 : getLe64 r 56 = 0
      · exact .inr (by rw [(hnew h0).2]; simp)
      · rw [(hold h0).1]
        exact .inl (mem_blocks_of_list (hmap.head h0))
    · simp [if_neg h2] at h
  · rcases hp.source b h with he | hn
    · exact .inl (mem_blocks_of_extent he)
    · exact .inr (List.mem_append_left _ hn)

lemma Remap.between {v' : Vol} (h48 : getLe64 r 48 ≤ 2) (h2 : 2 < es'.length)
    (h0 : getLe64 r 56 ≠ 0) (hlive : v'.live = (vol w).live) (hrec : v'.record = (vol w).record)
    (hused : ∀ b, (vol w).used b = true ∨ b ∈ news ++ extra → v'.used b = true)
    (hblock : ∀ b, (vol w).used b = true → b ∉ extentBlocks es → b ≠ head →
      v'.block b = (vol w).block b)
    (hlist : ListBlockOf (v'.block head) (getLe64 r 16) (es'.drop 2)) : Rewrites (vol w) v' s := by
  obtain ⟨-, hold, -⟩ := hp.placed.long h2
  obtain ⟨hhead, -⟩ := hold h0
  have hl := hmap.head h0
  rw [← hhead] at hl
  have hcount : getLe64 r 40 ≠ 0 := by
    have := hmap.collected.lists_length
    have := List.length_pos_of_mem hl
    omega
  have hchain : listChain v'.block (getLe64 r 40) (getLe64 r 56) = [head] := by
    rw [← hhead]
    exact (hlist.chain (hhead ▸ h0)).listChain (by rw [List.length_singleton]; omega)
  have hinline : extentList r 0 (getLe64 r 48) = es'.take (getLe64 r 48) := by
    rw [hp.front h2 h0, hmap.collected.extents, List.take_left' (length_extentList _ _ _)]
  have hm : fileMap v'.block (v'.record s) =
      ⟨es'.take (getLe64 r 48) ++ es'.drop 2, [head]⟩ := by
    rw [hrec, hr]
    simp only [fileMap, hchain, listExtents, List.flatMap_cons, List.flatMap_nil, List.append_nil,
      hlist.extents, hinline]
  have hsub : (es'.take (getLe64 r 48) ++ es'.drop 2).Sublist es' := by
    have h1 : (es'.take (getLe64 r 48) ++ es'.drop 2).Sublist (es'.take 2 ++ es'.drop 2) :=
      List.Sublist.append (List.take_sublist_take_left h48) (List.Sublist.refl _)
    rwa [List.take_append_drop] at h1
  have hsubb : (FileMap.mk (es'.take (getLe64 r 48) ++ es'.drop 2) [head]).blocks.Sublist
      (FileMap.mk es' (newLists es' head)).blocks := by
    rw [FileMap.blocks, FileMap.blocks, newLists, if_pos h2]
    exact List.Sublist.append (List.Sublist.refl _) (hsub.flatMap _)
  have hblocks : Mgfs.recordBlocks v' s =
      (FileMap.mk (es'.take (getLe64 r 48) ++ es'.drop 2) [head]).blocks := by
    rw [Mgfs.recordBlocks, hm]
  have hnew : ∀ b ∈ Mgfs.recordBlocks v' s,
      b ∈ (FileMap.mk es ls).blocks ∨ b ∈ news ++ extra := by
    rw [hblocks]
    exact fun b hb => hp.source_blocks hmap (hsubb.subset hb)
  refine ⟨hlive, fun t _ => by rw [hrec], fun b _ hb => hused b (.inl hb), fun b hn hb => ?_,
    ⟨?_, fun b hb => ?_⟩, fun b hb => ?_⟩
  · rw [hmap.recordBlocks hr] at hn
    refine hblock b hb (fun he => hn (mem_blocks_of_extent he)) fun he => hn ?_
    rw [he]
    exact mem_blocks_of_list hl
  · rw [hblocks]
    exact (hp.nodup_blocks hmap).sublist hsubb
  · rcases hnew b hb with h | h
    · exact hused b (.inl (hmap.used b h))
    · exact hused b (.inr h)
  · rw [hmap.recordBlocks hr]
    rcases hnew b hb with h | h
    · exact .inl h
    · exact .inr (hp.free h).2

lemma Remap.after {v' : Vol} {r' : Buf} (hlive : v'.live = (vol w).live)
    (hrec : v'.record = update (vol w).record s r')
    (hnewmap : fileMap v'.block r' = ⟨es', newLists es' head⟩)
    (hused : ∀ b, (vol w).used b = true → b ∉ (FileMap.mk es ls).blocks → v'.used b = true)
    (hown : ∀ b ∈ (FileMap.mk es' (newLists es' head)).blocks, v'.used b = true)
    (hblock : ∀ b, (vol w).used b = true → b ∉ (FileMap.mk es ls).blocks →
      v'.block b = (vol w).block b) : Rewrites (vol w) v' s := by
  have hblocks : Mgfs.recordBlocks v' s = (FileMap.mk es' (newLists es' head)).blocks := by
    rw [Mgfs.recordBlocks, hrec, Function.update_self, hnewmap]
  refine ⟨hlive, fun t ht => by rw [hrec, Function.update_of_ne ht], ?_, ?_, ⟨?_, ?_⟩, ?_⟩
  · rw [hmap.recordBlocks hr]
    exact fun b hn hb => hused b hb hn
  · rw [hmap.recordBlocks hr]
    exact fun b hn hb => hblock b hb hn
  · rw [hblocks]
    exact hp.nodup_blocks hmap
  · rw [hblocks]
    exact hown
  · rw [hblocks, hmap.recordBlocks hr]
    intro b hb
    rcases hp.source_blocks hmap hb with h | h
    · exact .inl h
    · exact .inr (hp.free h).2

end

/-- The volume once `news` are taken, the data blocks are written and the list
block of `es'` is in place. -/
def placedVol (v : Vol) (recordId flag : Nat) (block : Nat → Buf) (es' : List Extent)
    (news extra : List Nat) (head : Nat) : Vol :=
  withList
    { v with
      used := marked v.used news
      block } recordId flag es' head extra

/-- The volume after a record was written with a new map and the old blocks were freed. -/
def rewrittenVol (v : Vol) (s recordId : Nat) (newRecord : Buf) (flag : Nat) (block : Nat → Buf)
    (given : List Nat) (es' : List Extent) (news extra : List Nat) (head : Nat) : Vol :=
  { placedVol v recordId flag block es' news extra head with
    record := update v.record s (newRecord.clip recordBytes)
    used := released (marked (marked v.used news) extra) given }

variable {l : Layout} {used : Nat → Bool}

lemma FirstFits.append {bs cs : List Nat}
    (h : FirstFits l used bs) (h' : FirstFits l (marked used bs) cs) :
    FirstFits l used (bs ++ cs) := by
  induction h with
  | nil => rwa [marked_nil] at h'
  | cons hb _ ih =>
    rw [← marked_update] at h'
    exact .cons hb (ih h')

variable {oldHead head : Nat} {es : List Extent} {extra : List Nat}

lemma ListPlaced.fits (h : ListPlaced l used oldHead es head extra) : FirstFits l used extra := by
  by_cases h2 : 2 < es.length
  · obtain ⟨-, hold, hnew⟩ := h.long h2
    by_cases h0 : oldHead = 0
    · obtain ⟨hf, he⟩ := hnew h0
      rw [he]
      exact .cons hf .nil
    · rw [(hold h0).2]
      exact .nil
  · rw [(h.short h2).2]
    exact .nil

lemma listBlock_of_remap {w : World} {r : Buf} {es' : List Extent} {news : List Nat}
    {flag : Nat} (hp : Remap w r es es' news extra head) (hf : Fits flag es')
    (hflag : flag < 2 ^ 64) (h2 : 2 < es'.length) :
    ListBlockOf ((extentListBlock (getLe64 r 16) es' flag).clip blockBytes) (getLe64 r 16)
      (es'.drop 2) :=
  extentListBlock_spec (getLe64_lt _ _) hf hflag h2 (hp.placed.long h2).1

section

variable {w : World} {s : Nat} {r newRecord : Buf} {flag : Nat} {es es' : List Extent}
  {ls news extra : List Nat} {head : Nat} {block : Nat → Buf}
  (hmap : Mapped w r flag es ls) (hp : Remap w r es es' news extra head)

variable {recordId b : Nat}

lemma withList_block_of_ne {v : Vol} (h : 2 < es'.length → b ≠ head) :
    (withList v recordId flag es' head extra).block b = v.block b := by
  rw [withList]
  by_cases h2 : 2 < es'.length
  · simp only [if_pos h2, Function.update_of_ne (h h2)]
  · simp only [if_neg h2]

lemma withList_block_head {v : Vol} (h2 : 2 < es'.length) :
    (withList v recordId flag es' head extra).block head =
      (extentListBlock recordId es' flag).clip blockBytes := by
  simp only [withList, if_pos h2, Function.update_self]

include hmap hp

lemma Remap.block_other (hb : (vol w).used b = true) (hn : b ∉ (FileMap.mk es ls).blocks)
    (hframe : ∀ b, b ∉ extentBlocks es' → block b = (vol w).block b) :
    (placedVol (vol w) recordId flag block es' news extra head).block b = (vol w).block b := by
  have hnew : b ∉ (FileMap.mk es' (newLists es' head)).blocks := by
    intro h
    rcases hp.source_blocks hmap h with h | h
    · exact hn h
    · have := (hp.free h).2
      rw [hb] at this
      cases this
  rw [placedVol, withList_block_of_ne]
  · exact hframe b fun h => hnew (mem_blocks_of_extent h)
  · rintro h2 rfl
    exact hnew (mem_blocks_of_list (by simp [newLists, h2]))

lemma mem_obsoleteBlocks {b : Nat} : b ∈ obsoleteBlocks ⟨es, ls⟩ ⟨es', newLists es' head⟩ ↔
      b ∈ (FileMap.mk es ls).blocks ∧ b ∉ (FileMap.mk es' (newLists es' head)).blocks := by
  have hhead : ∀ b ∈ ls, (b ≠ (newLists es' head).headD 0 ↔ b ∉ newLists es' head) := by
    intro b hb
    have hne : b ≠ 0 := hmap.chain.ne_zero b hb
    rw [newLists]
    split <;> simp [hne]
  rw [obsoleteBlocks, List.mem_append, mem_obsolete, List.mem_filter, FileMap.blocks,
    FileMap.blocks, List.mem_append, List.mem_append]
  constructor
  · rintro (⟨h1, h2⟩ | ⟨h1, h2⟩)
    · refine ⟨.inr h1, fun h => ?_⟩
      rcases h with h | h
      · rw [newLists] at h
        by_cases h3 : 2 < es'.length
        · simp only [if_pos h3, List.mem_singleton] at h
          subst h
          obtain ⟨-, hold, hnew⟩ := hp.placed.long h3
          by_cases h0 : getLe64 r 56 = 0
          · have hfree := hp.free (b := b) (by rw [(hnew h0).2]; simp)
            rw [hmap.used b (mem_blocks_of_extent h1)] at hfree
            cases hfree.2
          · have hl := hmap.head h0
            rw [← (hold h0).1] at hl
            exact hmap.disjoint hl h1
        · simp [if_neg h3] at h
      · exact h2 h
    · refine ⟨.inl h1, fun h => ?_⟩
      rw [decide_eq_true_eq] at h2
      rcases h with h | h
      · exact (hhead b h1).mp h2 h
      · rcases hp.source b h with he | hn
        · exact hmap.disjoint h1 he
        · have hfree := hp.free (List.mem_append_left extra hn)
          rw [hmap.used b (mem_blocks_of_list h1)] at hfree
          cases hfree.2
  · rintro ⟨h1 | h1, h2⟩
    · refine .inr ⟨h1, ?_⟩
      rw [decide_eq_true_eq, hhead b h1]
      exact fun h => h2 (.inl h)
    · exact .inl ⟨h1, fun h => h2 (.inr h)⟩

end

section

variable {w : World} {s : Nat} {r : Buf} {flag : Nat} {es : List Extent} {ls : List Nat}

variable {es' : List Extent} {news extra : List Nat} {head : Nat}

lemma Remap.head_ne_zero (hm : Mounted w)
    (hp : Remap w r es es' news extra head) (h2 : 2 < es'.length) : head ≠ 0 := by
  obtain ⟨-, hold, hfresh⟩ := hp.placed.long h2
  by_cases hz : getLe64 r 56 = 0
  · have hin := (hfresh hz).1.inData.1
    have horder := hm.order
    omega
  · rw [(hold hz).1]
    exact hz

lemma Remap.head_lt (hm : Mounted w) (hp : Remap w r es es' news extra head) : head < 2 ^ 64 := by
  by_cases h2 : 2 < es'.length
  · obtain ⟨-, hold, hfresh⟩ := hp.placed.long h2
    by_cases h0 : getLe64 r 56 = 0
    · have := hm.inData_bound (hfresh h0).1.inData
      omega
    · rw [(hold h0).1]
      exact getLe64_lt _ _
  · rw [(hp.placed.short h2).1]
    decide

lemma Remap.length_le
    (hp : Remap w r es es' news extra head) : es'.length ≤ 2 + extentsPerListBlock := by
  by_cases h2 : 2 < es'.length
  · have := (hp.placed.long h2).1
    omega
  · omega

section

variable {es' : List Extent} {news extra : List Nat} {head : Nat} {block : Nat → Buf}
  (hr : (vol w).record s = r) (hmap : Mapped w r flag es ls)
  (hp : Remap w r es es' news extra head) (hf : Fits flag es') (hflag : flag < 2 ^ 64)
  (hframe : ∀ b, b ∉ extentBlocks es' → block b = (vol w).block b)

include hr hmap hp hf hflag hframe

lemma Remap.rewrites_placed (h48 : getLe64 r 48 ≤ 2) :
    Rewrites (vol w) (placedVol (vol w) (getLe64 r 16) flag block es' news extra head) s := by
  have hused : ∀ b, (vol w).used b = true ∨ b ∈ news ++ extra →
      marked (marked (vol w).used news) extra b = true := by
    intro b hb
    rw [marked_append]
    rcases hb with hb | hb
    · exact marked_of_used hb
    · exact marked_of_mem hb
  have hkeep : ∀ b, (vol w).used b = true → b ∉ extentBlocks es → b ∉ extentBlocks es' := by
    intro b hb hn he
    rcases hp.source b he with h | h
    · exact hn h
    · have := (hp.free (List.mem_append_left extra h)).2
      rw [hb] at this
      cases this
  by_cases hcase : 2 < es'.length ∧ getLe64 r 56 ≠ 0
  · refine hp.between hr hmap h48 hcase.1 hcase.2 rfl rfl hused (fun b hb hn hne => ?_) ?_
    · rw [placedVol, withList_block_of_ne fun _ => hne]
      exact hframe b (hkeep b hb hn)
    · rw [placedVol, withList_block_head hcase.1]
      exact listBlock_of_remap hp hf hflag hcase.1
  · refine hmap.before hr rfl rfl (fun b hb => hused b (.inl hb)) fun b hb hn => ?_
    rw [placedVol, withList_block_of_ne]
    · exact hframe b (hkeep b hb hn)
    · rintro h2 rfl
      have h0 : getLe64 r 56 = 0 := by
        by_contra h0
        exact hcase ⟨h2, h0⟩
      have hfree := (hp.free (b := b) (by rw [((hp.placed.long h2).2.2 h0).2]; simp)).2
      rw [hb] at hfree
      cases hfree

variable {newRecord : Buf} (hm : Mounted w) (hnew : Remapped r newRecord es' head)

include hm hnew

variable (given : List Nat)

omit hr hmap hframe hnew in
lemma listBlock_rewritten (h2 : 2 < es'.length) :
    head ≠ 0 ∧ ListBlockOf ((rewrittenVol (vol w) s (getLe64 r 16) newRecord flag block given es'
      news extra head).block head) (getLe64 r 16) (es'.drop 2) := by
  refine ⟨hp.head_ne_zero hm h2, ?_⟩
  rw [rewrittenVol, placedVol, withList_block_head h2]
  exact listBlock_of_remap hp hf hflag h2

omit hr hmap hframe in
lemma fileMap_rewritten :
    fileMap (rewrittenVol (vol w) s (getLe64 r 16) newRecord flag block given es' news extra
      head).block (newRecord.clip recordBytes) = ⟨es', newLists es' head⟩ :=
  hnew.clip.fileMap fun h2 => listBlock_rewritten hp hf hflag hm given h2

omit hr hmap hframe in
lemma collected_rewritten (hlaid : Laid flag 0 es') :
    Collected (rewrittenVol (vol w) s (getLe64 r 16) newRecord flag block given es' news extra
      head).block (newRecord.clip recordBytes) flag (newLists es' head) es' :=
  hnew.clip.collected (fun h2 => listBlock_rewritten hp hf hflag hm given h2) hlaid

lemma Remap.rewrites_written {given : List Nat}
    (hgiven : ∀ b ∈ given, b ∈ obsoleteBlocks ⟨es, ls⟩ ⟨es', newLists es' head⟩) :
    Rewrites (vol w) (rewrittenVol (vol w) s (getLe64 r 16) newRecord flag block given es' news extra
      head) s := by
  have hused : ∀ b, (vol w).used b = true ∨ b ∈ news ++ extra →
      b ∉ obsoleteBlocks ⟨es, ls⟩ ⟨es', newLists es' head⟩ →
      released (marked (marked (vol w).used news) extra) given b = true := by
    intro b hb hn
    have hg : b ∉ given := fun h => hn (hgiven b h)
    rw [marked_append]
    simp only [released, marked, hg, decide_false, Bool.not_false, Bool.and_true, Bool.or_eq_true,
      decide_eq_true_eq]
    exact hb
  refine hp.after hr hmap rfl rfl (fileMap_rewritten hp hf hflag hm hnew given)
    (fun b hb hn => ?_) (fun b hb => ?_) fun b hb hn => ?_
  · exact hused b (.inl hb) fun h => hn ((mem_obsoleteBlocks hmap hp).mp h).1
  · refine hused b ?_ fun h => ((mem_obsoleteBlocks hmap hp).mp h).2 hb
    rcases hp.source_blocks hmap hb with h | h
    · exact .inl (hmap.used b h)
    · exact .inr h
  · exact hp.block_other hmap hb hn hframe

end

end

open Prog (wp wp_bind wp_get wp_look wp_pure wp_require)

/-- How a rewrite that fails leaves the volume, and that a fault of the device or the cause was
behind it. -/
structure Interrupted (w w' : World) (s : Nat) (fs : Fs) (cause : Prop) : Prop where
  env : w'.env = w.env
  fs : w'.fs = fs
  mounted : Mounted w'
  rewrites : Rewrites (vol w) (vol w') s
  cause : w.env.Healthy → cause

lemma ceilDiv_le (n : Nat) : ceilDiv n blockBytes ≤ n / 4096 + 1 := by
  unfold ceilDiv blockBytes
  split <;> omega

lemma Mapped.interrupted {w w' : World} {id s flag : Nat} {r : Buf} {es : List Extent}
    {ls : List Nat} (hmap : Mapped w r flag es ls) (hn : Names w id s r) {news : List Nat} {block : Nat → Buf} {cause : Prop}
    (h : Reaches w w' w.fs
      { vol w with
        used := marked (vol w).used news
        block })
    (hblock : ∀ b, (vol w).used b = true → b ∉ extentBlocks es → block b = (vol w).block b)
    (hc : w.env.Healthy → cause) : Interrupted w w' s w.fs cause := by
  refine ⟨h.env, h.fs, h.mounted, ?_, hc⟩
  rw [h.vol]
  exact hmap.before hn.record rfl rfl (fun b hb => marked_of_used hb) hblock

lemma kmalloc_ok {w : World} (hh : w.env.Healthy) (bytes : Nat) (e : Option String) :
    kmalloc w bytes e = .ok () :=
  ensure_ok.mpr (hh.2.2 bytes)

/-- The record that an open node names owns its blocks. -/
def NodeOwned (w : World) (id : Nat) : Prop := ∀ s r, Names w id s r → Owned (vol w) s

section

variable {w : World} (hm : Mounted w) {node : Node} {offset size : Nat} {input : Buf}

lemma collected_capacity {r : Buf} {capacity flag : Nat} {es : List Extent}
    (h : collectFileExtents w r capacity flag = .ok es) : es.length ≤ capacity := by
  by_cases hnil : es = []
  · simp [hnil]
  · exact (collectFileExtents_ok h).2 hnil

include hm

end

end Mangrove.Mgfs
