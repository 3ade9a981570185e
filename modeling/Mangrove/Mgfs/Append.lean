import Mangrove.Mgfs.BlockReads

/-! Appending an entry to a directory's stream, and removing a name: the entry becomes a
tombstone, and the record's slot and blocks are given back. -/

namespace Mangrove.Mgfs

open Function (update_of_ne update_self)

open Function (update)
open Prog (wp wp_attempt wp_bind wp_get wp_iff wp_look wp_modify wp_pure wp_require wp_state)

/-- The record in slot `s` is a directory with these extents and list blocks. -/
structure DirOpen (w : World) (id s : Nat) (r : Buf) (es : List Extent) (ls : List Nat) : Prop where
  names : Names w id s r
  type : getLe64 r 0 = recordDirectory
  mapped : Mapped w r extentDirectoryMetadata es ls
  capacity : es.length ≤ w.fs.layout.recordCount

variable {w : World} {es : List Extent} {ls : List Nat}

lemma DirOpen.read {id s : Nat} {r : Buf}
    (h : DirOpen w id s r es ls) (hm : Mounted w) (hh : w.env.Healthy) (e : Option String) :
    readDirectoryRecord w id e = .ok r :=
  readDirectoryRecord_ok.mpr ⟨h.names.readRecord hm (hh.1 _), h.type⟩

variable {physical : Nat}

lemma fits_appendBlock {flag : Nat} {logical : Nat}
    (hf : Fits flag es) (hb : Bounded es) (hl : logical < 2 ^ 64) (hp : physical + 1 < 2 ^ 64) :
    Fits flag (appendBlock es logical physical flag) := by
  have hnew : Fits flag [⟨logical, physical, 1, flag⟩] := by
    intro e he
    rw [List.mem_singleton] at he
    subst he
    exact ⟨rfl, hl, by simp only; omega, by simp⟩
  rw [appendBlock]
  cases hlast : es.getLast? with
  | none => exact hnew
  | some last =>
    have hmem : last ∈ es := List.mem_of_getLast? hlast
    have hbl := hb last hmem
    have hfl := hf last hmem
    simp only
    split
    · rename_i hadj
      rw [add64_of_lt hbl] at hadj
      intro e he
      rcases List.mem_append.mp he with h | h
      · exact hf e (List.mem_of_mem_dropLast h)
      · rw [List.mem_singleton] at h
        subst h
        exact ⟨hfl.1, hfl.2.1, hfl.2.2.1, by simp only; omega⟩
    · intro e he
      rcases List.mem_append.mp he with h | h
      · exact hf e h
      · exact hnew e h

lemma adjacent_iff {last : Extent} (hb : Bounded es) (h : es.getLast? = some last) :
    adjacentDirectoryBlock es physical = true ↔
      add64 last.physicalStart last.blockCount = physical := by
  have hl := hb last (List.mem_of_getLast? h)
  rw [adjacentDirectoryBlock, h, add64_of_lt hl]
  simp only [decide_eq_true_eq, show u64Max = 2 ^ 64 - 1 from rfl]
  omega

lemma growDirectory_spec {old : Nat} (hb : Bounded es) : wp (growDirectory es old physical)
      (fun es' w' => w' = w ∧ es' = appendBlock es old physical extentDirectoryMetadata)
      (fun _ w' => 2 + extentsPerListBlock ≤ es.length ∧
        w' = (freeDataBlock physical w).2) w := by
  rw [growDirectory, appendBlock]
  cases hlast : es.getLast? with
  | none =>
    have hnil : es = [] := List.getLast?_eq_none_iff.mp hlast
    subst hnil
    rw [if_neg (by simp [adjacentDirectoryBlock]), if_neg (by simp [extentsPerListBlock]),
      wp_pure]
    exact ⟨rfl, rfl⟩
  | some last =>
    by_cases hadj : adjacentDirectoryBlock es physical = true
    · rw [if_pos hadj, wp_pure]
      refine ⟨rfl, ?_⟩
      simp only [if_pos ((adjacent_iff hb hlast).mp hadj)]
      rfl
    · rw [if_neg hadj]
      simp only [if_neg (fun h => hadj ((adjacent_iff hb hlast).mpr h))]
      by_cases hcap : es.length ≥ 2 + extentsPerListBlock
      · rw [if_pos hcap, wp_bind, wp_attempt, wp_iff]
        refine ⟨fun a s' hx => ?_, fun e s' hx => ?_⟩
        all_goals exact ⟨hcap, by rw [hx]⟩
      · rw [if_neg hcap, wp_pure]
        exact ⟨rfl, rfl⟩

/-- A block of the stream with the bytes of the new entry put behind the old end. -/
def appendContents (size n : Nat) (entry : Buf) (i : Nat) (old : Buf) : Buf := fun o =>
  if 4096 ≤ o then 0
  else if size ≤ i * 4096 + o ∧ i * 4096 + o < size + n then entry (i * 4096 + o - size)
  else if i * 4096 < size then old o else 0

section

variable {size n i : Nat} {entry old : Buf}

lemma appendContents_before (hclip : old.clip blockBytes = old) (h : (i + 1) * 4096 ≤ size) :
    appendContents size n entry i old = old := by
  funext o
  rw [appendContents]
  by_cases ho : 4096 ≤ o
  · rw [if_pos ho, ← hclip, Buf.clip_of_ge (show blockBytes ≤ o from ho)]
  · rw [if_neg ho, if_neg (by omega), if_pos (by omega)]

lemma appendContents_clip {b : Buf} (h : ∀ o < 4096, appendContents size n entry i old o = b o) :
    appendContents size n entry i old = b.clip blockBytes := by
  funext o
  by_cases ho : 4096 ≤ o
  · rw [appendContents, if_pos ho, Buf.clip_of_ge (show blockBytes ≤ o from ho)]
  · rw [h o (Nat.not_le.mp ho), Buf.clip_of_lt (show o < blockBytes from Nat.not_le.mp ho)]

lemma appendContents_last {m : Nat} (hw : size % 4096 ≠ 0) (hi : i = size / 4096)
    (hm : m = min n (4096 - size % 4096)) :
    appendContents size n entry i old = (old.copy (size % 4096) entry m).clip blockBytes := by
  refine appendContents_clip fun o ho => ?_
  rw [appendContents, if_neg (Nat.not_le.mpr ho), Buf.copy]
  by_cases hmem : size % 4096 ≤ o ∧ o < size % 4096 + m
  · rw [if_pos (by omega), if_pos hmem]
    congr 1
    omega
  · rw [if_neg (by omega), if_neg hmem, if_pos (by omega)]

lemma appendContents_rest (hi : i = size / 4096 + 1) (hn : n ≤ 4096) :
    appendContents size n entry i old = (Buf.zero.copy 0 (entry.skip (4096 - size % 4096))
      (n - (4096 - size % 4096))).clip blockBytes := by
  refine appendContents_clip fun o ho => ?_
  rw [appendContents, if_neg (Nat.not_le.mpr ho), Buf.copy]
  by_cases hmem : 0 ≤ o ∧ o < 0 + (n - (4096 - size % 4096))
  · rw [if_pos (by omega), if_pos hmem, Buf.skip_apply]
    congr 1
    omega
  · rw [if_neg (by omega), if_neg hmem, if_neg (by omega)]
    rfl

lemma appendContents_fresh (hw : size % 4096 = 0) (hi : i = size / 4096) :
    appendContents size n entry i old = (Buf.zero.copy 0 entry n).clip blockBytes := by
  refine appendContents_clip fun o ho => ?_
  rw [appendContents, if_neg (Nat.not_le.mpr ho), Buf.copy]
  by_cases hmem : 0 ≤ o ∧ o < 0 + n
  · rw [if_pos (by omega), if_pos hmem]
    congr 1
    omega
  · rw [if_neg (by omega), if_neg hmem, if_neg (by omega)]
    rfl

end

variable {block : Nat → Buf} {bs : List Nat}

lemma patched_eq_of {block' : Nat → Buf} {f : Nat → Buf → Buf} {j : Nat}
    (hn : bs.Nodup) (hin : ∀ i, ∀ h : i < bs.length,
      block' bs[i] = if i < j then f i (block bs[i]) else block bs[i])
    (hout : ∀ b, b ∉ bs → block' b = block b) : block' = patched block bs f j := by
  funext b
  by_cases hb : b ∈ bs
  · obtain ⟨i, hi, rfl⟩ := List.getElem_of_mem hb
    rw [hin i hi, patched_getElem hn hi]
  · rw [hout b hb, patched_of_not_mem hb]

lemma vol_block_clip (w : World) (b : Nat) : ((vol w).block b).clip blockBytes = (vol w).block b := by
  simp only [vol]
  split
  · exact w.dev.block_clip b
  · funext i
    simp [Buf.clip, Buf.zero]

lemma ceilDiv_block (n : Nat) :
    ceilDiv n blockBytes = n / 4096 + if n % 4096 ≠ 0 then 1 else 0 := rfl

lemma ceilDiv_mono (size n : Nat) : ceilDiv size blockBytes ≤ ceilDiv (size + n) blockBytes := by
  rw [ceilDiv_block, ceilDiv_block]
  split <;> split <;> omega

variable {size n : Nat}

lemma ceilDiv_succ (hn : n ≤ blockBytes)
    (h : ceilDiv size blockBytes < ceilDiv (size + n) blockBytes) :
    ceilDiv (size + n) blockBytes = ceilDiv size blockBytes + 1 := by
  rw [ceilDiv_block, ceilDiv_block] at h ⊢
  simp only [blockBytes] at hn
  split at h <;> split at h <;> simp_all <;> omega

/-- Only blocks of the directory are written, and the entry is behind the old end of its stream. -/
structure EntryWritten (v : Vol) (block : Nat → Buf) (bs : List Nat) (size n : Nat) (entry : Buf) :
    Prop where
  frame : ∀ b, b ∉ bs → block b = v.block b
  contents : ceilDiv (size + n) blockBytes = bs.length →
    block = patched v.block bs (appendContents size n entry) (ceilDiv (size + n) blockBytes)

lemma entryWritten_of {v : Vol} {entry : Buf}
    (hn : bs.Nodup) (hframe : ∀ b, b ∉ bs → block b = v.block b)
    (hin : ceilDiv (size + n) blockBytes = bs.length → ∀ i, ∀ h : i < bs.length,
      block bs[i] = appendContents size n entry i (v.block bs[i])) :
    EntryWritten v block bs size n entry := by
  refine ⟨hframe, fun hlen => patched_eq_of hn (fun i hi => ?_) hframe⟩
  rw [if_pos (hlen ▸ hi)]
  exact hin hlen i hi

section

variable {w : World} (hm : Mounted w) {r entry : Buf} {n : Nat} {es : List Extent} {ls : List Nat}
  (hmap : Mapped w r extentDirectoryMetadata es ls)

include hm hmap

lemma overwrite_spec {k : Nat} {f : Buf → Buf} : wp (do
        let physicalBlock ← Prog.look fun w => findDirectoryBlock w r k
        let block ← Prog.look fun w => readBlock w physicalBlock
        writeBlock physicalBlock (f block))
      (fun _ w' => ∃ p, (extentBlocks es)[k]? = some p ∧ Reaches w w' w.fs { vol w with
        block := update (vol w).block p ((f ((vol w).block p)).clip blockBytes) })
      (fun _ w' => Same w w' ∧ (w.env.Healthy → covered es ≤ k)) w := by
  rw [wp_bind]
  refine .look (fun hno _ => ⟨Same.refl hm, fun hh => ?_⟩) fun p hp => ?_
  · by_contra hlt
    obtain ⟨p, hp⟩ := (hmap.walkable hm).find_of_healthy hm hh (Nat.lt_of_not_le hlt)
    exact hno _ hp
  have hplace := (hmap.walkable hm).find.1 p hp
  have hin := hmap.inData p (mem_blocks_of_extent (List.mem_of_getElem? hplace))
  rw [wp_bind]
  refine .look (fun hno _ => ⟨Same.refl hm, fun hh =>
    absurd (hm.readBlock (hm.inData_lt hin) (hh.1 p)) (hno _)⟩) fun x hx => ?_
  obtain rfl := readBlock_eq hx
  rw [← vol_block hin]
  exact (writeBlock_data_spec hm hin _).mono (fun _ w' h => ⟨p, hplace, h⟩)
    fun _ w' h => ⟨h.1, fun hh => absurd hh h.2⟩

variable (hn : n ≠ 0) (hn' : n ≤ blockBytes)

include hn

lemma writeEntryBytes_none_spec
    (hfit : ceilDiv (getLe64 r 32 + n) blockBytes ≤ ceilDiv (getLe64 r 32) blockBytes) :
    wp (writeEntryBytes r entry n none)
      (fun _ w' => ∃ block, Reaches w w' w.fs { vol w with block } ∧
        EntryWritten (vol w) block (extentBlocks es) (getLe64 r 32) n entry)
      (fun _ w' => Same w w' ∧ (w.env.Healthy → covered es ≤ getLe64 r 32 / blockBytes)) w := by
  refine (overwrite_spec hm hmap).mono (fun _ w' h => ?_) fun _ _ h => h
  obtain ⟨p, hplace, h⟩ := h
  have hmem := List.mem_of_getElem? hplace
  refine ⟨_, h, entryWritten_of hmap.nodup_extents (fun b hb => ?_) fun hlen i hi => ?_⟩
  · exact update_of_ne (ne_of_mem_of_not_mem hmem hb).symm _ _
  · generalize getLe64 r 32 = size at hfit hplace hlen ⊢
    rw [ceilDiv_block] at hfit hlen
    rw [ceilDiv_block] at hfit
    obtain ⟨hk, rfl⟩ := List.getElem?_eq_some_iff.mp hplace
    simp only [blockBytes] at hk hplace ⊢
    by_cases hik : i = size / 4096
    · subst hik
      rw [update_self]
      refine (appendContents_last ?_ rfl ?_).symm
      · intro h0
        split at hfit <;> split at hfit <;> omega
      · split at hfit <;> split at hfit <;> omega
    · rw [update_of_ne]
      · refine (appendContents_before (vol_block_clip w _) ?_).symm
        split at hfit <;> split at hfit <;> split at hlen <;> omega
      · intro heq
        exact hik ((List.Nodup.getElem_inj_iff hmap.nodup_extents).mp heq)

include hn'

lemma writeEntryBytes_some_spec {p : Nat} (hp : InData w.fs.layout p) (hnew : p ∉ extentBlocks es)
    (hgrow : ceilDiv (getLe64 r 32) blockBytes < ceilDiv (getLe64 r 32 + n) blockBytes) :
    wp (writeEntryBytes r entry n (some p))
      (fun _ w' => ∃ block, Reaches w w' w.fs { vol w with block } ∧
        EntryWritten (vol w) block (extentBlocks es ++ [p]) (getLe64 r 32) n entry)
      (fun _ w' => ∃ block, Reaches w w' w.fs { vol w with block } ∧
        (∀ b, b ∉ extentBlocks es ++ [p] → block b = (vol w).block b) ∧
        (w.env.Healthy → getLe64 r 32 % blockBytes ≠ 0 ∧
          covered es ≤ getLe64 r 32 / blockBytes)) w := by
  have hnodup : (extentBlocks es ++ [p]).Nodup := by
    rw [List.nodup_append]
    refine ⟨hmap.nodup_extents, by simp, ?_⟩
    rintro a ha b hb rfl
    rw [List.mem_singleton] at hb
    exact hnew (hb ▸ ha)
  simp only [writeEntryBytes]
  by_cases hw : getLe64 r 32 % blockBytes ≠ 0
  · rw [if_pos hw]
    set first := blockBytes - getLe64 r 32 % blockBytes with hfirst
    have hover := @overwrite_spec w hm r es ls hmap (getLe64 r 32 / blockBytes)
      fun block => block.copy (getLe64 r 32 % blockBytes) entry first
    have hstop : ∀ (e : Option String) w', (Same w w' ∧
        (w.env.Healthy → covered es ≤ getLe64 r 32 / blockBytes)) → ∃ block,
        Reaches w w' w.fs { vol w with block } ∧
        (∀ b, b ∉ extentBlocks es ++ [p] → block b = (vol w).block b) ∧
        (w.env.Healthy → getLe64 r 32 % blockBytes ≠ 0 ∧
          covered es ≤ getLe64 r 32 / blockBytes) :=
      fun _ _ h => ⟨_, h.1, fun _ _ => rfl, fun hh => ⟨hw, h.2 hh⟩⟩
    rw [wp_bind] at hover ⊢
    refine hover.mono (fun _ _ h => ?_) hstop
    rw [wp_bind] at h ⊢
    refine h.mono (fun _ _ h => ?_) hstop
    rw [wp_bind]
    refine h.mono (fun _ w1 h => ?_) hstop
    obtain ⟨q, hplace, h1⟩ := h
    have hq := List.mem_of_getElem? hplace
    have hp1 : InData w1.fs.layout p := by
      rw [h1.fs]
      exact hp
    refine (writeBlock_data_spec h1.mounted hp1 _).mono (fun _ w2 h2 => ?_) (fun _ w2 h2 => ?_)
    · rw [h1.fs, h1.vol] at h2
      dsimp only at h2
      refine ⟨_, h1.trans h2, entryWritten_of hnodup (fun b hb => ?_) fun hlen i hi => ?_⟩
      · rw [update_of_ne (ne_of_mem_of_not_mem (by simp) hb).symm,
          update_of_ne (ne_of_mem_of_not_mem (by simp [hq]) hb).symm]
      · generalize getLe64 r 32 = size at *
        rw [ceilDiv_block, List.length_append, List.length_singleton] at hlen
        rw [ceilDiv_block, ceilDiv_block] at hgrow
        obtain ⟨hk, hget⟩ := List.getElem?_eq_some_iff.mp hplace
        simp only [blockBytes] at hk hget hw hfirst hn'
        have hlen' : (extentBlocks es).length = size / 4096 + 1 := by
          split at hgrow <;> split at hlen <;> omega
        by_cases hip : i = size / 4096 + 1
        · subst hip
          rw [List.getElem_append_right (by omega)]
          simp only [hlen', Nat.sub_self, List.getElem_cons_zero, update_self]
          rw [appendContents_rest rfl hn', hfirst]
        · have hi' : i < (extentBlocks es).length := by
            rw [List.length_append, List.length_singleton] at hi
            omega
          rw [List.getElem_append_left hi', update_of_ne
            (ne_of_mem_of_not_mem (List.getElem_mem hi') hnew)]
          by_cases hik : i = size / 4096
          · subst hik
            rw [hget, update_self]
            refine (appendContents_last hw rfl ?_).symm
            split at hgrow <;> split at hgrow <;> omega
          · rw [update_of_ne]
            · exact (appendContents_before (vol_block_clip w _) (by omega)).symm
            · intro heq
              rw [← hget] at heq
              exact hik ((List.Nodup.getElem_inj_iff hmap.nodup_extents).mp heq)
    · have h12 := h1.same h2.1
      refine ⟨_, h12, fun b hb => ?_, fun hh => absurd hh (h1.env ▸ h2.2)⟩
      exact update_of_ne (ne_of_mem_of_not_mem (by simp [hq]) hb).symm _ _
  · rw [if_neg hw]
    refine (writeBlock_data_spec hm hp _).mono (fun _ w' h => ?_) (fun _ w' h => ?_)
    · refine ⟨_, h, entryWritten_of hnodup (fun b hb => ?_) fun hlen i hi => ?_⟩
      · exact update_of_ne (ne_of_mem_of_not_mem (by simp) hb).symm _ _
      · generalize getLe64 r 32 = size at *
        rw [ceilDiv_block, List.length_append, List.length_singleton] at hlen
        rw [ceilDiv_block, ceilDiv_block] at hgrow
        simp only [blockBytes, ne_eq, not_not] at hw hn'
        have hlen' : (extentBlocks es).length = size / 4096 := by
          split at hlen <;> omega
        by_cases hip : i = size / 4096
        · subst hip
          rw [List.getElem_append_right (by omega)]
          simp only [hlen', Nat.sub_self, List.getElem_cons_zero, update_self]
          rw [appendContents_fresh hw rfl]
        · have hi' : i < (extentBlocks es).length := by
            rw [List.length_append, List.length_singleton] at hi
            omega
          rw [List.getElem_append_left hi', update_of_ne
            (ne_of_mem_of_not_mem (List.getElem_mem hi') hnew)]
          exact (appendContents_before (vol_block_clip w _) (by omega)).symm
    · exact ⟨_, h.1, fun _ _ => rfl, fun hh => absurd hh h.2⟩

end

/-- All that a successful append does to the volume. -/
structure Appended (w w' : World) (id s : Nat) (r entry : Buf) (n : Nat) (es : List Extent)
    (ls : List Nat) (es' : List Extent) (news extra : List Nat) (head : Nat)
    (block : Nat → Buf) : Prop where
  bytes : n ≠ 0 ∧ n ≤ blockBytes
  size_lt : getLe64 r 32 + n < 2 ^ 64
  grows : ceilDiv (getLe64 r 32) blockBytes < ceilDiv (getLe64 r 32 + n) blockBytes →
    ∃ p, news = [p] ∧
      es' = appendBlock es (ceilDiv (getLe64 r 32) blockBytes) p extentDirectoryMetadata
  stays : ceilDiv (getLe64 r 32 + n) blockBytes ≤ ceilDiv (getLe64 r 32) blockBytes →
    news = [] ∧ es' = es
  remap : Remap w r es es' news extra head
  fits : Fits extentDirectoryMetadata es'
  written : EntryWritten (vol w) block (extentBlocks es') (getLe64 r 32) n entry
  reaches : Reaches w w' (dentryCacheInvalidateParent w.fs id)
    (rewrittenVol (vol w) s (getLe64 r 16) (directoryRecord r (getLe64 r 32 + n) es' head)
      extentDirectoryMetadata block [] es' news extra head)

/-- What an append demands: an entry of at most a block, and sizes that do not overflow. -/
def AppendFits (w : World) (r : Buf) (n : Nat) : Prop :=
  n ≠ 0 ∧ n ≤ blockBytes ∧ getLe64 r 32 + n < 2 ^ 64 ∧ w.fs.layout.recordCount ≤ u64Max / 32

/-- Why an append may fail on a device without faults. -/
def AppendFails (w : World) (r : Buf) (es : List Extent) : Prop :=
  NoRoom w.fs.layout (vol w).used 2 ∨ 2 + extentsPerListBlock ≤ es.length ∨
    (getLe64 r 32 % blockBytes ≠ 0 ∧ covered es ≤ getLe64 r 32 / blockBytes)

/-- The stream of the directory reads as before. -/
structure StreamKept (v v' : Vol) (size : Nat) (es : List Extent) (ls : List Nat) : Prop where
  record : v'.record = v.record
  lists : ∀ b ∈ ls, v'.block b = v.block b
  bytes : ∀ i o b, (extentBlocks es)[i]? = some b → o < 4096 → i * 4096 + o < size →
    v'.block b o = v.block b o

/-- An append that stopped: on a device without faults there is a reason for it, and the old stream
is kept. -/
def AppendStopped (w w' : World) (s : Nat) (r : Buf) (es : List Extent) (ls : List Nat) : Prop :=
  Interrupted w w' s w.fs (AppendFails w r es ∧
    (ceilDiv (getLe64 r 32) blockBytes = covered es →
      StreamKept (vol w) (vol w') (getLe64 r 32) es ls))

lemma EntryWritten.bytes_kept {v : Vol} {news : List Nat}
    {entry : Buf} (h : EntryWritten v block (bs ++ news) size n entry) (hn : (bs ++ news).Nodup)
    (hlen : ceilDiv (size + n) blockBytes = (bs ++ news).length) {i o b : Nat}
    (hb : bs[i]? = some b) (ho : o < 4096) (hi : i * 4096 + o < size) : block b o = v.block b o := by
  have hlt : i < bs.length := (List.getElem?_eq_some_iff.mp hb).1
  have hget : (bs ++ news)[i]? = some b := by rw [List.getElem?_append_left hlt, hb]
  obtain ⟨hlt', rfl⟩ := List.getElem?_eq_some_iff.mp hget
  have hin : i < ceilDiv (size + n) blockBytes := by
    rw [hlen]
    exact hlt'
  rw [h.contents hlen, patched_getElem hn hlt']
  have hb : ¬ 4096 ≤ o := by omega
  have hs : ¬ (size ≤ i * 4096 + o ∧ i * 4096 + o < size + n) := by omega
  have ho : i * 4096 < size := Nat.lt_of_le_of_lt (Nat.le_add_right _ _) hi
  simp only [hin, if_true, appendContents, hb, hs, ho, if_false]

lemma Same.streamKept {w' : World} (h : Same w w') : StreamKept (vol w) (vol w') size es ls := by
  rw [h.vol]
  exact ⟨rfl, fun _ _ => rfl, fun _ _ _ _ _ _ => rfl⟩

section

variable {w : World} (hm : Mounted w) {id s n : Nat} {r entry : Buf} {es : List Extent}
  {ls : List Nat}

lemma placeDirectoryList_spec (hopen : DirOpen w id s r es ls) {es' : List Extent} {news : List Nat}
    {block : Nat → Buf} {w1 : World} (h1 : Reaches w w1 w.fs
      { vol w with
        used := marked (vol w).used news
        block }) (hblocks : extentBlocks es' = extentBlocks es ++ news)
    (hnodup : (extentBlocks es').Nodup) (hff : FirstFits w.fs.layout (vol w).used news)
    (hlen : news.length ≤ 1) (hes : es'.length ≤ es.length + 1)
    (hfront : 2 < es'.length → getLe64 r 56 ≠ 0 →
      es'.take (getLe64 r 48) = es.take (getLe64 r 48)) (hfits : Fits extentDirectoryMetadata es')
    (hw : EntryWritten (vol w) block (extentBlocks es') (getLe64 r 32) n entry)
    (hcov : ceilDiv (getLe64 r 32) blockBytes = covered es →
      ceilDiv (getLe64 r 32 + n) blockBytes = (extentBlocks es').length) : wp (do
        let listHead ← placeExtentList id (getLe64 r 56) es' extentDirectoryMetadata
        let newParent := directoryRecord r (getLe64 r 32 + n) es' listHead
        let slot ← Prog.look fun w => findSlot w id none
        writeRecordSlot slot newParent
        Prog.modify fun w => { w with fs := dentryCacheInvalidateParent w.fs id }
        return newParent)
      (fun out w' => ∃ extra head, out = directoryRecord r (getLe64 r 32 + n) es' head ∧
        Remap w r es es' news extra head ∧
        Reaches w w' (dentryCacheInvalidateParent w.fs id)
          (rewrittenVol (vol w) s (getLe64 r 16) (directoryRecord r (getLe64 r 32 + n) es' head)
            extentDirectoryMetadata block [] es' news extra head))
      (fun _ w' => AppendStopped w w' s r es ls) w1 := by
  have hn := hopen.names
  have hmap := hopen.mapped
  have hframe := hw.frame
  have hsource : ∀ b ∈ extentBlocks es', b ∈ extentBlocks es ∨ b ∈ news := by
    intro b hb
    rwa [hblocks, List.mem_append] at hb
  have hkeep : ∀ b, (vol w).used b = true → b ∉ extentBlocks es → block b = (vol w).block b := by
    intro b hb hne
    refine hframe b fun he => ?_
    rcases hsource b he with h | h
    · exact hne h
    · have hfree := (hff.free b h).2
      rw [hb] at hfree
      cases hfree
  have hold : getLe64 r 56 ≠ 0 → InData w1.fs.layout (getLe64 r 56) := by
    intro h0
    rw [h1.fs]
    exact hmap.inData _ (mem_blocks_of_list (hmap.head h0))
  rw [wp_bind]
  refine (placeExtentList_spec h1.mounted hold).mono (fun head w2 h2 => ?_) (fun _ w2 h2 => ?_)
  swap
  · obtain ⟨extra, -, h2, hc⟩ := h2
    rw [h1.fs, h1.vol] at h2 hc
    have h12 := h1.trans h2
    simp only [marked_append] at h12
    refine hmap.interrupted hn h12 hkeep fun hh => ⟨?_, fun hc => ?_⟩
    swap
    · rw [h12.vol]
      rw [hblocks] at hw hnodup
      have hlen := hcov hc
      rw [hblocks] at hlen
      exact ⟨rfl, fun b hb => hkeep b (hmap.used b (mem_blocks_of_list hb)) (hmap.disjoint hb),
        fun i o b hb ho hi => hw.bytes_kept hnodup hlen hb ho hi⟩
    rcases hc (h1.env ▸ hh) with ⟨more, hmlen, hfm, hall⟩ | hbig
    · refine .inl ⟨news ++ more, ?_, hff.append hfm, ?_⟩
      · rw [List.length_append]
        omega
      · rw [← marked_append]
        exact hall
    · exact .inr (.inl (by omega))
  obtain ⟨extra, hplaced, h2⟩ := h2
  rw [h1.fs, h1.vol] at h2 hplaced
  rw [← hn.id] at h2
  have h12 := h1.trans h2
  have hp : Remap w r es es' news extra head :=
    ⟨hsource, hnodup, hff.append hplaced.fits, hplaced, hfront⟩
  have hslot : findRecordSlot w2.fs id = some s := by
    rw [h12.fs]
    exact hn.slot
  rw [wp_bind]
  refine .look_ok (findSlot_ok.mpr hslot) ?_
  rw [wp_bind]
  refine (writeRecordSlot_spec h12.mounted (h12.fs ▸ hn.lt) _).mono (fun _ w3 h3 => ?_)
    (fun _ w3 h3 => ?_)
  · rw [wp_bind, wp_modify, wp_pure]
    rw [h12.fs, h12.vol] at h3
    have h13 := h12.trans h3
    refine ⟨extra, head, rfl, hp, ?_⟩
    rw [rewrittenVol, released_nil, h13.fs]
    exact h13.setFs rfl rfl
  · have h13 := h12.same h3.1
    refine ⟨h13.env, h13.fs, h13.mounted, ?_, fun hh => absurd hh (h12.env ▸ h3.2)⟩
    rw [h13.vol]
    exact hp.rewrites_placed hn.record hmap hfits (by decide) hframe hn.ok.inlineExtents

lemma DirOpen.front (hopen : DirOpen w id s r es ls) {logical physical : Nat}
    (h0 : getLe64 r 56 ≠ 0) :
    (appendBlock es logical physical extentDirectoryMetadata).take (getLe64 r 48) =
      es.take (getLe64 r 48) := by
  have h48 := hopen.names.ok.inlineExtents
  have hlen := hopen.mapped.collected.length
  refine take_appendBlock ?_
  by_contra h
  exact h0 (hopen.names.ok.listHead (by omega))

include hm

lemma appendDirectoryEntry_spec (ho : NodeOwned w id) : wp (appendDirectoryEntry id entry n)
      (fun out w' => ∃ s r es ls es' news extra head block, DirOpen w id s r es ls ∧
        out = directoryRecord r (getLe64 r 32 + n) es' head ∧
        Appended w w' id s r entry n es ls es' news extra head block)
      (fun _ w' => (w' = w ∧ (w.env.Healthy → ∀ s r es ls, DirOpen w id s r es ls →
          ¬ AppendFits w r n)) ∨
        ∃ s r es ls, DirOpen w id s r es ls ∧ AppendFits w r n ∧ AppendStopped w w' s r es ls) w := by
  rw [appendDirectoryEntry, wp_bind, wp_look]
  refine ⟨fun r hread => ?_, fun e he => .inl ⟨rfl, fun hh s r es ls h hfit => ?_⟩⟩
  swap
  · rw [(ensure_ok (u := ())).mpr ⟨hfit.1, hfit.2.1⟩] at he
    simp only [bind, Except.bind, h.read hm hh, orElse] at he
    cases he
  simp only [orElse_ok, ensure_bind_ok, readDirectoryRecord_ok] at hread
  obtain ⟨⟨hn0, hn4⟩, hread, htype⟩ := hread
  obtain ⟨s, hn⟩ := readRecord_names hm hread
  have huniq : ∀ s' r' es' ls', DirOpen w id s' r' es' ls' → r' = r := fun _ _ _ _ h =>
    (h.names.slot_unique hn).2
  rw [wp_bind, wp_require]
  refine ⟨fun hb => ?_, fun hb => .inl ⟨rfl, fun _ s' r' es ls h hfit => hb ?_⟩⟩
  swap
  · obtain rfl := huniq _ _ _ _ h
    have := hfit.2.2.1
    rw [show u64Max = 2 ^ 64 - 1 from rfl]
    omega
  rw [show u64Max = 2 ^ 64 - 1 from rfl] at hb
  have hsz : getLe64 r 32 + n < 2 ^ 64 := by
    simp only [blockBytes] at hn4
    omega
  rw [wp_bind, wp_get, wp_bind, wp_require]
  refine ⟨fun hcap => ?_, fun hb => .inl ⟨rfl, fun _ s' r' es ls h hfit => hb hfit.2.2.2⟩⟩
  have hfit : AppendFits w r n := ⟨hn0, hn4, hsz, hcap⟩
  rw [wp_bind]
  refine .look (fun hno _ => .inl ⟨rfl, fun hh => absurd (kmalloc_ok hh _ _) (hno _)⟩) fun _ _ => ?_
  rw [wp_bind]
  refine .look (fun hno _ => .inl ⟨rfl, fun hh s' r' es ls h => ?_⟩) fun es hes => ?_
  · obtain rfl := huniq _ _ _ _ h
    exact absurd (h.mapped.collectFileExtents hm hh h.capacity) (hno _)
  obtain ⟨ls, hmap⟩ := mapped_of_collect (ho s r hn) hn.record hes
  have hopen : DirOpen w id s r es ls := ⟨hn, htype, hmap, collected_capacity hes⟩
  have hbound := hmap.bounded hm
  have hfits := fits_of_laid hmap.collected.laid hbound (by
    have := hmap.covered_le
    have := hm.dataBlocks_lt
    omega)
  by_cases hgrow : ceilDiv (getLe64 r 32 + n) blockBytes > ceilDiv (getLe64 r 32) blockBytes
  · simp only [if_pos hgrow]
    rw [wp_bind]
    refine (allocateDataBlock_spec hm).mono (fun p w1 h1 => ?_) (fun _ w1 h1 => ?_)
    swap
    · refine .inr ⟨s, r, es, ls, hopen, hfit, h1.1.env, h1.1.fs, h1.1.mounted, ?_, fun hh =>
        ⟨.inl ⟨[], by simp, .nil, fun b hb => ?_⟩, fun _ => h1.1.streamKept⟩⟩
      · rw [h1.1.vol]
        exact (hmap.owned hn.record).refl_rewrites
      · rw [marked_nil]
        exact h1.2 hh b hb
    obtain ⟨hfree, h1⟩ := h1
    rw [marked_singleton] at h1
    have hff : FirstFits w.fs.layout (vol w).used [p] := .cons hfree .nil
    have hpnew : p ∉ (FileMap.mk es ls).blocks := by
      intro h
      have := hmap.used p h
      rw [hfree.free] at this
      cases this
    have hbapp := extentBlocks_appendBlock hbound (ceilDiv (getLe64 r 32) blockBytes) p
      extentDirectoryMetadata
    rw [wp_bind]
    refine (growDirectory_spec hbound).mono (fun es' w2 h2 => ?_) (fun _ w2 h2 => ?_)
    swap
    · obtain ⟨hfull, rfl⟩ := h2
      refine .inr ⟨s, r, es, ls, hopen, hfit,
        (wp_state (P := fun w2 => AppendStopped w w2 s r es ls)).mp ?_⟩
      refine (freeDataBlock_spec h1.mounted p).mono (fun _ w2 h2 => ?_) (fun _ w2 h2 => ?_)
      · have h12 := h1.trans (h1.fs ▸ h2.2)
        refine ⟨h12.env, h12.fs, h12.mounted, ?_, fun _ => ⟨.inr (.inl hfull), fun _ => ?_⟩⟩
        swap
        · rw [h12.vol, h1.vol]
          exact ⟨rfl, fun _ _ => rfl, fun _ _ _ _ _ _ => rfl⟩
        rw [h12.vol, h1.vol]
        refine hmap.before hn.record rfl rfl (fun b hb => ?_) fun _ _ _ => rfl
        have hne : b ≠ p := by
          rintro rfl
          rw [hfree.free] at hb
          cases hb
        simp only [update_of_ne hne]
        exact marked_of_used hb
      · have h12 := h1.same h2.1
        refine hmap.interrupted hn h12 (fun _ _ _ => rfl) fun _ => ⟨.inr (.inl hfull), fun _ => ?_⟩
        rw [h12.vol]
        exact ⟨rfl, fun _ _ => rfl, fun _ _ _ _ _ _ => rfl⟩
    obtain ⟨rfl, rfl⟩ := h2
    have hmap1 : Mapped w2 r extentDirectoryMetadata es ls := by
      refine hmap.transfer (by rw [h1.fs]) (fun b _ => by rw [h1.vol]) fun b hb => ?_
      rw [h1.vol]
      exact marked_of_used (hmap.used b hb)
    rw [wp_bind]
    refine (writeEntryBytes_some_spec h1.mounted hmap1 hn0 hn4 (h1.fs ▸ hfree.inData)
      (fun h => hpnew (mem_blocks_of_extent h)) hgrow).mono (fun _ w3 h3 => ?_) (fun _ w3 h3 => ?_)
    swap
    · obtain ⟨block, h3, hframe, hc⟩ := h3
      rw [h1.fs, h1.vol] at h3
      refine .inr ⟨s, r, es, ls, hopen, hfit, hmap.interrupted hn (h1.trans h3) (fun b hb hne => ?_)
        fun hh => ⟨.inr (.inr (hc (h1.env ▸ hh))), fun hcov => ?_⟩⟩
      swap
      · obtain ⟨hne, hle⟩ := hc (h1.env ▸ hh)
        simp only [blockBytes] at hne hle
        rw [ceilDiv_block, if_pos hne] at hcov
        omega
      rw [hframe b, h1.vol]
      rw [List.mem_append, List.mem_singleton]
      rintro (h | rfl)
      · exact hne h
      · rw [hfree.free] at hb
        cases hb
    obtain ⟨block, h3, hw⟩ := h3
    rw [h1.fs, h1.vol] at h3
    rw [h1.vol, ← hbapp] at hw
    have hw : EntryWritten (vol w) block _ (getLe64 r 32) n entry := ⟨hw.frame, hw.contents⟩
    rw [wp_bind, wp_pure]
    have hp64 := hm.inData_bound hfree.inData
    have hold64 : ceilDiv (getLe64 r 32) blockBytes < 2 ^ 64 := by
      have := ceilDiv_le (getLe64 r 32)
      omega
    have hfits' := fits_appendBlock hfits hbound hold64 hp64
    refine (placeDirectoryList_spec hopen (h1.trans h3) hbapp ?_ hff (by simp)
      length_appendBlock.2 (fun _ => hopen.front) hfits' hw fun hcov => ?_).mono (fun out w' h => ?_)
      fun _ w' h => .inr ⟨s, r, es, ls, hopen, hfit, h⟩
    · rw [hbapp, List.nodup_append]
      refine ⟨hmap.nodup_extents, by simp, ?_⟩
      rintro a ha b hb rfl
      rw [List.mem_singleton] at hb
      exact hpnew (mem_blocks_of_extent (hb ▸ ha))
    · rw [hbapp, List.length_append, length_extentBlocks, ← hcov, List.length_singleton]
      exact ceilDiv_succ hn4 hgrow
    · obtain ⟨extra, head, rfl, hp, h⟩ := h
      exact ⟨s, r, es, ls, _, [p], extra, head, block, hopen, rfl, ⟨hn0, hn4⟩, hsz,
        fun _ => ⟨p, rfl, rfl⟩, fun h => absurd hgrow (Nat.not_lt.mpr h), hp, hfits', hw, h⟩
  · simp only [if_neg hgrow]
    rw [wp_bind]
    refine (writeEntryBytes_none_spec hm hmap hn0 (Nat.le_of_not_lt hgrow)).mono (fun _ w1 h1 => ?_)
      (fun _ w1 h1 => ?_)
    swap
    · refine .inr ⟨s, r, es, ls, hopen, hfit, h1.1.env, h1.1.fs, h1.1.mounted, ?_, fun hh =>
        ⟨.inr (.inr ⟨?_, h1.2 hh⟩), fun _ => h1.1.streamKept⟩⟩
      · rw [h1.1.vol]
        exact (hmap.owned hn.record).refl_rewrites
      · intro h0
        rw [ceilDiv_block, ceilDiv_block] at hgrow
        simp only [blockBytes] at h0
        split at hgrow <;> split at hgrow <;> omega
    obtain ⟨block, h1, hw⟩ := h1
    rw [wp_bind, wp_pure]
    have h1' : Reaches w w1 w.fs
        { vol w with
          used := marked (vol w).used []
          block } := by
      rw [marked_nil]
      exact h1
    refine (placeDirectoryList_spec hopen h1' (List.append_nil _).symm hmap.nodup_extents .nil
      (by simp) (by omega) (fun _ _ => rfl) hfits hw fun hcov => ?_).mono (fun out w' h => ?_)
      fun _ w' h => .inr ⟨s, r, es, ls, hopen, hfit, h⟩
    · rw [length_extentBlocks, ← hcov]
      exact le_antisymm (Nat.le_of_not_lt hgrow) (ceilDiv_mono _ _)
    obtain ⟨extra, head, rfl, hp, h⟩ := h
    exact ⟨s, r, es, ls, es, [], extra, head, block, hopen, rfl, ⟨hn0, hn4⟩, hsz,
      fun h => absurd h hgrow, fun _ => ⟨rfl, rfl⟩, hp, hfits, hw, h⟩

end

section

variable {w w' : World} {id s n : Nat} {r entry : Buf} {es : List Extent} {ls : List Nat}
  {es' : List Extent} {news extra : List Nat} {head : Nat} {block : Nat → Buf}

variable (hopen : DirOpen w id s r es ls)
  (h : Appended w w' id s r entry n es ls es' news extra head block)

include hopen h

lemma Appended.blocks (hm : Mounted w) : extentBlocks es' = extentBlocks es ++ news := by
  rcases Nat.lt_or_ge (ceilDiv (getLe64 r 32) blockBytes) (ceilDiv (getLe64 r 32 + n) blockBytes)
    with hlt | hge
  · obtain ⟨p, rfl, rfl⟩ := h.grows hlt
    exact extentBlocks_appendBlock (hopen.mapped.bounded hm) _ _ _
  · obtain ⟨rfl, rfl⟩ := h.stays hge
    exact (List.append_nil _).symm

omit hopen in
lemma Appended.remapped (hm : Mounted w) :
    Remapped r (directoryRecord r (getLe64 r 32 + n) es' head) es' head :=
  directoryRecord_remapped h.fits (Nat.lt_of_le_of_lt h.remap.length_le (by decide))
    (h.remap.head_lt hm)

lemma Appended.rewrites (hm : Mounted w) : Rewrites (vol w) (vol w') s := by
  rw [h.reaches.vol]
  exact h.remap.rewrites_written hopen.names.record hopen.mapped h.fits (by decide) h.written.frame
    hm (h.remapped hm) nofun

end

lemma sameIndex_invalidate (fs : Fs) (parentId : Nat) :
    SameIndex fs (dentryCacheInvalidateParent fs parentId) :=
  ⟨rfl, rfl, rfl, rfl⟩

end Mangrove.Mgfs
