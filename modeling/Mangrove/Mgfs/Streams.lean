import Mangrove.Mgfs.Consistency

/-! Runs of operations on a mounted volume, and directory streams as bytes: an appended entry
is at the end of a stream that is otherwise as before. -/

namespace Mangrove.Mgfs

variable {w : World} {id : Nat}

lemma Mounted.facing (hm : Mounted w) (e : Env) : Mounted (w.facing e) :=
  ⟨hm.1, hm.2, hm.3, hm.4, hm.5, hm.6⟩

variable {w' : World}

/-- Blocks put end to end. -/
def stream (g : Nat → Buf) : Buf := fun i => g (i / blockBytes) (i % blockBytes)

variable {offset : Nat}

lemma within_block {i : Nat} (h : offset % blockBytes + i < blockBytes) :
    (offset + i) / blockBytes = offset / blockBytes ∧
      (offset + i) % blockBytes = offset % blockBytes + i := by
  simp only [blockBytes] at h ⊢
  omega

lemma stream_within {g : Nat → Buf} {i : Nat} (h : offset % blockBytes + i < blockBytes) :
    g (offset / blockBytes) (offset % blockBytes + i) = stream g (offset + i) := by
  simp only [stream, within_block h]

lemma chunk_bounds {remaining chunk : Nat} (h0 : remaining ≠ 0)
    (hc : chunk = if blockBytes - offset % blockBytes > remaining then remaining
      else blockBytes - offset % blockBytes) :
    0 < chunk ∧ chunk ≤ remaining ∧ offset % blockBytes + chunk ≤ blockBytes := by
  split at hc <;> simp only [blockBytes] at * <;> omega

lemma collected_empty {block : Nat → Buf} {r : Buf} {flag : Nat} (h40 : getLe64 r 40 = 0)
    (h48 : getLe64 r 48 = 0) (h56 : getLe64 r 56 = 0) : Collected block r flag [] [] := by
  refine ⟨by rw [h56]; exact .nil, by rw [h48]; rfl, trivial, h40.symm, nofun⟩

lemma Names.rewritten {w w' : World} {id s : Nat} {r r' : Buf} (h : Names w id s r)
    (hi : SameIndex w.fs w'.fs) (hr : (vol w').record s = r')
    (hok : RecordOk (some w.fs.formatMinor) r') (hid : getLe64 r' 16 = getLe64 r 16) :
    Names w' id s r' where
  slot := by
    rw [hi.findRecordSlot]
    exact h.slot
  lt := by
    rw [hi.layout]
    exact h.lt
  record := hr
  ok := by
    rw [hi.formatMinor]
    exact hok
  id := hid.trans h.id

/-- The bytes of a directory, as its extents give them. -/
def extentBuf (v : Vol) (es : List Extent) : Buf :=
  stream fun k => v.block ((extentBlocks es).getD k 0)

/-- An entry at `offset` of a stream of `size` bytes, checked as
`readDirectoryEntry` checks it. -/
def parseEntry (b : Buf) (size offset : Nat) : Res DirectoryEntry := do
  ensure (offset ≤ size ∧ 32 ≤ size - offset) (some "truncated MGFS directory entry header")
  let entry := b.skip offset
  let nameLength := getLe64 entry 8
  ensure (nameLength ≠ 0 ∧ nameLength ≤ 255) (some "invalid MGFS directory entry name length")
  let totalBytes := alignedLength nameLength
  ensure (totalBytes ≤ 288 ∧ totalBytes ≤ size - offset) (some "truncated MGFS directory entry")
  ensure (checksumBlock entry 24 totalBytes) (some "MGFS directory entry checksum mismatch")
  ensure (∀ i < totalBytes, 32 + nameLength ≤ i → entry i = 0)
    (some "nonzero MGFS directory entry padding")
  let name := (entry.skip 32).bytes nameLength
  ensure (getLe64 entry 0 ≠ 0 ∧
      (getLe64 entry 16 = direntInUse ∨ getLe64 entry 16 = direntTombstone) ∧ validUtf8Name name)
    (some "invalid MGFS directory entry fields or name")
  return {
    targetRecordId := getLe64 entry 0
    nameLength
    flags := getLe64 entry 16
    totalBytes
    name }

/-- There is a valid entry at this offset of the stream. -/
structure EntryAt (b : Buf) (size offset : Nat) (e : DirectoryEntry) : Prop where
  header : offset + 32 ≤ size
  nameLength : getLe64 b (offset + 8) = e.nameLength
  nameLength_pos : e.nameLength ≠ 0
  nameLength_le : e.nameLength ≤ 255
  totalBytes : e.totalBytes = alignedLength e.nameLength
  room : offset + e.totalBytes ≤ size
  checksum : checksumBlock (b.skip offset) 24 e.totalBytes = true
  padding : ∀ i < e.totalBytes, 32 + e.nameLength ≤ i → b (offset + i) = 0
  name : e.name = (b.skip (offset + 32)).bytes e.nameLength
  target : getLe64 b offset = e.targetRecordId
  target_ne : e.targetRecordId ≠ 0
  flags : getLe64 b (offset + 16) = e.flags
  flags_known : e.flags = direntInUse ∨ e.flags = direntTombstone
  valid : validUtf8Name e.name = true

lemma alignedLength_bounds {n : Nat} (h : n ≤ 255) :
    32 + n ≤ alignedLength n ∧ alignedLength n ≤ 288 ∧ alignedLength n < 32 + n + 8 := by
  unfold alignedLength
  omega

section

variable {b : Buf} {size : Nat} {e : DirectoryEntry}

lemma parseEntry_ok : parseEntry b size offset = .ok e ↔ EntryAt b size offset e := by
  simp only [parseEntry, ensure_bind_ok, getLe64_skip, Nat.add_zero, Buf.skip_skip,
    Buf.skip_apply]
  constructor
  · rintro ⟨h1, h2, h3, h4, h5, h6, he⟩
    cases he
    exact ⟨by omega, rfl, h2.1, h2.2, rfl, by dsimp only; omega, h4, h5, rfl, rfl, h6.1, rfl, h6.2.1, h6.2.2⟩
  · intro h
    obtain ⟨target, nameLength, flags, totalBytes, name⟩ := e
    have htotal := h.totalBytes
    have hname := h.name
    have hle := alignedLength_bounds h.nameLength_le
    have hroom := h.room
    have hheader := h.header
    simp only [h.nameLength, h.target, h.flags, ← htotal, ← hname] at hle ⊢
    exact ⟨by omega, ⟨h.nameLength_pos, h.nameLength_le⟩, ⟨by omega, by simp only at hroom; omega⟩,
      h.checksum, h.padding, ⟨h.target_ne, h.flags_known, h.valid⟩, rfl⟩

lemma EntryAt.unique {e' : DirectoryEntry}
    (h : EntryAt b size offset e) (h' : EntryAt b size offset e') : e = e' :=
  Except.ok.inj ((parseEntry_ok.mpr h).symm.trans (parseEntry_ok.mpr h'))

lemma copy_nothing (dst src : Buf) (position : Nat) : dst.copy position src 0 = dst := by
  funext i
  simp only [Buf.copy]
  rw [if_neg (by omega)]

lemma copy_copy_adjacent {dst src next whole : Buf} {position chunk rest : Nat}
    (hs : ∀ i < chunk, src i = whole i) (hn : ∀ i, next i = whole (chunk + i)) :
    (dst.copy position src chunk).copy (position + chunk) next rest =
      dst.copy position whole (chunk + rest) := by
  funext i
  simp only [Buf.copy]
  by_cases hi : position + chunk ≤ i ∧ i < position + chunk + rest
  · rw [if_pos hi, if_pos (by omega), hn]
    congr 1
    omega
  · rw [if_neg hi]
    by_cases hi' : position ≤ i ∧ i < position + chunk
    · rw [if_pos hi', if_pos (by omega), hs _ (by omega)]
    · rw [if_neg hi', if_neg (by omega)]

lemma readDirectoryChunks_eq {w : World} {r : Buf} {g : Nat → Buf}
    {fuel offset remaining position : Nat} {output : Buf} (hfuel : remaining ≤ fuel)
    (h : ∀ k, k * 4096 < offset + remaining → readDirectoryBlock w r k = .ok (g k)) :
    readDirectoryChunks w r fuel offset remaining position output =
      .ok (output.copy position ((stream g).skip offset) remaining) := by
  induction fuel generalizing offset remaining position output with
  | zero =>
    obtain rfl : remaining = 0 := by omega
    rw [readDirectoryChunks, if_pos rfl, copy_nothing]
  | succ fuel ih =>
    rw [readDirectoryChunks]
    by_cases h0 : remaining = 0
    · subst h0
      rw [if_pos rfl, copy_nothing]
    · rw [if_neg h0]
      dsimp only
      generalize hc : (if blockBytes - offset % blockBytes > remaining then remaining
        else blockBytes - offset % blockBytes) = chunk
      obtain ⟨hpos, hle, hin⟩ := chunk_bounds h0 hc.symm
      rw [h (offset / blockBytes) (by simp only [blockBytes]; omega)]
      refine (ih (by omega) fun k hk => h k (by omega)).trans ?_
      rw [@copy_copy_adjacent output _ _ ((stream g).skip offset) position, Nat.add_sub_cancel' hle]
      · exact fun i hi => stream_within (by omega)
      · intro i
        simp only [Buf.skip_apply, Nat.add_assoc]

section

variable {w : World} {r : Buf} {es : List Extent} {ls : List Nat}

/-- The whole stream of a directory can be read. -/
structure Streamed (w : World) (r : Buf) (es : List Extent) (ls : List Nat) : Prop where
  mapped : Mapped w r extentDirectoryMetadata es ls
  readable : Readable w es ls false
  covers : ceilDiv (getLe64 r 32) blockBytes ≤ covered es

variable (hm : Mounted w) (hh : w.env.Healthy) (h : Streamed w r es ls)
include hm hh h

lemma Streamed.readDirectoryBlock {k : Nat} (hk : k < ceilDiv (getLe64 r 32) blockBytes) :
    readDirectoryBlock w r k = .ok ((vol w).block ((extentBlocks es).getD k 0)) := by
  have hcov := h.covers
  have hlen : k < (extentBlocks es).length := by
    rw [length_extentBlocks]
    omega
  refine (readDirectoryBlock_iff hm h.mapped).mpr ⟨h.readable, fun b _ => hh.1 b,
    (extentBlocks es)[k], List.getElem?_eq_getElem hlen, hh.1 _, ?_⟩
  rw [List.getD_eq_getElem _ _ hlen]

lemma Streamed.readDirectoryBytes {offset n : Nat} (hn : offset + n ≤ getLe64 r 32) :
    readDirectoryBytes w r offset n = .ok (((extentBuf (vol w) es).skip offset).clip n) := by
  have hbytes := @readDirectoryChunks_eq w r
    (fun k => (vol w).block ((extentBlocks es).getD k 0)) n offset n 0 Buf.zero le_rfl
    fun k hk => h.readDirectoryBlock hm hh (by rw [ceilDiv_block]; split <;> omega)
  rw [Mgfs.readDirectoryBytes]
  refine ensure_bind_ok.mpr ⟨by omega, hbytes.trans (congrArg Except.ok ?_)⟩
  funext i
  simp only [Buf.copy, Buf.clip, Nat.zero_le, true_and, Nat.zero_add, Nat.sub_zero]
  rfl

lemma Streamed.readDirectoryEntry (offset : Nat) :
    readDirectoryEntry w r offset = parseEntry (extentBuf (vol w) es) (getLe64 r 32) offset := by
  rw [Mgfs.readDirectoryEntry, parseEntry]
  by_cases h1 : offset ≤ getLe64 r 32 ∧ 32 ≤ getLe64 r 32 - offset
  swap
  · simp only [ensure_neg h1, error_bind, orElse]
  have hlen : ∀ n, getLe64 (((extentBuf (vol w) es).skip offset).clip (32 + n)) 8 =
      getLe64 ((extentBuf (vol w) es).skip offset) 8 := fun n => getLe64_clip (by omega)
  have hheader := h.readDirectoryBytes hm hh (show offset + 32 ≤ getLe64 r 32 by omega)
  simp only [ensure_pos h1, ok_bind, hheader, orElse, hlen 0]
  generalize hname : getLe64 ((extentBuf (vol w) es).skip offset) 8 = nameLength
  by_cases h2 : nameLength ≠ 0 ∧ nameLength ≤ 255
  swap
  · simp only [ensure_neg h2, error_bind]
  by_cases h3 : alignedLength nameLength ≤ 288 ∧ alignedLength nameLength ≤ getLe64 r 32 - offset
  swap
  · simp only [ensure_pos h2, ok_bind, ensure_neg h3, error_bind]
  have hbounds := alignedLength_bounds h2.2
  have hserial := h.readDirectoryBytes hm hh
    (show offset + alignedLength nameLength ≤ getLe64 r 32 by omega)
  simp only [ensure_pos h2, ensure_pos h3, ok_bind, hserial]
  generalize (extentBuf (vol w) es).skip offset = entry
  generalize alignedLength nameLength = n at hbounds
  have hclip : ∀ i < n, entry.clip n i = entry i := fun i hi => Buf.clip_of_lt hi
  have h0 : getLe64 (entry.clip n) 0 = getLe64 entry 0 := getLe64_clip (by omega)
  have h16 : getLe64 (entry.clip n) 16 = getLe64 entry 16 := getLe64_clip (by omega)
  have hsum : checksumBlock (entry.clip n) 24 n = checksumBlock entry 24 n :=
    checksumBlock_congr hclip (by omega)
  have hbytes : ((entry.clip n).skip 32).bytes nameLength = (entry.skip 32).bytes nameLength :=
    Buf.bytes_congr fun i hi => hclip _ (by omega)
  have hpad : ∀ e : Option String,
      ensure (∀ i < n, 32 + nameLength ≤ i → entry.clip n i = 0) e =
        ensure (∀ i < n, 32 + nameLength ≤ i → entry i = 0) e := fun e =>
    ensure_congr ⟨fun hp i hi hle => hclip i hi ▸ hp i hi hle,
      fun hp i hi hle => (hclip i hi).trans (hp i hi hle)⟩
  simp only [h0, h16, hsum, hbytes, hpad]

end

/-- The entries from an offset on to the end of the stream. -/
inductive Parses (b : Buf) (size : Nat) : Nat → List (Nat × DirectoryEntry) → Prop where
  | done : Parses b size size []
  | entry {offset : Nat} {e : DirectoryEntry} {xs : List (Nat × DirectoryEntry)}
      (he : EntryAt b size offset e) (hr : Parses b size (offset + e.totalBytes) xs) :
      Parses b size offset ((offset, e) :: xs)

lemma EntryAt.totalBytes_ge
    (h : EntryAt b size offset e) : 40 ≤ e.totalBytes ∧ 32 + e.nameLength ≤ e.totalBytes := by
  have hpos := h.nameLength_pos
  rw [h.totalBytes, alignedLength]
  omega

section

variable {b : Buf} {size offset : Nat} {xs : List (Nat × DirectoryEntry)}

lemma Parses.unique {ys : List (Nat × DirectoryEntry)} (h : Parses b size offset xs)
    (h' : Parses b size offset ys) : xs = ys := by
  induction h generalizing ys with
  | done =>
    cases h' with
    | done => rfl
    | entry he _ => exact absurd he.header (by omega)
  | entry he _ ih =>
    cases h' with
    | done => exact absurd he.header (by omega)
    | entry he' hr' =>
      obtain rfl := he.unique he'
      rw [ih hr']

lemma Parses.mem (h : Parses b size offset xs) {o : Nat} {e : DirectoryEntry}
    (hm : (o, e) ∈ xs) : offset ≤ o ∧ EntryAt b size o e := by
  induction h with
  | done => cases hm
  | entry he hr ih =>
    rcases List.mem_cons.mp hm with heq | hm
    · cases heq
      exact ⟨le_rfl, he⟩
    · exact ⟨by have := (ih hm).1; omega, (ih hm).2⟩

end

/-- Entries with their offsets in the stream. -/
abbrev Entries := List (Nat × DirectoryEntry)

end

open Function (update)

/-- A directory whose stream parses to these entries. -/
structure DirStream (w : World) (id s : Nat) (r : Buf) (es : List Extent) (ls : List Nat)
    (xs : Entries) : Prop where
  opened : DirOpen w id s r es ls
  streamed : Streamed w r es ls
  covered : covered es = ceilDiv (getLe64 r 32) blockBytes
  parses : Parses (extentBuf (vol w) es) (getLe64 r 32) 0 xs

section

variable {b b' : Buf} {size size' offset n : Nat} {e : DirectoryEntry} {xs : Entries}

lemma EntryAt.congr (h : EntryAt b size offset e)
    (hb : ∀ i < e.totalBytes, b' (offset + i) = b (offset + i)) : EntryAt b' size offset e := by
  have htotal := h.totalBytes_ge
  have hfield : ∀ k, k + 8 ≤ 32 → getLe64 b' (offset + k) = getLe64 b (offset + k) := fun k hk =>
    getLe64_congr fun i hi => by
      rw [Nat.add_assoc]
      exact hb _ (by omega)
  have hsum : checksumBlock (b'.skip offset) 24 e.totalBytes = checksumBlock (b.skip offset) 24 e.totalBytes :=
    checksumBlock_congr hb (by omega)
  have hname : (b'.skip (offset + 32)).bytes e.nameLength = (b.skip (offset + 32)).bytes e.nameLength := by
    apply Buf.bytes_congr
    intro i hi
    rw [Buf.skip_apply, Buf.skip_apply, Nat.add_assoc]
    exact hb _ (by omega)
  exact {
    h with
    nameLength := (hfield 8 (by omega)).trans h.nameLength
    checksum := hsum.trans h.checksum
    padding := fun i hi hle => (hb i hi).trans (h.padding i hi hle)
    name := h.name.trans hname.symm
    target := (hfield 0 (by omega)).trans h.target
    flags := (hfield 16 (by omega)).trans h.flags }

lemma EntryAt.longer (h : EntryAt b size offset e) (hsize : size ≤ size') :
    EntryAt b size' offset e :=
  { h with
    header := h.header.trans hsize
    room := h.room.trans hsize }

lemma Parses.append (h : Parses b size offset xs) (hb : ∀ q < size, b' q = b q)
    (he : EntryAt b' (size + e.totalBytes) size e) :
    Parses b' (size + e.totalBytes) offset (xs ++ [(size, e)]) := by
  induction h with
  | done => exact .entry he .done
  | @entry offset e' rest he' hr ih =>
    have hroom := he'.room
    have hkept := (he'.longer (Nat.le_add_right size e.totalBytes)).congr
      fun i hi => hb (offset + i) (by omega)
    exact .entry hkept ih

lemma Parses.congr (h : Parses b size offset xs) (hb : ∀ q < size, b' q = b q) :
    Parses b' size offset xs := by
  induction h with
  | done => exact .done
  | @entry offset e' rest he' hr ih =>
    have hroom := he'.room
    exact .entry (he'.congr fun i hi => hb (offset + i) (by omega)) ih

/-- The entry that an append writes, as the parser returns it. -/
def createdEntry (target : Nat) (name : List UInt8) : DirectoryEntry where
  targetRecordId := target
  nameLength := name.length
  flags := direntInUse
  totalBytes := alignedLength name.length
  name := name

lemma newEntry_bytes {target : Nat} {name : List UInt8} {i : Nat} (hi : 32 ≤ i) :
    newEntry target name i = if i < 32 + name.length then name.getD (i - 32) 0 else 0 := by
  rw [newEntry, recomputeChecksum_of_not_mem (by omega), Buf.copy]
  by_cases hname : i < 32 + name.length
  · rw [if_pos ⟨hi, hname⟩, if_pos hname, Buf.ofList]
  · rw [if_neg (by omega), if_neg hname]
    simp (disch := omega) only [storeLe64_of_not_mem]
    rfl

lemma newEntry_entryAt {target : Nat} {name : List UInt8} (htarget : target ≠ 0)
    (hlt : target < 2 ^ 64) (hvalid : validUtf8Name name = true)
    (hsize : offset + alignedLength name.length ≤ size)
    (hb : ∀ i < alignedLength name.length, b (offset + i) = newEntry target name i) :
    EntryAt b size offset (createdEntry target name) := by
  have hlength : name.length ≠ 0 ∧ name.length ≤ 255 := by
    unfold validUtf8Name at hvalid
    split at hvalid
    · cases hvalid
    · omega
  have hbounds := alignedLength_bounds hlength.2
  have hfield : ∀ k, k + 8 ≤ 32 → getLe64 b (offset + k) = getLe64 (newEntry target name) k :=
    fun k hk => getLe64_congr fun i hi => by
      rw [Nat.add_assoc]
      exact hb _ (by omega)
  have hsame : checksumBlock (b.skip offset) 24 (alignedLength name.length) =
      checksumBlock (newEntry target name) 24 (alignedLength name.length) :=
    checksumBlock_congr hb (by omega)
  have hsum := hsame.trans (checksumBlock_recompute _ _ _)
  refine ⟨by omega, ?_, hlength.1, hlength.2, rfl, hsize, hsum, ?_, ?_, ?_, htarget, ?_, .inl rfl,
    hvalid⟩
  · rw [hfield 8 (by omega)]
    simp only [newEntry]
    rw [getLe64_recomputeChecksum (by omega), getLe64_copy_of_ne (by omega),
      getLe64_store_of_ne (by omega), getLe64_store (by omega)]
    rfl
  · intro i hi hle
    have hle : 32 + name.length ≤ i := hle
    rw [hb i hi, newEntry_bytes (by omega), if_neg (by omega)]
  · apply List.ext_getElem
    · rw [Buf.length_bytes]
      rfl
    · intro i hi _
      have hi : i < name.length := hi
      have hbyte : b (offset + 32 + i) = name[i] := by
        rw [Nat.add_assoc, hb _ (by omega), newEntry_bytes (by omega), if_pos (by omega),
          Nat.add_sub_cancel_left, List.getD_eq_getElem _ _ hi]
      simp only [Buf.bytes, List.getElem_map, List.getElem_range, Buf.skip_apply, hbyte,
        createdEntry]
  · have hzero := hfield 0 (by omega)
    rw [Nat.add_zero] at hzero
    rw [hzero]
    simp only [newEntry]
    rw [getLe64_recomputeChecksum (by omega), getLe64_copy_of_ne (by omega),
      getLe64_store_of_ne (by omega), getLe64_store_of_ne (by omega), getLe64_store hlt]
    rfl
  · rw [hfield 16 (by omega)]
    simp only [newEntry]
    rw [getLe64_recomputeChecksum (by omega), getLe64_copy_of_ne (by omega),
      getLe64_store (by decide)]
    rfl

end

section

variable {w w' : World} {id s n : Nat} {r entry : Buf} {es es' : List Extent}
  {ls news extra : List Nat} {head : Nat} {block : Nat → Buf} {xs : Entries}
  (hm : Mounted w) (hd : DirStream w id s r es ls xs)
  (h : Appended w w' id s r entry n es ls es' news extra head block)
include hm hd h

omit hm hd in
lemma Appended.record : (vol w').record s =
    (directoryRecord r (getLe64 r 32 + n) es' head).clip recordBytes := by
  rw [h.reaches.vol]
  simp only [rewrittenVol, Function.update_self]

lemma Appended.covered_eq : covered es' = ceilDiv (getLe64 r 32 + n) blockBytes := by
  rcases Nat.lt_or_ge (ceilDiv (getLe64 r 32) blockBytes) (ceilDiv (getLe64 r 32 + n) blockBytes)
    with hlt | hge
  · obtain ⟨p, -, rfl⟩ := h.grows hlt
    rw [covered_appendBlock (hd.opened.mapped.bounded hm), hd.covered,
      ceilDiv_succ h.bytes.2 hlt]
  · obtain ⟨-, rfl⟩ := h.stays hge
    have hmono := ceilDiv_mono (getLe64 r 32) n
    rw [hd.covered]
    omega

lemma Appended.laid : Laid extentDirectoryMetadata 0 es' := by
  have hlaid := hd.opened.mapped.collected.laid
  rcases Nat.lt_or_ge (ceilDiv (getLe64 r 32) blockBytes) (ceilDiv (getLe64 r 32 + n) blockBytes)
    with hlt | hge
  · obtain ⟨p, -, rfl⟩ := h.grows hlt
    rw [← hd.covered]
    apply laid_appendBlock (hd.opened.mapped.bounded hm) hlaid
    have hle := hd.opened.mapped.covered_le
    have hdata := hm.dataBlocks_lt
    omega
  · obtain ⟨-, rfl⟩ := h.stays hge
    exact hlaid

lemma Appended.mapped : Mapped w' ((directoryRecord r (getLe64 r 32 + n) es' head).clip
    recordBytes) extentDirectoryMetadata es' (newLists es' head) := by
  refine mapped_of_collected (h.rewrites hd.opened hm).owned h.record ?_
  rw [h.reaches.vol]
  exact collected_rewritten h.remap h.fits (by decide) hm (h.remapped hm) _ (h.laid hm hd)

omit hm hd in
lemma Appended.size : getLe64 ((directoryRecord r (getLe64 r 32 + n) es' head).clip recordBytes)
    32 = getLe64 r 32 + n := by
  rw [getLe64_record_clip (by omega)]
  exact (directoryRecord_fields h.size_lt).2

lemma Appended.dirOpen (hg : getLe64 r 24 ≠ u64Max)
    (hcap : es'.length ≤ w.fs.layout.recordCount) :
    DirOpen w' id s ((directoryRecord r (getLe64 r 32 + n) es' head).clip recordBytes) es'
      (newLists es' head) := by
  have hi : SameIndex w.fs w'.fs := by
    rw [h.reaches.fs]
    exact sameIndex_invalidate _ _
  have hlen : es'.length < 2 ^ 64 := Nat.lt_of_le_of_lt h.remap.length_le (by decide)
  have hnew := (h.remapped hm).clip
  refine ⟨?_, ?_, h.mapped hm hd, ?_⟩
  · refine hd.opened.names.rewritten hi h.record ?_ hnew.id
    exact recordOk_clip.mpr (directoryRecord_ok hd.opened.names.ok hd.opened.type hg h.fits hlen
      (h.remap.head_lt hm) h.size_lt)
  · rw [hnew.type]
    exact hd.opened.type
  · rw [hi.layout]
    exact hcap

lemma Appended.stream_eq {q : Nat} (hq : q < getLe64 r 32 + n) : extentBuf (vol w') es' q =
      if q < getLe64 r 32 then extentBuf (vol w) es q else entry (q - getLe64 r 32) := by
  have hcov := h.covered_eq hm hd
  have hblocks := h.blocks hd.opened hm
  have hlen : ceilDiv (getLe64 r 32 + n) blockBytes = (extentBlocks es').length := by
    rw [length_extentBlocks, hcov]
  have hold : (extentBlocks es).length = ceilDiv (getLe64 r 32) blockBytes := by
    rw [length_extentBlocks, hd.covered]
  have hk : q / blockBytes < (extentBlocks es').length := by
    rw [← hlen, ceilDiv_block]
    simp only [blockBytes]
    split <;> omega
  have hin : q / blockBytes < ceilDiv (getLe64 r 32 + n) blockBytes := by
    rw [hlen]
    exact hk
  have hne : 2 < es'.length → (extentBlocks es')[q / blockBytes] ≠ head := by
    intro h2 heq
    exact h.remap.head_not_mem hd.opened.mapped h2 (heq ▸ List.getElem_mem hk)
  have hpatched : (vol w').block (extentBlocks es')[q / blockBytes] = appendContents (getLe64 r 32) n
      entry (q / blockBytes) ((vol w).block (extentBlocks es')[q / blockBytes]) := by
    rw [h.reaches.vol, rewrittenVol, placedVol, withList_block_of_ne hne]
    show block _ = _
    rw [h.written.contents hlen, patched_getElem h.remap.nodup hk, if_pos hin]
  have hplace : q / blockBytes * 4096 + q % blockBytes = q := by
    simp only [blockBytes]
    omega
  have hmod : ¬ 4096 ≤ q % blockBytes := by
    simp only [blockBytes]
    omega
  rw [extentBuf, stream, List.getD_eq_getElem _ _ hk, hpatched, appendContents, if_neg hmod, hplace]
  by_cases hsize : q < getLe64 r 32
  · have hfront : q / blockBytes < (extentBlocks es).length := by
      rw [hold, ceilDiv_block]
      split <;> omega
    have hsame : (extentBlocks es').getD (q / blockBytes) 0 =
        (extentBlocks es).getD (q / blockBytes) 0 := by
      rw [hblocks, List.getD_append _ _ _ _ hfront]
    rw [List.getD_eq_getElem _ _ hk] at hsame
    rw [if_neg (by omega), if_pos (show q / blockBytes * 4096 < getLe64 r 32 by omega),
      if_pos hsize, hsame]
    rfl
  · rw [if_pos (by omega), if_neg hsize]

lemma Appended.streamed (hcap : es'.length ≤ w.fs.layout.recordCount) :
    Streamed w' ((directoryRecord r (getLe64 r 32 + n) es' head).clip recordBytes) es'
      (newLists es' head) := by
  refine ⟨h.mapped hm hd, ⟨nofun, fun _ => ?_, ?_⟩, ?_⟩
  · rw [h.reaches.fs]
    exact hcap
  · intro l hl
    unfold newLists at hl
    split at hl
    · next h2 =>
      rw [List.mem_singleton.mp hl, h.reaches.vol]
      exact (@listBlock_rewritten w s r _ es es' news extra head block h.remap h.fits (by decide)
        _ hm [] h2).2.reserved
    · cases hl
  · rw [h.size, h.covered_eq hm hd]

lemma Appended.dirStream {target : Nat} {name : List UInt8} (hentry : entry = newEntry target name)
    (hn : n = alignedLength name.length) (htarget : target ≠ 0) (hlt : target < 2 ^ 64)
    (hvalid : validUtf8Name name = true) (hg : getLe64 r 24 ≠ u64Max)
    (hcap : es'.length ≤ w.fs.layout.recordCount) :
    DirStream w' id s ((directoryRecord r (getLe64 r 32 + n) es' head).clip recordBytes) es'
      (newLists es' head) (xs ++ [(getLe64 r 32, createdEntry target name)]) := by
  refine ⟨h.dirOpen hm hd hg hcap, h.streamed hm hd hcap, ?_, ?_⟩
  · rw [h.size, h.covered_eq hm hd]
  · have hbytes := fun q (hq : q < getLe64 r 32 + n) => h.stream_eq hm hd hq
    rw [h.size]
    subst hentry hn
    refine hd.parses.append (e := createdEntry target name) ?_ ?_
    · intro q hq
      rw [hbytes q (by omega), if_pos hq]
    · apply newEntry_entryAt htarget hlt hvalid le_rfl
      intro i hi
      rw [hbytes _ (by omega), if_neg (by omega), Nat.add_sub_cancel_left]

end

def appendEntries (parentId : Nat) : List (Nat × List UInt8) → Io Unit
  | [] => pure ()
  | (target, name) :: rest => do
    let _ ← appendDirectoryEntry parentId (newEntry target name) (alignedLength name.length)
    appendEntries parentId rest

/-- The root of a volume of 64 blocks after `k` appends of entries of 40 bytes. -/
structure Filling (w : World) (k : Nat) (r : Buf) (es : List Extent) (xs : Entries) : Prop where
  mounted : Mounted w
  healthy : w.env.Healthy
  spill : w.env.spill = none
  layout : w.fs.layout = regions 64
  dir : DirStream w 1 0 r es [] xs
  size : getLe64 r 32 = 40 * k
  generation : getLe64 r 24 = k + 1
  used : ∀ b, (vol w).used b = true → b ∈ extentBlocks es

section

variable {w : World} {k : Nat} {r : Buf} {es : List Extent} {xs : Entries}

lemma Fresh.filling (h : Fresh w) (hh : w.env.Healthy) (hspill : w.env.spill = none) (hl : w.fs.layout = regions 64) :
    Filling w 0 ((vol w).record 0) [] [] := by
  have hzero := h.rootEmpty
  have h32 := hzero 32 (by omega) (by omega)
  have hcollected : Collected (vol w).block ((vol w).record 0) extentDirectoryMetadata [] [] :=
    collected_empty (hzero 40 (by omega) (by omega)) (hzero 48 (by omega) (by omega))
      (hzero 56 (by omega) (by omega))
  have howned : Owned (vol w) 0 := by
    have hblocks : recordBlocks (vol w) 0 = [] := by
      rw [recordBlocks, hcollected.fileMap]
      rfl
    exact ⟨by rw [hblocks]; exact List.nodup_nil, by rw [hblocks]; simp⟩
  have hmapped := mapped_of_collected howned rfl hcollected
  refine ⟨h.mounted, hh, hspill, hl, ⟨⟨h.root, h.rootType, hmapped, Nat.zero_le _⟩, ⟨hmapped,
    ⟨by simp, fun hne => absurd rfl hne, by simp⟩, ?_⟩, ?_, ?_⟩, h32, h.rootGeneration, ?_⟩
  · rw [h32]
    exact Nat.zero_le _
  · rw [h32]
    rfl
  · rw [h32]
    exact .done
  · intro b hb
    rw [h.used b] at hb
    cases hb

lemma Filling.length_le (h : Filling w k r es xs) (hk : k ≤ 200) :
    (extentBlocks es).length ≤ 2 ∧ es.length ≤ 2 := by
  have hcov := h.dir.covered
  have hlen := length_le_covered h.dir.opened.mapped.collected.laid
  rw [h.size, ceilDiv_block] at hcov
  rw [length_extentBlocks]
  split at hcov <;> omega

lemma Filling.room (h : Filling w k r es xs) (hk : k ≤ 200) :
    ¬ NoRoom w.fs.layout (vol w).used 2 := by
  rintro ⟨news, hnews, -, hfull⟩
  have hblocks := (h.length_le hk).1
  have hsub : List.range' 4 60 ⊆ extentBlocks es ++ news := by
    intro b hb
    rw [List.mem_range'_1] at hb
    have hin : InData w.fs.layout b := by
      rw [h.layout]
      exact ⟨hb.1, hb.2⟩
    have hmarked := hfull b hin
    simp only [marked, Bool.or_eq_true, decide_eq_true_eq] at hmarked
    rcases hmarked with hused | hmem
    · exact List.mem_append_left _ (h.used b hused)
    · exact List.mem_append_right _ hmem
  have hnodup : (List.range' 4 60).Nodup := List.nodup_range'
  have hle := (hnodup.subperm hsub).length_le
  rw [List.length_range', List.length_append] at hle
  omega

lemma Filling.append (h : Filling w k r es xs) (hk : k < 200) {target : Nat} {name : List UInt8}
    (htarget : target ≠ 0) (hlt : target < 2 ^ 64) (hvalid : validUtf8Name name = true)
    (hname : alignedLength name.length = 40) :
    ∃ out w' r' es', appendDirectoryEntry 1 (newEntry target name) (alignedLength name.length) w =
        (.ok out, w') ∧ Filling w' (k + 1) r' es' (xs ++ [(40 * k, createdEntry target name)]) := by
  have hopen := h.dir.opened
  have howned : NodeOwned w 1 := by
    intro s q hq
    obtain ⟨rfl, rfl⟩ := hopen.names.slot_unique hq
    exact hopen.mapped.owned hopen.names.record
  have hfits : AppendFits w r (alignedLength name.length) := by
    rw [hname]
    refine ⟨by decide, by decide, ?_, ?_⟩
    · rw [h.size]
      omega
    · rw [h.layout]
      decide
  have hfails : ¬ AppendFails w r es := by
    rintro (hroom | hmany | ⟨hpart, hshort⟩)
    · exact h.room (by omega) hroom
    · have hlen := (h.length_le (by omega)).2
      simp only [extentsPerListBlock] at hmany
      omega
    · simp only [blockBytes] at hpart hshort
      rw [h.dir.covered, ceilDiv_block, if_pos hpart] at hshort
      omega
  have hspec := @appendDirectoryEntry_spec w h.mounted 1 (alignedLength name.length)
    (newEntry target name) howned
  rcases hrun : appendDirectoryEntry 1 (newEntry target name) (alignedLength name.length) w with
    ⟨error | out, w'⟩
  · rcases hspec.error hrun with ⟨-, hnofit⟩ | ⟨s, q, fs, ms, hq, -, hstopped⟩
    · exact absurd hfits (hnofit h.healthy _ _ _ _ hopen)
    · obtain ⟨-, rfl⟩ := hopen.names.slot_unique hq.names
      obtain ⟨rfl, -⟩ := hopen.mapped.unique hq.mapped
      exact absurd (hstopped.cause h.healthy).1 hfails
  · obtain ⟨s, q, fs, ms, es', news, extra, head, block, hq, -, happended⟩ := hspec.ok hrun
    obtain ⟨rfl, rfl⟩ := hopen.names.slot_unique hq.names
    obtain ⟨rfl, rfl⟩ := hopen.mapped.unique hq.mapped
    have hreaches := happended.reaches
    have hcov := happended.covered_eq h.mounted h.dir
    have hlen := length_le_covered (happended.laid h.mounted h.dir)
    have hshort : es'.length ≤ 2 := by
      rw [h.size, hname, ceilDiv_block] at hcov
      split at hcov <;> omega
    have hg : getLe64 r 24 ≠ u64Max := by
      rw [h.generation, u64Max]
      omega
    have hdir := happended.dirStream h.mounted h.dir rfl rfl htarget hlt hvalid hg (by
      rw [h.layout]
      exact hshort.trans (by decide))
    have hlists : newLists es' head = [] := if_neg (by omega)
    rw [hlists, h.size] at hdir
    refine ⟨out, w', _, es', rfl, hreaches.mounted, ?_, ?_, ?_, hdir, ?_, ?_, ?_⟩
    · rw [hreaches.env]
      exact h.healthy
    · rw [hreaches.env]
      exact h.spill
    · rw [hreaches.fs]
      exact h.layout
    · have hsize := happended.size
      rw [h.size] at hsize
      rw [hsize, hname, Nat.mul_succ]
    · have hgen := (happended.remapped h.mounted).clip.generation
      rw [h.size] at hgen
      rw [hgen, h.generation, add64]
      omega
    · intro b hb
      have hextra : extra = [] := (happended.remap.placed.short (by omega)).2
      rw [hreaches.vol, hextra] at hb
      simp only [rewrittenVol, released_nil, marked_nil, marked, Bool.or_eq_true,
        decide_eq_true_eq] at hb
      rw [happended.blocks hopen h.mounted]
      rcases hb with hold | hnew
      · exact List.mem_append_left _ (h.used b hold)
      · exact List.mem_append_right _ hnew

lemma Filling.appendEntries (h : Filling w k r es xs) (m : Nat) (hk : k + m ≤ 200)
    {target : Nat} {name : List UInt8} (htarget : target ≠ 0) (hlt : target < 2 ^ 64)
    (hvalid : validUtf8Name name = true) (hname : alignedLength name.length = 40) :
    ∃ w' r' es', appendEntries 1 (List.replicate m (target, name)) w = (.ok (), w') ∧
      Filling w' (k + m) r' es'
        (xs ++ (List.range' k m).map fun i => (40 * i, createdEntry target name)) := by
  induction m generalizing w k r es xs with
  | zero =>
    refine ⟨w, r, es, rfl, ?_⟩
    rw [List.range'_zero, List.map_nil, List.append_nil]
    exact h
  | succ m ih =>
    obtain ⟨out, w1, r1, es1, hrun, h1⟩ := h.append (by omega) htarget hlt hvalid hname
    obtain ⟨w', r', es', hrest, h'⟩ := ih h1 (by omega)
    refine ⟨w', r', es', ?_, ?_⟩
    · rw [List.replicate_succ, Mgfs.appendEntries, Prog.bind_ok]
      exact ⟨out, w1, hrun, hrest⟩
    · rw [List.append_assoc] at h'
      rw [Nat.add_right_comm, Nat.add_assoc] at h'
      rw [List.range'_succ, List.map_cons]
      exact h'

end

lemma filled_volume (m : Nat) (hm : m ≤ 200) : ∃ w1 node w2 w r es,
    formatMgfs blankWorld = (.ok (), w1) ∧ mount (w1.facing healthyEnv) = (.ok node, w2) ∧
    appendEntries 1 (List.replicate m (1, [0x61])) w2 = (.ok (), w) ∧
    Filling w m r es ((List.range m).map fun i => (40 * i, createdEntry 1 [0x61])) := by
  obtain ⟨w1, hformat⟩ := formatMgfs_succeeds (w := blankWorld)
    ⟨rfl, by decide, healthyEnv_healthy, nofun⟩
  obtain ⟨node, w2, hmount, hfresh, -, henv, -, hlayout⟩ :=
    fresh_of_format healthyEnv_healthy hformat
  have hfilling := hfresh.filling (by rw [henv]; exact healthyEnv_healthy) (by rw [henv]; rfl)
    hlayout
  obtain ⟨w, r, es, hrun, h⟩ := @Filling.appendEntries w2 0 _ [] [] hfilling m (by omega) 1 [0x61]
    (by decide) (by decide) (by decide) (by decide)
  rw [Nat.zero_add, List.nil_append, ← List.range_eq_range'] at h
  exact ⟨w1, node, w2, w, r, es, hformat, hmount, hrun, h⟩

end Mangrove.Mgfs
