import Mangrove.Mgfs.Streams

/-! Tombstones in a directory's stream. The driver edits and sums an entry within the
block where it begins, which is all of it only if it ends there too. -/

namespace Mangrove.Mgfs

open Function (update)

def readEntries (w : World) (record : Buf) : Nat → Nat → Res Entries
  | 0, offset => if getLe64 record 32 ≤ offset then .ok [] else .error none
  | fuel + 1, offset =>
    if getLe64 record 32 ≤ offset then .ok []
    else do
      let entry ← readDirectoryEntry w record offset
      let rest ← readEntries w record fuel (offset + entry.totalBytes)
      return (offset, entry) :: rest

def withTombstone (offset : Nat) (xs : Entries) : Entries :=
  xs.map fun x => if x.1 = offset then (x.1, { x.2 with flags := direntTombstone }) else x

variable {offset n : Nat} {b : Buf}

lemma readEntries_iff {w : World} {r : Buf} {es : List Extent} {ls : List Nat} (hm : Mounted w)
    (hh : w.env.Healthy) (h : Streamed w r es ls) {fuel : Nat} {xs : Entries}
    (hle : offset ≤ getLe64 r 32) (hfuel : getLe64 r 32 - offset ≤ fuel) :
    readEntries w r fuel offset = .ok xs ↔
      Parses (extentBuf (vol w) es) (getLe64 r 32) offset xs := by
  induction fuel generalizing offset xs with
  | zero =>
    obtain rfl : offset = getLe64 r 32 := by omega
    rw [readEntries, if_pos le_rfl]
    constructor
    · intro hok
      cases hok
      exact .done
    · intro hp
      rw [hp.unique .done]
  | succ fuel ih =>
    rw [readEntries]
    by_cases hend : getLe64 r 32 ≤ offset
    · obtain rfl : offset = getLe64 r 32 := by omega
      rw [if_pos le_rfl]
      constructor
      · intro hok
        cases hok
        exact .done
      · intro hp
        rw [hp.unique .done]
    · rw [if_neg hend, h.readDirectoryEntry hm hh, except_bind_ok]
      constructor
      · rintro ⟨e, he, hrest⟩
        have hentry := parseEntry_ok.mp he
        have hpos := hentry.totalBytes_ge.1
        obtain ⟨rest, hok, hxs⟩ := except_bind_ok.mp hrest
        cases hxs
        exact .entry hentry ((ih hentry.room (by omega)).mp hok)
      · intro hp
        cases hp with
        | done => exact absurd le_rfl hend
        | @entry _ e rest he hr =>
          have hpos := he.totalBytes_ge.1
          refine ⟨e, parseEntry_ok.mpr he, except_bind_ok.mpr ⟨rest, ?_, rfl⟩⟩
          exact (ih he.room (by omega)).mpr hr

def seenEntry (block stack : Buf) (offset : Nat) : Buf := fun i =>
  if offset % blockBytes + i < blockBytes then block (offset % blockBytes + i)
  else stack (offset % blockBytes + i - blockBytes)

def tombEntry (entry : Buf) (n : Nat) : Buf :=
  recomputeChecksum (storeLe64 entry 16 direntTombstone) 24 n

lemma tombEntry_other {entry : Buf} {i : Nat} (h : i < 16 ∨ 32 ≤ i) :
    tombEntry entry n i = entry i := by
  rw [tombEntry, recomputeChecksum_of_not_mem (by omega)]
  exact storeLe64_of_not_mem (by omega)

lemma tombEntry_flags (entry : Buf) (n : Nat) : getLe64 (tombEntry entry n) 16 = direntTombstone := by
  rw [tombEntry, getLe64_recomputeChecksum (by omega), getLe64_store (by decide)]

lemma tombEntry_congr {a : Buf} (h : ∀ i < n, a i = b i) :
    ∀ i < n, tombEntry a n i = tombEntry b n i :=
  recomputeChecksum_congr (storeLe64_congr h)

def tombstoned (block stack : Buf) (offset entryBytes : Nat) : Buf :=
  let buffer : Buf := fun i => if i < blockBytes then block i else stack (i - blockBytes)
  let within := offset % blockBytes
  let entry := recomputeChecksum (storeLe64 (buffer.skip within) 16 direntTombstone) 24 entryBytes
  fun i => if i < within then buffer i else entry (i - within)

/-- The volume once the entry at `offset` of a directory, which block `p` holds,
is a tombstone. -/
def tombVol (v : Vol) (p : Nat) (stack : Buf) (offset entryBytes : Nat) : Vol :=
  { v with
    block := update v.block p ((tombstoned (v.block p) stack offset entryBytes).clip blockBytes) }

lemma tombstoned_of_lt {block stack : Buf} {j : Nat} (hj : j < offset % blockBytes) :
    tombstoned block stack offset n j = block j := by
  have hlt : offset % blockBytes < blockBytes := Nat.mod_lt _ (by decide)
  simp only [tombstoned, if_pos hj, if_pos (show j < blockBytes by omega)]

lemma tombstoned_of_ge (block stack : Buf) (offset n i : Nat) :
    tombstoned block stack offset n (offset % blockBytes + i) =
      tombEntry (seenEntry block stack offset) n i := by
  simp only [tombstoned, if_neg (show ¬ offset % blockBytes + i < offset % blockBytes by omega),
    Nat.add_sub_cancel_left]
  rfl

/-- The number of the block is still there after the edit: it lies elsewhere, or the entry
ends within the block. -/
def KeepsNumber (env : Env) (offset n : Nat) : Prop :=
  env.spill = none ∨ offset % blockBytes + n ≤ blockBytes ∧ 32 ≤ n

lemma KeepsNumber.keptNumber_eq {env : Env} {p : Nat} (h : KeepsNumber env offset n)
    (hp : p < 2 ^ 64) (block : Buf) :
    keptNumber env p (tombstoned block (behindBuffer env p) offset n) = p := by
  unfold keptNumber
  cases hspill : env.spill with
  | none => rfl
  | some place =>
    obtain ⟨hfit, hn⟩ := h.resolve_left (by simp [hspill])
    have hbytes : ∀ i < 8, tombstoned block (behindBuffer env p) offset n (blockBytes + place + i) =
        storeLe64 env.stack place p (place + i) := by
      intro i _
      have hsplit : blockBytes + place + i =
          offset % blockBytes + (blockBytes - offset % blockBytes + place + i) := by omega
      have hplace : offset % blockBytes + (blockBytes - offset % blockBytes + place + i) -
          blockBytes = place + i := by omega
      rw [hsplit, tombstoned_of_ge, tombEntry_other (by omega), seenEntry, if_neg (by omega),
        hplace, behindBuffer, hspill]
    dsimp only
    rw [getLe64_congr hbytes, getLe64_store hp]

section

variable {v : Vol} {es : List Extent} {p offset n : Nat} {stack : Buf}
  (hnodup : (extentBlocks es).Nodup) (hp : (extentBlocks es)[offset / blockBytes]? = some p)
include hnodup hp

lemma extentBuf_tombVol {q : Nat} (hq : q / blockBytes < (extentBlocks es).length) :
    extentBuf (tombVol v p stack offset n) es q =
      if q / blockBytes = offset / blockBytes
      then tombstoned (v.block p) stack offset n (q % blockBytes) else extentBuf v es q := by
  obtain ⟨hlt, hget⟩ := List.getElem?_eq_some_iff.mp hp
  have hmod : q % blockBytes < blockBytes := Nat.mod_lt _ (by decide)
  simp only [extentBuf, stream, tombVol, List.getD_eq_getElem _ _ hq]
  by_cases hsame : q / blockBytes = offset / blockBytes
  · have hblock : (extentBlocks es)[q / blockBytes] = p := by
      rw [← hget]
      congr 1
    rw [if_pos hsame, hblock, Function.update_self, Buf.clip_of_lt hmod]
  · have hne : (extentBlocks es)[q / blockBytes] ≠ p := by
      intro heq
      exact hsame ((List.Nodup.getElem_inj_iff hnodup).mp (heq.trans hget.symm))
    rw [if_neg hsame, Function.update_of_ne hne]

lemma extentBuf_tombVol_other {q : Nat} (hq : q / blockBytes < (extentBlocks es).length)
    (hother : q < offset + 16 ∨ offset + 32 ≤ q ∨ q / blockBytes ≠ offset / blockBytes) :
    extentBuf (tombVol v p stack offset n) es q = extentBuf v es q := by
  rw [extentBuf_tombVol hnodup hp hq]
  split
  · next hsame =>
    have hold : extentBuf v es q = v.block p (q % blockBytes) := by
      obtain ⟨hlt, hget⟩ := List.getElem?_eq_some_iff.mp hp
      simp only [extentBuf, stream, hsame, List.getD_eq_getElem _ _ hlt, hget]
    rw [hold]
    rcases Nat.lt_or_ge (q % blockBytes) (offset % blockBytes) with hlt | hge
    · exact tombstoned_of_lt hlt
    · obtain ⟨i, hi⟩ := Nat.exists_eq_add_of_le hge
      have hmod : q % blockBytes < blockBytes := Nat.mod_lt _ (by decide)
      have hqi : q = offset + i := by
        have hq' := Nat.div_add_mod q blockBytes
        have ho' := Nat.div_add_mod offset blockBytes
        rw [hsame] at hq'
        omega
      rw [hi, tombstoned_of_ge, tombEntry_other (by omega), seenEntry, if_pos (by omega)]
  · rfl

lemma extentBuf_tombVol_entry {i : Nat} (hi : offset % blockBytes + i < blockBytes) :
    extentBuf (tombVol v p stack offset n) es (offset + i) =
      tombEntry (seenEntry (v.block p) stack offset) n i := by
  obtain ⟨hsame, hmod⟩ := within_block hi
  have hlt := (List.getElem?_eq_some_iff.mp hp).1
  rw [extentBuf_tombVol hnodup hp (by omega), if_pos hsame, hmod, tombstoned_of_ge]

omit hnodup in
lemma seenEntry_of_lt {i : Nat} (hi : offset % blockBytes + i < blockBytes) :
    seenEntry (v.block p) stack offset i = extentBuf v es (offset + i) := by
  obtain ⟨hlt, hget⟩ := List.getElem?_eq_some_iff.mp hp
  obtain ⟨hsame, hmod⟩ := within_block hi
  simp only [extentBuf, stream, hsame, hmod, List.getD_eq_getElem _ _ hlt, hget, seenEntry,
    if_pos hi]

end

lemma EntryAt.tombstone {b' : Buf} {size o : Nat} {e : DirectoryEntry} (h : EntryAt b size o e)
    (hb : ∀ i < e.totalBytes, b' (o + i) = tombEntry (b.skip o) e.totalBytes i) :
    EntryAt b' size o { e with flags := direntTombstone } := by
  have htotal := h.totalBytes_ge
  have hother : ∀ i < e.totalBytes, i < 16 ∨ 32 ≤ i → b' (o + i) = b (o + i) := by
    intro i hi hother
    rw [hb i hi, tombEntry_other hother, Buf.skip_apply]
  have hfield : ∀ k, k + 8 ≤ 16 → getLe64 b' (o + k) = getLe64 b (o + k) := fun k hk =>
    getLe64_congr fun i hi => by
      rw [Nat.add_assoc]
      exact hother _ (by omega) (by omega)
  have hflags : getLe64 b' (o + 16) = getLe64 (tombEntry (b.skip o) e.totalBytes) 16 :=
    getLe64_congr fun i hi => by
      rw [Nat.add_assoc]
      exact hb _ (by omega)
  have hsum : checksumBlock (b'.skip o) 24 e.totalBytes =
      checksumBlock (tombEntry (b.skip o) e.totalBytes) 24 e.totalBytes :=
    checksumBlock_congr hb (by omega)
  have hname : (b'.skip (o + 32)).bytes e.nameLength = (b.skip (o + 32)).bytes e.nameLength := by
    apply Buf.bytes_congr
    intro i hi
    rw [Buf.skip_apply, Buf.skip_apply, Nat.add_assoc]
    exact hother _ (by omega) (by omega)
  exact {
    h with
    nameLength := (hfield 8 (by omega)).trans h.nameLength
    checksum := hsum.trans (checksumBlock_recompute _ _ _)
    padding := fun i hi hle => (hother i hi (by omega)).trans (h.padding i hi hle)
    name := h.name.trans hname.symm
    target := (hfield 0 (by omega)).trans h.target
    flags := hflags.trans (tombEntry_flags _ _)
    flags_known := .inr rfl }

lemma Parses.withTombstone {b' : Buf} {size o : Nat} {xs : Entries}
    (h : Parses b size offset xs) (hother : ∀ q < size, q < o ∨ o + n ≤ q → b' q = b q)
    (hentry : ∀ e, (o, e) ∈ xs → e.totalBytes = n ∧
      EntryAt b' size o { e with flags := direntTombstone })
    (hapart : ∀ x ∈ xs, x.1 = o ∨ x.1 + x.2.totalBytes ≤ o ∨ o + n ≤ x.1) :
    Parses b' size offset (withTombstone o xs) := by
  induction h with
  | done => exact .done
  | @entry offset e rest he hr ih =>
    have hrest := ih (fun e he => hentry e (List.mem_cons_of_mem _ he))
      fun x hx => hapart x (List.mem_cons_of_mem _ hx)
    show Parses b' size offset ((if offset = o then _ else _) :: Mgfs.withTombstone o rest)
    by_cases hoffset : offset = o
    · subst hoffset
      rw [if_pos rfl]
      exact .entry (hentry e List.mem_cons_self).2 hrest
    · rw [if_neg hoffset]
      refine .entry (he.congr fun i hi => hother _ ?_ ?_) hrest
      · have hroom := he.room
        omega
      · have hapart := (hapart (offset, e) List.mem_cons_self).resolve_left hoffset
        dsimp only at hapart
        omega

section

variable {w : World} {r : Buf} {es : List Extent} {ls : List Nat} {xs : Entries}
  {o n p : Nat} {e : DirectoryEntry} {w' : World} {b : Buf} {size offset : Nat}

lemma Streamed.transfer (h : Streamed w r es ls)
    (hl : w'.fs.layout = w.fs.layout) (hb : ∀ b ∈ ls, (vol w').block b = (vol w).block b)
    (hu : (vol w').used = (vol w).used) : Streamed w' r es ls where
  mapped := h.mapped.transfer hl hb (by rw [hu]; exact h.mapped.used)
  readable := by
    refine ⟨h.readable.ascending, by rw [hl]; exact h.readable.count, fun b hmem i hi => ?_⟩
    rw [hb b hmem]
    exact h.readable.reserved b hmem i hi
  covers := h.covers

/-- Block `p` of the device is the one in which the entry begins. -/
structure TombstoneAt (w : World) (r : Buf) (offset p : Nat) : Prop where
  inData : InData w.fs.layout p
  mem : p ∈ extentBlocks (fileMap (vol w).block r).extents
  place : ∀ es ls, Walkable w r es ls → (extentBlocks es)[offset / blockBytes]? = some p

lemma publishTombstone_spec {w : World} (hm : Mounted w) {r : Buf} {offset n : Nat}
    (hkeeps : KeepsNumber w.env offset n)
    (hraw : ∀ b ∈ (fileMap (vol w).block r).lists, InData w.fs.layout b) :
    Prog.wp (publishTombstone r offset n)
      (fun _ w' => ∃ p, TombstoneAt w r offset p ∧
        Reaches w w' w.fs (tombVol (vol w) p (behindBuffer w.env p) offset n))
      (fun _ w' => Same w w' ∧ (w.env.Healthy → ∀ es ls, Walkable w r es ls →
        covered es ≤ offset / blockBytes)) w := by
  rw [publishTombstone, Prog.wp_bind]
  refine .look (fun hno _ => ⟨Same.refl hm, fun hh es ls hwalk => ?_⟩) fun p hp => ?_
  · by_contra hlt
    obtain ⟨p, hp⟩ := hwalk.find_of_healthy hm hh (Nat.lt_of_not_le hlt)
    exact hno _ hp
  obtain ⟨hmem, hin⟩ := findDirectoryBlock_raw hraw hp
  rw [Prog.wp_bind]
  refine .look (fun hno _ => ⟨Same.refl hm, fun hh =>
    absurd (hm.readBlock (hm.inData_lt hin) (hh.1 p)) (hno _)⟩) fun x hx => ?_
  obtain rfl := readBlock_eq hx
  rw [Prog.wp_bind, Prog.wp_get, ← vol_block hin]
  have hnumber := hkeeps.keptNumber_eq (Nat.lt_of_succ_lt (hm.inData_bound hin)) ((vol w).block p)
  simp only [tombstoned] at hnumber
  dsimp only
  rw [hnumber]
  exact (writeBlock_data_spec hm hin _).mono
    (fun _ w' h => ⟨p, ⟨hin, hmem, fun es ls hwalk => hwalk.find.1 p hp⟩, h⟩)
    fun _ w' h => ⟨h.1, fun hh => absurd hh h.2⟩

lemma Streamed.facing (h : Streamed w r es ls) (env : Env) : Streamed (w.facing env) r es ls :=
  h.transfer rfl (fun _ _ => rfl) rfl

lemma Streamed.block_lt (h : Streamed w r es ls) {q : Nat} (hq : q < getLe64 r 32) :
    q / blockBytes < (extentBlocks es).length := by
  have hcovers := h.covers
  rw [ceilDiv_block, ← length_extentBlocks] at hcovers
  simp only [blockBytes]
  split at hcovers <;> omega

lemma publishTombstone_put (hm : Mounted w) (hkeeps : KeepsNumber w.env o n)
    (h : Streamed w r es ls)
    (hrun : publishTombstone r o n w = (.ok (), w')) :
    ∃ p, (extentBlocks es)[o / blockBytes]? = some p ∧
      w' = w.put p (tombstoned (w.dev.block p) (behindBuffer w.env p) o n) := by
  have hwp : Prog.wp (publishTombstone r o n)
      (fun _ w' => ∃ p, (extentBlocks es)[o / blockBytes]? = some p ∧
        w' = w.put p (tombstoned (w.dev.block p) (behindBuffer w.env p) o n)) (fun _ _ => True) w := by
    rw [publishTombstone, Prog.wp_bind, Prog.wp_look]
    refine ⟨fun p hp => ?_, fun _ _ => trivial⟩
    rw [Prog.wp_bind, Prog.wp_look]
    refine ⟨fun x hx => ?_, fun _ _ => trivial⟩
    obtain rfl := readBlock_eq hx
    rw [Prog.wp_bind, Prog.wp_get]
    have hmem := List.mem_of_getElem? ((h.mapped.walkable hm).find.1 p hp)
    have hin := h.mapped.inData p (mem_blocks_of_extent hmem)
    have hnumber := hkeeps.keptNumber_eq (Nat.lt_of_succ_lt (hm.inData_bound hin)) (w.dev.block p)
    simp only [tombstoned] at hnumber
    dsimp only
    rw [hnumber]
    exact wp_writeBlock ⟨p, (h.mapped.walkable hm).find.1 p hp, rfl⟩ fun _ _ _ => trivial
  exact hwp.ok hrun

lemma publishTombstone_reaches (hm : Mounted w) (hkeeps : KeepsNumber w.env o n)
    (h : Streamed w r es ls)
    (hrun : publishTombstone r o n w = (.ok (), w'))
    (hp : (extentBlocks es)[o / blockBytes]? = some p) :
    Reaches w w' w.fs (tombVol (vol w) p (behindBuffer w.env p) o n) := by
  have hraw : ∀ b ∈ (fileMap (vol w).block r).lists, InData w.fs.layout b := by
    rw [h.mapped.collected.fileMap]
    exact fun b hb => h.mapped.inData b (mem_blocks_of_list hb)
  obtain ⟨p', hat, hreaches⟩ := (publishTombstone_spec hm hkeeps hraw).ok hrun
  have hsame : p' = p := by
    have hp' := hat.place es ls (h.mapped.walkable hm)
    rw [hp] at hp'
    exact (Option.some.inj hp').symm
  rwa [hsame] at hreaches

lemma publishTombstone_succeeds (hm : Mounted w) (hh : w.env.Healthy)
    (hkeeps : KeepsNumber w.env o n) (h : Streamed w r es ls)
    (ho : o < getLe64 r 32) : ∃ w', publishTombstone r o n w = (.ok (), w') := by
  have hraw : ∀ b ∈ (fileMap (vol w).block r).lists, InData w.fs.layout b := by
    rw [h.mapped.collected.fileMap]
    exact fun b hb => h.mapped.inData b (mem_blocks_of_list hb)
  have hspec := @publishTombstone_spec w hm r o n hkeeps hraw
  rcases hw : publishTombstone r o n w with ⟨_ | _, w'⟩
  · have hcovered := (hspec.error hw).2 hh es ls (h.mapped.walkable hm)
    have hlt := h.block_lt ho
    rw [length_extentBlocks] at hlt
    omega
  · exact ⟨w', rfl⟩

/-- The entries after the call are those before it, with one flag changed, and
every byte of the device outside of that entry is as it was. -/
structure Tombstoned (w w' : World) (r : Buf) (es : List Extent) (xs : Entries) (o n : Nat) :
    Prop where
  entries : readEntries w' r (getLe64 r 32) 0 = .ok (withTombstone o xs)
  bytes : ∀ b j, (∀ i < n, (extentBlocks es)[(o + i) / blockBytes]? = some b →
    (o + i) % blockBytes ≠ j) → w'.dev.block b j = w.dev.block b j

lemma Parses.offset_mod (h : Parses b size offset xs)
    (hoffset : offset % 8 = 0) : ∀ x ∈ xs, x.1 % 8 = 0 ∧ x.2.totalBytes % 8 = 0 := by
  induction h with
  | done => nofun
  | @entry offset e rest he hr ih =>
    have htotal : e.totalBytes % 8 = 0 := by
      rw [he.totalBytes, alignedLength]
      omega
    intro x hx
    rcases List.mem_cons.mp hx with rfl | hx
    · exact ⟨hoffset, htotal⟩
    · exact ih (by omega) x hx

lemma Parses.apart (h : Parses b size offset xs) (hmem : (o, e) ∈ xs) :
    ∀ x ∈ xs, x = (o, e) ∨ x.1 + x.2.totalBytes ≤ o ∨ o + e.totalBytes ≤ x.1 := by
  induction h with
  | done => nofun
  | @entry offset e' rest he hr ih =>
    intro x hx
    rcases List.mem_cons.mp hmem with heq | hmem
    · cases heq
      rcases List.mem_cons.mp hx with rfl | hx
      · exact .inl rfl
      · exact .inr (.inr (hr.mem hx).1)
    · rcases List.mem_cons.mp hx with rfl | hx
      · exact .inr (.inl (hr.mem hmem).1)
      · exact ih hmem x hx

lemma publishTombstone_bytes (hm : Mounted w) (hkeeps : KeepsNumber w.env o n)
    (h : Streamed w r es ls)
    (hrun : publishTombstone r o n w = (.ok (), w')) (hn : 32 ≤ n) {b j : Nat}
    (hout : ∀ i < n, (extentBlocks es)[(o + i) / blockBytes]? = some b →
      (o + i) % blockBytes ≠ j) : w'.dev.block b j = w.dev.block b j := by
  obtain ⟨p, hp, rfl⟩ := publishTombstone_put hm hkeeps h hrun
  by_cases hb : b = p
  swap
  · rw [block_put_other hb]
  subst hb
  rw [block_put_same]
  by_cases hj : j < blockBytes
  swap
  · rw [Buf.clip_of_ge (Nat.le_of_not_lt hj)]
    exact (if_neg hj).symm
  rw [Buf.clip_of_lt hj]
  rcases Nat.lt_or_ge j (o % blockBytes) with hlt | hge
  · exact tombstoned_of_lt hlt
  · obtain ⟨i, rfl⟩ := Nat.exists_eq_add_of_le hge
    obtain ⟨hsame, hmod⟩ := within_block hj
    have hi : n ≤ i := by
      by_contra hlt
      exact hout i (by omega) (by rw [hsame]; exact hp) hmod
    rw [tombstoned_of_ge, tombEntry_other (by omega), seenEntry, if_pos hj]

lemma publishTombstone_streamed (hm : Mounted w) (hh : w.env.Healthy)
    (hkeeps : KeepsNumber w.env o n) (h : Streamed w r es ls)
    (hrun : publishTombstone r o n w = (.ok (), w'))
    (hp : (extentBlocks es)[o / blockBytes]? = some p) :
    Mounted w' ∧ w'.env.Healthy ∧ Streamed w' r es ls ∧
      extentBuf (vol w') es = extentBuf (tombVol (vol w) p (behindBuffer w.env p) o n) es := by
  have hreaches := publishTombstone_reaches hm hkeeps h hrun hp
  refine ⟨hreaches.mounted, by rw [hreaches.env]; exact hh, ?_, by rw [hreaches.vol]⟩
  apply h.transfer (by rw [hreaches.fs]) _ (by rw [hreaches.vol]; rfl)
  intro b hb
  have hne : b ≠ p := by
    rintro rfl
    exact h.mapped.disjoint hb (List.mem_of_getElem? hp)
  rw [hreaches.vol]
  exact Function.update_of_ne hne _ _

lemma publishTombstone_within (hm : Mounted w) (hh : w.env.Healthy) (h : Streamed w r es ls)
    (hx : Parses (extentBuf (vol w) es) (getLe64 r 32) 0 xs) (hmem : (o, e) ∈ xs)
    (hfit : o % blockBytes + e.totalBytes ≤ blockBytes)
    (hrun : publishTombstone r o e.totalBytes w = (.ok (), w')) :
    Tombstoned w w' r es xs o e.totalBytes := by
  have hentry := (hx.mem hmem).2
  have hbytes := hentry.totalBytes_ge
  have hkeeps : KeepsNumber w.env o e.totalBytes := .inr ⟨hfit, by omega⟩
  obtain ⟨p, hp, -⟩ := publishTombstone_put hm hkeeps h hrun
  obtain ⟨hm', hh', hs', hstream⟩ := publishTombstone_streamed hm hh hkeeps h hrun hp
  have hnodup := h.mapped.nodup_extents
  refine ⟨?_, fun b j => publishTombstone_bytes hm hkeeps h hrun (by omega)⟩
  rw [readEntries_iff hm' hh' hs' (Nat.zero_le _) (Nat.sub_le _ _), hstream]
  refine hx.withTombstone (n := e.totalBytes) ?_ ?_ ?_
  · intro q hq hother
    exact extentBuf_tombVol_other hnodup hp (h.block_lt hq) (by omega)
  · intro e' hmem'
    obtain rfl := hentry.unique (hx.mem hmem').2
    refine ⟨rfl, hentry.tombstone fun i hi => ?_⟩
    rw [extentBuf_tombVol_entry hnodup hp (by omega)]
    apply tombEntry_congr _ i hi
    intro k hk
    rw [Buf.skip_apply]
    exact seenEntry_of_lt hp (by omega)
  · intro x hmem'
    rcases hx.apart hmem x hmem' with rfl | happart
    · exact .inl rfl
    · exact .inr happart

def plainEntry (entry : Buf) (flags : Nat) : Buf := storeLe64 (storeLe64 entry 16 flags) 24 0

lemma checksumBlock_iff {b' : Buf} {flags : Nat} (h : ∀ i < size, i < 24 ∨ 32 ≤ i →
    b i = plainEntry b' flags i) : checksumBlock b 24 size = true ↔
      (crc64 (plainEntry b' flags) size).toNat = getLe64 b 24 := by
  have hsum : (List.range size).foldl (fun crc i =>
      crcByte crc (if 24 ≤ i ∧ i < 24 + 8 then 0 else b i)) 0 =
      crc64 (plainEntry b' flags) size := by
    apply foldl_range_congr
    intro crc i hi
    by_cases hin : 24 ≤ i ∧ i < 24 + 8
    · rw [if_pos hin, plainEntry, storeLe64_zero_mem hin.1 hin.2]
    · rw [if_neg hin, h i hi (by omega)]
  rw [checksumBlock, hsum, beq_iff_eq]

lemma getLe64_tombEntry_sum (entry : Buf) (size : Nat) :
    getLe64 (tombEntry entry size) 24 = (crc64 (plainEntry entry direntTombstone) size).toNat :=
  getLe64_store (UInt64.toNat_lt _)

lemma plainEntry_flags_ne (entry : Buf) (hsize : 32 ≤ size) :
    crc64 (plainEntry entry direntInUse) size ≠ crc64 (plainEntry entry direntTombstone) size := by
  have hflags : ∀ flags, plainEntry entry flags 16 = UInt8.ofNat flags := by
    intro flags
    rw [plainEntry, storeLe64_of_not_mem (by omega)]
    rfl
  refine crc64_ne_of_one_byte (k := 16) (by omega) ?_ ?_
  · rw [hflags, hflags]
    decide
  intro i _ hi
  simp only [plainEntry, storeLe64]
  by_cases hin : 16 ≤ i ∧ i < 16 + 8
  · have hsmall : ∀ flags, flags < 3 → flags >>> ((i - 16) * 8) = 0 := by
      intro flags hflags
      have hpow : 2 ^ 8 ≤ 2 ^ ((i - 16) * 8) := Nat.pow_le_pow_right (by omega) (by omega)
      rw [Nat.shiftRight_eq_div_pow]
      exact Nat.div_eq_of_lt (by omega)
    simp only [if_pos hin, hsmall direntInUse (by decide), hsmall direntTombstone (by decide)]
  · simp only [if_neg hin]

lemma plainEntry_stack_ne (block : Buf) (hn : 40 ≤ size)
    (hcross : blockBytes < offset % blockBytes + size) :
    ∃ stack stack', crc64 (plainEntry (seenEntry block stack offset) direntTombstone) size ≠
      crc64 (plainEntry (seenEntry block stack' offset) direntTombstone) size := by
  refine ⟨Buf.zero, update Buf.zero (offset % blockBytes + (size - 1) - blockBytes) 1,
    crc64_ne_of_one_byte (k := size - 1) (by omega) ?_ ?_⟩
  · have hout : ¬ offset % blockBytes + (size - 1) < blockBytes := by omega
    simp only [plainEntry, storeLe64_of_not_mem (.inr (show 24 + 8 ≤ size - 1 by omega)),
      storeLe64_of_not_mem (.inr (show 16 + 8 ≤ size - 1 by omega)), seenEntry, if_neg hout,
      Function.update_self]
    exact show (0 : UInt8) ≠ 1 by decide
  · intro i hi hne
    have hseen : seenEntry block Buf.zero offset i = seenEntry block (update Buf.zero
        (offset % blockBytes + (size - 1) - blockBytes) 1) offset i := by
      unfold seenEntry
      split
      · rfl
      · have hother : offset % blockBytes + i - blockBytes ≠
            offset % blockBytes + (size - 1) - blockBytes := by omega
        rw [Function.update_of_ne hother]
    simp only [plainEntry, storeLe64, hseen]

lemma storeLe64_getLe64 (b : Buf) (o : Nat) : storeLe64 b o (getLe64 b o) = b := by
  funext i
  by_cases hi : o ≤ i ∧ i < o + 8
  · obtain ⟨k, rfl⟩ := Nat.exists_eq_add_of_le hi.1
    apply UInt8.toNat_inj.mp
    rw [storeLe64_byte (by omega), getLe64_eq]
    have h0 := (b o).toNat_lt
    have h1 := (b (o + 1)).toNat_lt
    have h2 := (b (o + 2)).toNat_lt
    have h3 := (b (o + 3)).toNat_lt
    have h4 := (b (o + 4)).toNat_lt
    have h5 := (b (o + 5)).toNat_lt
    have h6 := (b (o + 6)).toNat_lt
    have h7 := (b (o + 7)).toNat_lt
    have hk : k < 8 := by omega
    rcases Nat.eq_zero_or_pos k with rfl | hpos
    · show _ = (b o).toNat
      omega
    · interval_cases k <;> omega
  · simp only [storeLe64, if_neg hi]

lemma Streamed.tombstone_sum (h : Streamed w r es ls)
    (hx : Parses (extentBuf (vol w) es) (getLe64 r 32) 0 xs) (hmem : (o, e) ∈ xs)
    (huse : e.flags = direntInUse) (hp : (extentBlocks es)[o / blockBytes]? = some p) {stack : Buf}
    (hnew : EntryAt (extentBuf (tombVol (vol w) p stack o e.totalBytes) es) (getLe64 r 32) o
      { e with flags := direntTombstone }) :
    crc64 (plainEntry ((extentBuf (vol w) es).skip o) direntTombstone) e.totalBytes =
      crc64 (plainEntry (seenEntry ((vol w).block p) stack o) direntTombstone) e.totalBytes := by
  have hentry := (hx.mem hmem).2
  have hbytes := hentry.totalBytes_ge
  have hroom := hentry.room
  obtain ⟨hmod, htotal⟩ := hx.offset_mod rfl _ hmem
  have hnodup := h.mapped.nodup_extents
  have hlt : o % blockBytes < blockBytes := Nat.mod_lt _ (by decide)
  have hother : ∀ i < e.totalBytes, i < 16 ∨ 32 ≤ i ∨ (o + i) / blockBytes ≠ o / blockBytes →
      extentBuf (tombVol (vol w) p stack o e.totalBytes) es (o + i) =
        extentBuf (vol w) es (o + i) := fun i hi hout =>
    extentBuf_tombVol_other hnodup hp (h.block_lt (by omega)) (by omega)
  have hinside : o % 4096 + 24 ≤ 4096 := by
    by_contra hout
    have hsame : getLe64 (extentBuf (tombVol (vol w) p stack o e.totalBytes) es) (o + 16) =
        getLe64 (extentBuf (vol w) es) (o + 16) := by
      apply getLe64_congr
      intro i hi
      rw [Nat.add_assoc]
      exact hother _ (by omega) (.inr (.inr (by simp only [blockBytes]; omega)))
    rw [hnew.flags, hentry.flags, huse] at hsame
    exact absurd (show direntTombstone = direntInUse from hsame) (by decide)
  have hplain : ∀ i < e.totalBytes, i < 24 ∨ 32 ≤ i →
      (extentBuf (tombVol (vol w) p stack o e.totalBytes) es).skip o i =
        plainEntry ((extentBuf (vol w) es).skip o) direntTombstone i := by
    intro i hi hout
    rw [Buf.skip_apply]
    by_cases hflags : 16 ≤ i ∧ i < 24
    · rw [extentBuf_tombVol_entry hnodup hp (by simp only [blockBytes]; omega), tombEntry,
        recomputeChecksum_of_not_mem (by omega), plainEntry,
        storeLe64_of_not_mem (.inl (show i < 24 from hflags.2))]
      simp only [storeLe64, if_pos (show 16 ≤ i ∧ i < 16 + 8 from hflags)]
    · rw [hother i hi (by omega)]
      rw [plainEntry, storeLe64_of_not_mem (by omega), storeLe64_of_not_mem (by omega),
        Buf.skip_apply]
  have hsum := (checksumBlock_iff hplain).mp hnew.checksum
  rw [getLe64_skip] at hsum
  by_cases hsumIn : o % 4096 + 32 ≤ 4096
  · have hstored : getLe64 (extentBuf (tombVol (vol w) p stack o e.totalBytes) es) (o + 24) =
        getLe64 (tombEntry (seenEntry ((vol w).block p) stack o) e.totalBytes) 24 := by
      apply getLe64_congr
      intro i hi
      rw [Nat.add_assoc]
      exact extentBuf_tombVol_entry hnodup hp (by simp only [blockBytes]; omega)
    rw [hstored, getLe64_tombEntry_sum] at hsum
    exact UInt64.toNat_inj.mp hsum
  · have hstored : getLe64 (extentBuf (tombVol (vol w) p stack o e.totalBytes) es) (o + 24) =
        getLe64 (extentBuf (vol w) es) (o + 24) := by
      apply getLe64_congr
      intro i hi
      rw [Nat.add_assoc]
      exact hother _ (by omega) (.inr (.inr (by simp only [blockBytes]; omega)))
    have hkept : storeLe64 ((extentBuf (vol w) es).skip o) 16 direntInUse =
        (extentBuf (vol w) es).skip o := by
      rw [← huse, ← hentry.flags, ← getLe64_skip]
      exact storeLe64_getLe64 _ _
    have hbefore : ∀ i < e.totalBytes, i < 24 ∨ 32 ≤ i → (extentBuf (vol w) es).skip o i =
        plainEntry ((extentBuf (vol w) es).skip o) direntInUse i := by
      intro i _ hout
      rw [plainEntry, hkept]
      exact (storeLe64_of_not_mem hout).symm
    have hold := (checksumBlock_iff hbefore).mp hentry.checksum
    rw [hstored, ← getLe64_skip, ← hold] at hsum
    exact absurd (UInt64.toNat_inj.mp hsum).symm (plainEntry_flags_ne _ (by omega))

/-- Whatever the stack holds behind the driver's buffer, and wherever the number of the block
is kept, a tombstone changes the one entry: exactly if the entry lies within one block. -/
theorem tombstones_one_entry_iff {w : World} (hm : Mounted w) {env : Env} (hh : env.Healthy)
    {r : Buf} {es : List Extent} {ls : List Nat} (h : Streamed w r es ls) {xs : Entries}
    (hx : readEntries (w.facing env) r (getLe64 r 32) 0 = .ok xs) {o : Nat} {e : DirectoryEntry}
    (hmem : (o, e) ∈ xs) (huse : e.flags = direntInUse) :
    (∀ stack spill w',
      publishTombstone r o e.totalBytes (w.facing { env with stack, spill }) = (.ok (), w') →
        Tombstoned (w.facing { env with stack, spill }) w' r es xs o e.totalBytes) ↔
    o % blockBytes + e.totalBytes ≤ blockBytes := by
  have hparses :=
    (readEntries_iff (hm.facing env) hh (h.facing env) (Nat.zero_le _) (Nat.sub_le _ _)).mp hx
  have hentry := (hparses.mem hmem).2
  have hbytes := hentry.totalBytes_ge
  have hroom := hentry.room
  constructor
  · intro hall
    by_contra hcross
    have hcross := Nat.lt_of_not_le hcross
    have hlt := h.block_lt (show o < getLe64 r 32 by omega)
    have hp := List.getElem?_eq_getElem hlt
    obtain ⟨stack, stack', hne⟩ := plainEntry_stack_ne
      ((vol w).block (extentBlocks es)[o / blockBytes]) hbytes.1 hcross
    have hsums : ∀ stack, crc64 (plainEntry ((extentBuf (vol w) es).skip o) direntTombstone)
        e.totalBytes = crc64 (plainEntry (seenEntry ((vol w).block
          (extentBlocks es)[o / blockBytes]) stack o) direntTombstone) e.totalBytes := by
      intro stack
      have hh' : (w.facing { env with stack, spill := none }).env.Healthy := hh
      have hs' := h.facing { env with stack, spill := none }
      have hm' := hm.facing { env with stack, spill := none }
      obtain ⟨w', hrun⟩ := publishTombstone_succeeds hm' hh' (.inl rfl) hs'
        (show o < getLe64 r 32 by omega) (n := e.totalBytes)
      obtain ⟨hm'', hh'', hs'', hstream⟩ := publishTombstone_streamed hm' hh' (.inl rfl) hs' hrun hp
      have hafter := (readEntries_iff hm'' hh'' hs'' (Nat.zero_le _) (Nat.sub_le _ _)).mp
        (hall stack none w' hrun).entries
      have htomb : (o, { e with flags := direntTombstone }) ∈ withTombstone o xs := by
        refine List.mem_map.mpr ⟨(o, e), hmem, ?_⟩
        rw [if_pos rfl]
      have hnew := (hafter.mem htomb).2
      rw [hstream] at hnew
      exact h.tombstone_sum hparses hmem huse hp hnew
    exact hne ((hsums stack).symm.trans (hsums stack'))
  · intro hfit stack spill w' hrun
    have hm' := hm.facing { env with stack, spill }
    exact publishTombstone_within hm' hh (h.facing { env with stack, spill }) hparses hmem hfit hrun

end

/-- The second of three entries. -/
theorem second_entry_tombstoned : ∃ w r es xs e, readEntries w r (getLe64 r 32) 0 = .ok xs ∧
    xs.length = 3 ∧ (40, e) ∈ xs ∧ e.flags = direntInUse ∧
    ∀ stack spill w',
      publishTombstone r 40 e.totalBytes (w.facing { healthyEnv with stack, spill }) = (.ok (), w') →
        Tombstoned (w.facing { healthyEnv with stack, spill }) w' r es xs 40 e.totalBytes := by
  obtain ⟨-, -, -, w, r, es, -, -, -, h⟩ := filled_volume 3 (by decide)
  have hx := (readEntries_iff h.mounted h.healthy h.dir.streamed (Nat.zero_le _)
    (Nat.sub_le _ _)).mpr h.dir.parses
  have hx' := (readEntries_iff (h.mounted.facing healthyEnv) healthyEnv_healthy
    (h.dir.streamed.facing healthyEnv) (Nat.zero_le _) (Nat.sub_le _ _)).mpr h.dir.parses
  have hmem : (40, createdEntry 1 [0x61]) ∈
      (List.range 3).map fun i => (40 * i, createdEntry 1 [0x61]) :=
    List.mem_map.mpr ⟨1, List.mem_range.mpr (by decide), rfl⟩
  exact ⟨w, r, es, _, _, hx, rfl, hmem, rfl, (tombstones_one_entry_iff h.mounted healthyEnv_healthy
    h.dir.streamed hx' hmem rfl).mpr (by decide)⟩

/-- Of 103 entries of forty bytes the last begins sixteen bytes before the end of
the first block. Its tombstone is reported written, and nothing has changed. -/
theorem crossing_entry_stays_inUse : ∃ w1 node w2 w w' r es xs e,
    formatMgfs blankWorld = (.ok (), w1) ∧ mount (w1.facing healthyEnv) = (.ok node, w2) ∧
    appendEntries 1 (List.replicate 103 (1, [0x61])) w2 = (.ok (), w) ∧
    readEntries w r (getLe64 r 32) 0 = .ok xs ∧ (4080, e) ∈ xs ∧ e.flags = direntInUse ∧
    publishTombstone r 4080 e.totalBytes w = (.ok (), w') ∧
    readEntries w' r (getLe64 r 32) 0 = .ok xs ∧ ¬ Tombstoned w w' r es xs 4080 e.totalBytes := by
  obtain ⟨w1, node, w2, w, r, es, hformat, hmount, hrun, h⟩ := filled_volume 103 (by decide)
  have hs := h.dir.streamed
  have hx := (readEntries_iff h.mounted h.healthy hs (Nat.zero_le _) (Nat.sub_le _ _)).mpr
    h.dir.parses
  have hmem : (4080, createdEntry 1 [0x61]) ∈
      (List.range 103).map fun i => (40 * i, createdEntry 1 [0x61]) :=
    List.mem_map.mpr ⟨102, List.mem_range.mpr (by decide), rfl⟩
  have hsize := h.size
  have hkeeps : KeepsNumber w.env 4080 (createdEntry 1 [0x61]).totalBytes := .inl h.spill
  obtain ⟨w', htomb⟩ := publishTombstone_succeeds h.mounted h.healthy hkeeps hs
    (show 4080 < getLe64 r 32 by omega) (n := (createdEntry 1 [0x61]).totalBytes)
  obtain ⟨p, hp, -⟩ := publishTombstone_put h.mounted hkeeps hs htomb
  obtain ⟨hm', hh', hs', hstream⟩ := publishTombstone_streamed h.mounted h.healthy hkeeps hs htomb hp
  have hsame : Parses (extentBuf (vol w') es) (getLe64 r 32) 0
      ((List.range 103).map fun i => (40 * i, createdEntry 1 [0x61])) := by
    apply h.dir.parses.congr
    intro q hq
    rw [hstream]
    apply extentBuf_tombVol_other hs.mapped.nodup_extents hp (hs.block_lt hq)
    simp only [blockBytes]
    omega
  have hx' := (readEntries_iff hm' hh' hs' (Nat.zero_le _) (Nat.sub_le _ _)).mpr hsame
  refine ⟨w1, node, w2, w, w', r, es, _, _, hformat, hmount, hrun, hx, hmem, rfl, htomb, hx', ?_⟩
  intro hdone
  have heq := Except.ok.inj (hx'.symm.trans hdone.entries)
  rw [heq] at hmem
  obtain ⟨x, -, hflags⟩ := List.mem_map.mp hmem
  split at hflags
  · cases congrArg (fun y => y.2.flags) hflags
  · next hne =>
    exact hne (congrArg Prod.fst hflags)

end Mangrove.Mgfs
