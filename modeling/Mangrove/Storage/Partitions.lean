import Mangrove.Gpt.Isolation
import Mangrove.Storage.Protection
import Mangrove.Fat32.Writing

/-! Planning, creating and deleting a partition on a device whose requests succeed, and the
FAT32 volume that the formatter makes, as the driver finds it. -/

namespace Mangrove.Storage

open Block (Devices DeviceRef Sector descriptor place)
open Gpt (GptTable SameEntry EntriesValid gptEntryUsed entryFirst entryLast partitionEntryBytes
  guidBytes sectorBytes sectorOf primaryHeaderLba)

/-- `.begin` answers whether no other call changes a device. -/
def gptPlanPartition (r : Registry) (d : DeviceRef) (request : Gpt.Request) :
    Run (Except Status Gpt.Plan) :=
  if Registry.type d = .partition then return .error .invalidParam
  else do
    if !(← ask .begin) then return .error .busy
    match ← gptLoad (r.target d) with
    | .error e => return .error e
    | .ok (table, entries) =>
      if request matches .bytes 0 then return .error .invalidParam
      match planRequest (r.target d) table entries request with
      | none => return .error .noSpace
      | some plan => return .ok plan

def contents (devices : Devices) (d : DeviceRef) (s : State) (lba : Nat) : Buf :=
  Buf.ofList (s.block.media (place devices d lba).1 (place devices d lba).2)

def healthy (guid : List UInt8) : Fault := ⟨true, 0, none, [], guid⟩

def runs {α : Type} (r : Registry) (a : Nat) (guid : List UInt8) (p : Run α) (s : State) :
    State × α :=
  p.run (act r.devices (.disk a)) (fun _ => healthy guid) 0 s

/-- A table call gets past its checks: the disk is there and writable, and neither it nor
a partition of it is mounted. -/
structure Ready (r : Registry) (mounts : List Mount) (a : Nat) : Prop where
  live : (r.devices.disk a).live = true
  writable : (r.devices.disk a).readOnly = false
  preflight : r.gptPreflightChildren mounts (.disk a) = true

section

variable {α β : Type} {r : Registry} {a : Nat} {guid : List UInt8} {s : State}

lemma runs_bind (p : Run α) (f : α → Run β) :
    runs r a guid (p >>= f) s = runs r a guid (f (runs r a guid p s).2) (runs r a guid p s).1 :=
  Script.run_bind_const ..

lemma runs_guard {s' : State} {p : Run Bool} {q f : Run β} (h : runs r a guid p s = (s', true)) :
    runs r a guid (p >>= fun ok => if !ok then q else f) s = runs r a guid f s' := by
  rw [runs_bind, h]
  rfl

lemma runs_ask (op : Op) : runs r a guid (ask op) s = act r.devices (.disk a) s op (healthy guid) :=
  rfl

lemma runs_begin : runs r a guid (ask .begin) s = (s, true) := rfl

lemma runs_flush : runs r a guid (ask .flush) s = (s, true) := rfl

lemma runs_register : runs r a guid (ask .register) s = (s, true) := rfl

lemma runs_guid : runs r a guid (ask .guid) s = (s, some guid) := rfl

lemma runs_table :
    runs r a guid (ask .table) s = (s, some (contents r.devices (.disk a) s)) := rfl

lemma runs_isLive (hlive : (r.devices.disk a).live = true) :
    runs r a guid (ask .isLive) s = (s, true) := by
  show (s, (r.devices.disk a).live && true) = (s, true)
  rw [hlive]
  rfl

end

lemma ofList_bytes_sectorOf (buffer : Buf) (k : Nat) :
    Buf.ofList ((sectorOf buffer k).bytes sectorBytes) = sectorOf buffer k := by
  funext i
  by_cases hi : i < sectorBytes
  · simp [Buf.ofList, Buf.bytes, List.getD, hi]
  · simp [Buf.ofList, Buf.bytes, List.getD, hi, sectorOf, Buf.clip]

section

variable {r : Registry} {a : Nat} {s : State} {m : Media Buf} {lba n : Nat} {buffer : Buf}
  {p p' : Run Bool} {q q' : Gpt.DiskProg Unit}

/-- The answers can be chosen so that `q`, on the medium `m`, returns what a run returned that left
the device as in `s`. There is then what the medium holds, or may hold after a failure. -/
def Ends (r : Registry) (a : Nat) (q : Gpt.DiskProg Unit) (m : Media Buf) (s : State) (ok : Bool) :
    Prop :=
  ∃ m', (∀ later, ∃ answers,
      q ⟨m, answers⟩ = (if ok then .ok () else .error (), ⟨m', later⟩)) ∧
    m'.Survives (contents r.devices (.disk a) s) ∧
    (ok = true → contents r.devices (.disk a) s = m'.contents)

/-- Whatever faults occur, `q` can end as `p` does. -/
def Simulates (r : Registry) (a : Nat) (p : Run Bool) (q : Gpt.DiskProg Unit) : Prop :=
  ∀ s m, contents r.devices (.disk a) s = m.contents →
    Script.Safe (act r.devices (.disk a)) (fun _ => True) (Ends r a q m) s p

def answered (answer : Gpt.Answer) (later : Nat → Gpt.Answer) : Nat → Gpt.Answer
  | 0 => answer
  | n + 1 => later n

lemma ends_failed (hs : contents r.devices (.disk a) s = m.contents)
    (h : ∀ later, ∃ answers, q ⟨m, answers⟩ = (.error (), ⟨m, later⟩)) : Ends r a q m s false :=
  ⟨m, h, hs ▸ m.survives_contents, nofun⟩

lemma Simulates.bind (h : Simulates r a p q) (h' : Simulates r a p' q') :
    Simulates r a (p >>= fun ok => if !ok then return false else p') (q >>= fun _ => q') := by
  intro s m hs
  refine (h s m hs).bind fun s1 ok _ ⟨m1, hrun, hsurvives, hcontents⟩ => ?_
  cases ok with
  | false =>
    refine ⟨trivial, m1, fun later => ?_, hsurvives, nofun⟩
    obtain ⟨answers, hq⟩ := hrun later
    refine ⟨answers, ?_⟩
    simp only [Bind.bind, hq]
    rfl
  | true =>
    refine (h' s1 m1 (hcontents rfl)).imp (fun _ h => h) fun s2 ok _ ⟨m2, hrun', hends⟩ => ?_
    refine ⟨m2, fun later => ?_, hends⟩
    obtain ⟨answers', hq'⟩ := hrun' later
    obtain ⟨answers, hq⟩ := hrun answers'
    refine ⟨answers, ?_⟩
    simp only [Bind.bind, hq]
    exact hq'

lemma contents_writeOn {k : Nat} {written : List (Nat × Nat)}
    (h : (Block.writeOn r.devices (.disk a) lba n (sectorsOf buffer) s.block).1 = true)
    (hk : k ≤ n) (x : Nat) :
    contents r.devices (.disk a)
        ⟨(Block.writeOn r.devices (.disk a) lba k (sectorsOf buffer) s.block).2, written⟩ x =
      if lba ≤ x ∧ x < lba + k then sectorOf buffer (x - lba)
      else contents r.devices (.disk a) s x := by
  simp only [Block.writeOn, Block.blockWrite, Block.writeCallback, Block.diskWrite] at h ⊢
  split at h
  · cases h
  next hready =>
  rw [if_neg hready]
  split at h
  next hmedium =>
    have hmedium' : Block.onMedium (r.devices.disk a) lba k = true := by
      simp only [Block.onMedium, Bool.and_eq_true, decide_eq_true_eq] at hmedium ⊢
      omega
    rw [if_pos hmedium']
    simp only [contents, place, Block.storeSectors]
    by_cases hx : lba ≤ x ∧ x < lba + k
    · rw [if_pos ⟨trivial, hx⟩, if_pos hx]
      exact ofList_bytes_sectorOf buffer _
    · rw [if_neg (fun h => hx h.2), if_neg hx]
      rfl
  · cases h

lemma ends_write (hs : contents r.devices (.disk a) s = m.contents) (fault : Fault) :
    Ends r a (Gpt.blockWrite lba n buffer) m
      (write r.devices (.disk a) s lba n (sectorsOf buffer) fault).1
      (write r.devices (.disk a) s lba n (sectorsOf buffer) fault).2 := by
  unfold write
  split
  next hok =>
    cases hworks : fault.works with
    | true =>
      have hcontents : contents r.devices (.disk a)
          ⟨(Block.writeOn r.devices (.disk a) lba n (sectorsOf buffer) s.block).2,
            s.written ++ placesOf r.devices (.disk a) lba n⟩ =
          (m.write lba n (sectorOf buffer)).contents := by
        funext x
        rw [contents_writeOn hok le_rfl]
        split
        next hx => rw [Media.contents_write_of_mem hx.1 hx.2]
        next hx => rw [Media.contents_write_of_not_mem (by omega), hs]
      refine ⟨m.write lba n (sectorOf buffer), fun later => ⟨answered .done later, rfl⟩, ?_,
        fun _ => hcontents⟩
      exact hcontents ▸ Media.survives_contents _
    | false =>
      refine ⟨m.write lba n (sectorOf buffer), fun later => ⟨answered .cut later, rfl⟩,
        Media.survives_write fun x => ?_, nofun⟩
      simp only [Bool.false_eq_true, if_false]
      rw [contents_writeOn hok (Nat.min_le_right _ _)]
      by_cases hx : lba ≤ x ∧ x < lba + min fault.transferred n
      · rw [if_pos hx]
        exact .inr ⟨x - lba, by omega, by omega, rfl⟩
      · rw [if_neg hx]
        exact .inl (congrFun hs x)
  · exact ends_failed hs fun later => ⟨answered .refused later, rfl⟩

lemma simulates_gptWrite (lba n : Nat) (buffer : Buf) :
    Simulates r a (gptWrite (r.target (.disk a)) lba n buffer)
      (Gpt.gptWrite (r.target (.disk a)) lba n buffer) := by
  intro s m hs
  unfold gptWrite checkedWrite Gpt.gptWrite
  by_cases hn : n = 0
  · rw [if_pos hn, if_pos (.inl hn)]
    exact ⟨trivial, ends_failed hs fun later => ⟨later, rfl⟩⟩
  rw [if_neg hn]
  refine ⟨trivial, fun fault => ?_⟩
  by_cases hrange : lba > (r.target (.disk a)).sectorCount ∨
      n > (r.target (.disk a)).sectorCount - lba
  · rw [if_pos hrange, if_pos (.inr hrange)]
    have hends : Ends r a (Prog.fail ()) m s false := ends_failed hs fun later => ⟨later, rfl⟩
    cases hanswer : (act r.devices (.disk a) s .isLive fault).2 <;> exact ⟨trivial, hends⟩
  · rw [if_neg hrange, if_neg (by omega)]
    cases hanswer : (act r.devices (.disk a) s .isLive fault).2 with
    | false => exact ⟨trivial, ends_failed hs fun later => ⟨answered .refused later, rfl⟩⟩
    | true => exact ⟨trivial, fun fault => ⟨trivial, ends_write hs fault⟩⟩

lemma simulates_flush : Simulates r a (ask .flush) Gpt.blockFlush := by
  intro s m hs
  refine ⟨trivial, fun fault => ⟨trivial, ?_⟩⟩
  show Ends r a Gpt.blockFlush m s fault.works
  cases fault.works with
  | false => exact ends_failed hs fun later => ⟨answered .refused later, rfl⟩
  | true =>
    have hflush : contents r.devices (.disk a) s = m.flush.contents := hs
    exact ⟨m.flush, fun later => ⟨answered .done later, rfl⟩,
      hflush ▸ m.flush.survives_contents, fun _ => hflush⟩

lemma simulates_isLive : Simulates r a (ask .isLive) Gpt.blockDeviceIsLive := by
  intro s m hs
  refine ⟨trivial, fun fault => ⟨trivial, ?_⟩⟩
  show Ends r a Gpt.blockDeviceIsLive m s ((r.devices.disk a).live && fault.works)
  cases (r.devices.disk a).live && fault.works with
  | false => exact ends_failed hs fun later => ⟨answered .refused later, rfl⟩
  | true =>
    exact ⟨m, fun later => ⟨answered .done later, rfl⟩, hs ▸ m.survives_contents, fun _ => hs⟩

/-- The update of a table as the storage calls make it, request by request, ends as one of those
that `Gpt.gptWriteUpdated` has over the medium, so that what a power loss leaves of these is what
is left of it. -/
lemma simulates_gptWriteUpdated (table : GptTable) (entries : Buf) :
    Simulates r a (gptWriteUpdated (r.target (.disk a)) table entries)
      (Gpt.gptWriteUpdated (r.target (.disk a)) table entries) := by
  unfold gptWriteUpdated Gpt.gptWriteUpdated
  split
  · intro s m hs
    exact ⟨trivial, ends_failed hs fun later => ⟨later, rfl⟩⟩
  · exact (simulates_gptWrite _ _ _).bind <| (simulates_gptWrite _ _ _).bind <|
      simulates_flush.bind <| (simulates_gptWrite _ _ _).bind <|
      (simulates_gptWrite _ _ _).bind <| simulates_flush.bind simulates_isLive

end

section

variable {r : Registry} {a : Nat} {guid : List UInt8} {s : State} {lba n : Nat} {buffer : Buf}
  (hlive : (r.devices.disk a).live = true) (hwritable : (r.devices.disk a).readOnly = false)

lemma runs_gptLoad {table : GptTable} {old : Buf}
    (hload : Gpt.gptLoad (r.target (.disk a)) (contents r.devices (.disk a) s) = .ok (table, old)) :
    runs r a guid (gptLoad (r.target (.disk a))) s = (s, .ok (table, old)) := by
  obtain ⟨⟨htype, hsize, hcount⟩, -⟩ := Gpt.gptLoad_device hload
  unfold gptLoad
  rw [if_neg (by rintro (h | h | h); exacts [htype h, h hsize, by omega]), runs_bind, runs_table]
  simp only [hload]
  rfl

include hlive hwritable

lemma runs_gptWrite (hn : n ≠ 0) (hfit : lba + n ≤ (r.target (.disk a)).sectorCount) :
    ∃ s', runs r a guid (gptWrite (r.target (.disk a)) lba n buffer) s = (s', true) ∧
      ∀ x, contents r.devices (.disk a) s' x =
        if lba ≤ x ∧ x < lba + n then sectorOf buffer (x - lba)
        else contents r.devices (.disk a) s x := by
  have hwrite : Block.writeOn r.devices (.disk a) lba n (sectorsOf buffer) s.block =
      (true, { s.block.invalidate (.disk a) lba n with
        media := Block.storeSectors s.block.media (r.devices.disk a).medium lba n
          (sectorsOf buffer) }) := by
    have hmedium : Block.onMedium (r.devices.disk a) lba n = true := by
      have hcount : (r.target (.disk a)).sectorCount = (r.devices.disk a).blockCount := rfl
      simp only [Block.onMedium, Bool.and_eq_true, decide_eq_true_eq]
      omega
    simp only [Block.writeOn, Block.blockWrite, descriptor, hlive, hwritable, Block.writeCallback,
      Block.diskWrite, hmedium]
    rfl
  refine ⟨(write r.devices (.disk a) s lba n (sectorsOf buffer) (healthy guid)).1, ?_, fun x => ?_⟩
  · unfold gptWrite checkedWrite
    rw [if_neg hn, runs_guard (runs_isLive hlive), if_neg (by omega), runs_ask]
    show write r.devices (.disk a) s lba n (sectorsOf buffer) (healthy guid) = _
    simp only [write, hwrite, if_true]
    rfl
  · simp only [write, hwrite, if_true, healthy, contents, place, Block.storeSectors]
    by_cases hx : lba ≤ x ∧ x < lba + n
    · rw [if_pos ⟨trivial, hx⟩, if_pos hx]
      exact ofList_bytes_sectorOf buffer _
    · rw [if_neg (fun h => hx h.2), if_neg hx]

variable {table : GptTable} {new : Buf}

lemma runs_gptWriteUpdated (hsound : table.Sound (r.target (.disk a)).sectorCount) :
    ∃ s', runs r a guid (gptWriteUpdated (r.target (.disk a)) table new) s = (s', true) ∧
      Gpt.NewCopy table new false primaryHeaderLba table.primaryEntriesLba
        ⟨contents r.devices (.disk a) s', []⟩ ∧
      Gpt.NewCopy table new true ((r.target (.disk a)).sectorCount - 1) table.backupEntriesLba
        ⟨contents r.devices (.disk a) s', []⟩ ∧
      contents r.devices (.disk a) s' 0 = contents r.devices (.disk a) s 0 := by
  have hcount := hsound.count_le
  have hsize := hsound.entrySize
  have harray := hsound.arraySectors
  have hpos := hsound.array_pos
  have h1 := hsound.primary_ge
  have h2 := hsound.primary_le
  have h3 := hsound.first_le
  have h4 := hsound.last_lt
  have h5 := hsound.backup_end
  have hone : primaryHeaderLba = 1 := rfl
  have hmost : table.arraySectors ≤ Gpt.entryArraySectors := by
    rw [harray, hsize]
    simp only [Gpt.arraySectorsOf, Gpt.entryArraySectors, Gpt.maxPartitionEntries,
      partitionEntryBytes, sectorBytes] at hcount ⊢
    omega
  simp only [Gpt.primaryEntriesLba] at h1
  obtain ⟨s1, hr1, hc1⟩ := @runs_gptWrite r a guid s table.backupEntriesLba table.arraySectors new
    hlive hwritable (by omega) (by omega)
  obtain ⟨s2, hr2, hc2⟩ := @runs_gptWrite r a guid s1 ((r.target (.disk a)).sectorCount - 1) 1
    (Gpt.updatedHeader table true new) hlive hwritable (by omega) (by omega)
  obtain ⟨s3, hr3, hc3⟩ := @runs_gptWrite r a guid s2 table.primaryEntriesLba table.arraySectors new
    hlive hwritable (by omega) (by omega)
  obtain ⟨s4, hr4, hc4⟩ := @runs_gptWrite r a guid s3 primaryHeaderLba 1
    (Gpt.updatedHeader table false new) hlive hwritable (by omega) (by omega)
  refine ⟨s4, ?_, ⟨fun k hk => ⟨?_, by simp⟩, ?_, by simp⟩, ⟨fun k hk => ⟨?_, by simp⟩, ?_, by simp⟩, ?_⟩
  · unfold gptWriteUpdated
    rw [if_neg (by omega), runs_guard hr1, runs_guard hr2, runs_guard runs_flush, runs_guard hr3,
      runs_guard hr4, runs_guard runs_flush]
    exact runs_isLive hlive
  · show contents r.devices (.disk a) s4 _ = _
    rw [hc4, if_neg (by omega), hc3, if_pos (by omega), Nat.add_sub_cancel_left]
  · show contents r.devices (.disk a) s4 _ = _
    rw [hc4, if_pos (by omega), Nat.sub_self]
  · show contents r.devices (.disk a) s4 _ = _
    rw [hc4, if_neg (by omega), hc3, if_neg (by omega), hc2, if_neg (by omega), hc1,
      if_pos (by omega), Nat.add_sub_cancel_left]
  · show contents r.devices (.disk a) s4 _ = _
    rw [hc4, if_neg (by omega), hc3, if_neg (by omega), hc2, if_pos (by omega), Nat.sub_self]
  · rw [hc4, if_neg (by omega), hc3, if_neg (by omega), hc2, if_neg (by omega), hc1,
      if_neg (by omega)]

lemma runs_publishTable {old : Buf} {used : Nat}
    (hload : Gpt.gptLoad (r.target (.disk a)) (contents r.devices (.disk a) s) = .ok (table, old))
    (hvalid : Gpt.gptEntriesValid new table.entryCount table.firstUsable table.lastUsable =
      some used) :
    ∃ s' loaded, runs r a guid (publishTable (r.target (.disk a)) table new) s = (s', .ok) ∧
      Gpt.gptLoad (r.target (.disk a)) (contents r.devices (.disk a) s') =
        .ok ({ table with partitionCount := used }, loaded) ∧
      ∀ i < table.entryCount, SameEntry loaded new i := by
  obtain ⟨hsound, -, -⟩ := Gpt.gptLoad_spec hload
  obtain ⟨hdevice, hmbr⟩ := Gpt.gptLoad_device hload
  obtain ⟨s', hrun, hp, hb, hzero⟩ := @runs_gptWriteUpdated r a guid s hlive hwritable table new hsound
  have hmbr' : Gpt.mbrIsProtective (Gpt.sectorsFrom (contents r.devices (.disk a) s') 0) = true := by
    have hsame {i : Nat} (hi : i < sectorBytes) :
        Gpt.sectorsFrom (contents r.devices (.disk a) s') 0 i =
          Gpt.sectorsFrom (contents r.devices (.disk a) s) 0 i :=
      Gpt.sectorsFrom_congr (by rwa [Nat.div_eq_of_lt hi])
    unfold Gpt.mbrIsProtective Gpt.mbrSigned at hmbr ⊢
    rwa [hsame (by decide), hsame (by decide), hsame (by decide)]
  obtain ⟨hloaded, hbytes⟩ := Gpt.gptLoad_of_new hdevice hmbr' hsound hp hb hvalid
  refine ⟨s', _, ?_, hloaded, fun i hi k hk => hbytes _ ?_⟩
  · unfold publishTable
    rw [runs_guard hrun]
    unfold rescan
    rw [runs_bind, runs_table]
    simp only [hloaded]
    rw [runs_bind, runs_register]
    rfl
  · have hsize := hsound.entrySize
    rw [hsize]
    simp only [partitionEntryBytes] at hk ⊢
    omega

end

section

variable {entries : Buf} {number firstLba lastLba : Nat} {guid : List UInt8} {table : GptTable}

/-- The GUID made for a new entry is one, and no used entry has it. -/
structure Fresh (table : GptTable) (entries : Buf) (guid : List UInt8) : Prop where
  length : guid.length = guidBytes
  used : ∃ b ∈ guid, b ≠ 0
  distinct : ∀ i < table.entryCount, gptEntryUsed entries i = true →
    (entries.skip (i * partitionEntryBytes + 16)).bytes guidBytes ≠ guid

lemma newEntry_other {i : Nat} (hi : i ≠ number - 1) :
    SameEntry (newEntry entries number firstLba lastLba guid) entries i := by
  intro k hk
  simp only [partitionEntryBytes] at hk ⊢
  simp (disch := omega) only [newEntry, partitionEntryBytes, guidBytes, storeLe64_of_not_mem,
    Buf.copy_of_not_mem, Buf.fill_of_not_mem]

lemma newEntry_typeGuid {k : Nat} (hk : k < guidBytes) :
    newEntry entries number firstLba lastLba guid ((number - 1) * partitionEntryBytes + k) =
      Buf.ofList dataTypeGuid k := by
  simp only [guidBytes] at hk
  simp (disch := omega) only [newEntry, partitionEntryBytes, guidBytes, storeLe64_of_not_mem,
    Buf.copy_of_not_mem, Buf.copy_of_mem, Nat.add_sub_cancel_left]

lemma newEntry_uniqueGuid {k : Nat} (hk : k < guidBytes) :
    newEntry entries number firstLba lastLba guid ((number - 1) * partitionEntryBytes + 16 + k) =
      Buf.ofList guid k := by
  simp only [guidBytes] at hk
  simp (disch := omega) only [newEntry, partitionEntryBytes, guidBytes, storeLe64_of_not_mem,
    Buf.copy_of_mem, Nat.add_sub_cancel_left]

lemma newEntry_first (h : firstLba ≤ u64Max) :
    entryFirst (newEntry entries number firstLba lastLba guid) (number - 1) = firstLba := by
  simp only [u64Max] at h
  unfold entryFirst newEntry
  rw [getLe64_store_of_ne (by omega), getLe64_store (by omega)]

lemma newEntry_last (h : lastLba ≤ u64Max) :
    entryLast (newEntry entries number firstLba lastLba guid) (number - 1) = lastLba := by
  simp only [u64Max] at h
  unfold entryLast newEntry
  rw [getLe64_store (by omega)]

lemma newEntry_used :
    gptEntryUsed (newEntry entries number firstLba lastLba guid) (number - 1) = true := by
  refine List.any_eq_true.mpr ⟨0, by decide, ?_⟩
  rw [newEntry_typeGuid (by decide)]
  decide

lemma bytes_eq_of_ofList {b : Buf} {l : List UInt8} (h : ∀ k < l.length, b k = Buf.ofList l k) :
    b.bytes l.length = l := by
  refine List.ext_getElem (by simp [Buf.bytes]) fun k h1 h2 => ?_
  simp only [Buf.bytes, List.getElem_map, List.getElem_range]
  rw [h k h2, Buf.ofList, List.getD_eq_getElem _ _ h2]

lemma scannedEntry_newEntry (hfirst : firstLba ≤ u64Max) (hlast : lastLba ≤ u64Max)
    (hlength : guid.length = guidBytes) :
    Gpt.scannedEntry (newEntry entries number firstLba lastLba guid) (number - 1) =
      ⟨number - 1 + 1, firstLba, lastLba, dataTypeGuid, guid⟩ := by
  have htype : ((newEntry entries number firstLba lastLba guid).skip
      ((number - 1) * partitionEntryBytes)).bytes guidBytes = dataTypeGuid :=
    bytes_eq_of_ofList (l := dataTypeGuid) fun k hk => newEntry_typeGuid hk
  have hunique : ((newEntry entries number firstLba lastLba guid).skip
      ((number - 1) * partitionEntryBytes + 16)).bytes guidBytes = guid := by
    rw [← hlength]
    exact bytes_eq_of_ofList fun k hk => newEntry_uniqueGuid (hlength ▸ hk)
  unfold Gpt.scannedEntry
  rw [newEntry_first hfirst, newEntry_last hlast, htype, hunique]

lemma newEntry_valid (hvalid : EntriesValid entries table.entryCount table.firstUsable
      table.lastUsable) (hfresh : Fresh table entries guid) (horder : firstLba ≤ lastLba)
    (hfirst : table.firstUsable ≤ firstLba) (hlast : lastLba ≤ table.lastUsable)
    (hmax : table.lastUsable ≤ u64Max)
    (hfree : ∀ i < table.entryCount, gptEntryUsed entries i = true →
      entryLast entries i < firstLba ∨ lastLba < entryFirst entries i) :
    EntriesValid (newEntry entries number firstLba lastLba guid) table.entryCount
      table.firstUsable table.lastUsable := by
  have hf : entryFirst (newEntry entries number firstLba lastLba guid) (number - 1) = firstLba :=
    newEntry_first (by omega)
  have hl : entryLast (newEntry entries number firstLba lastLba guid) (number - 1) = lastLba :=
    newEntry_last (by omega)
  have hother {i : Nat} (hi : i ≠ number - 1) :
      SameEntry (newEntry entries number firstLba lastLba guid) entries i := newEntry_other hi
  have hguid {i : Nat} (hi : i < table.entryCount) (hne : i ≠ number - 1)
      (hu : gptEntryUsed entries i = true) :
      Gpt.sameGuid (newEntry entries number firstLba lastLba guid) i (number - 1) = false := by
    refine Bool.eq_false_iff.mpr fun hsame => hfresh.distinct i hi hu ?_
    rw [← hfresh.length]
    refine bytes_eq_of_ofList fun k hk => ?_
    rw [hfresh.length] at hk
    have hk' := List.all_eq_true.mp hsame k (List.mem_range.mpr hk)
    rw [beq_iff_eq, (hother hne).uniqueGuid hk, newEntry_uniqueGuid hk] at hk'
    exact hk'
  refine ⟨hvalid.count, hvalid.order, fun i hi hu => ?_, fun i hi hu => ?_,
    fun i hi j hj hui huj hne => ?_, fun i hi j hj hui huj hne => ?_⟩
  · by_cases hn : i = number - 1
    · obtain ⟨b, hb, hne⟩ := hfresh.used
      obtain ⟨k, hk, rfl⟩ := List.getElem_of_mem hb
      refine List.all_eq_false.mpr ⟨k, List.mem_range.mpr (hfresh.length ▸ hk), ?_⟩
      rw [hn, newEntry_uniqueGuid (hfresh.length ▸ hk), Buf.ofList, List.getD_eq_getElem _ _ hk]
      simpa using hne
    · rw [(hother hn).guidIsZero]
      exact hvalid.guid i hi ((hother hn).used ▸ hu)
  · by_cases hn : i = number - 1
    · rw [hn, hf, hl]
      exact ⟨hfirst, horder, hlast⟩
    · rw [(hother hn).first, (hother hn).last]
      exact hvalid.ranges i hi ((hother hn).used ▸ hu)
  · by_cases hn : i = number - 1
    · have hm := hn ▸ hne.symm
      rw [Gpt.sameGuid_comm, hn]
      exact hguid hj hm ((hother hm).used ▸ huj)
    · by_cases hm : j = number - 1
      · rw [hm]
        exact hguid hi hn ((hother hn).used ▸ hui)
      · rw [(hother hn).sameGuid (hother hm)]
        exact hvalid.distinct i hi j hj ((hother hn).used ▸ hui) ((hother hm).used ▸ huj) hne
  · by_cases hn : i = number - 1
    · have hm := hn ▸ hne.symm
      rw [hn, hf, hl, (hother hm).first, (hother hm).last]
      exact hfree j hj ((hother hm).used ▸ huj)
    · rw [(hother hn).first, (hother hn).last]
      by_cases hm : j = number - 1
      · rw [hm, hf, hl]
        exact (hfree i hi ((hother hn).used ▸ hui)).symm
      · rw [(hother hm).first, (hother hm).last]
        exact hvalid.disjoint i hi j hj ((hother hn).used ▸ hui) ((hother hm).used ▸ huj) hne

lemma entriesValid_of_same {a b : Buf} {count first last : Nat} (h : EntriesValid a count first last)
    (hsame : ∀ i < count, gptEntryUsed b i = true → SameEntry b a i) :
    EntriesValid b count first last := by
  have hused {i : Nat} (hi : i < count) (hu : gptEntryUsed b i = true) : gptEntryUsed a i = true :=
    (hsame i hi hu).used ▸ hu
  refine ⟨h.count, h.order, fun i hi hu => ?_, fun i hi hu => ?_,
    fun i hi j hj hui huj hne => ?_, fun i hi j hj hui huj hne => ?_⟩
  · rw [(hsame i hi hu).guidIsZero]
    exact h.guid i hi (hused hi hu)
  · rw [(hsame i hi hu).first, (hsame i hi hu).last]
    exact h.ranges i hi (hused hi hu)
  · rw [(hsame i hi hui).sameGuid (hsame j hj huj)]
    exact h.distinct i hi j hj (hused hi hui) (hused hj huj) hne
  · rw [(hsame i hi hui).first, (hsame i hi hui).last, (hsame j hj huj).first, (hsame j hj huj).last]
    exact h.disjoint i hi j hj (hused hi hui) (hused hj huj) hne

end

/-- The entries as they were, and the planned one in an entry that was unused. -/
structure Added (table : GptTable) (entries : Buf) (plan : Gpt.Plan) (guid : List UInt8)
    (loaded : Buf) : Prop where
  others : ∀ i < table.entryCount, i ≠ plan.partitionNumber - 1 → SameEntry loaded entries i
  unused : gptEntryUsed entries (plan.partitionNumber - 1) = false
  used : gptEntryUsed loaded (plan.partitionNumber - 1) = true
  planned : Gpt.scannedEntry loaded (plan.partitionNumber - 1) =
    ⟨plan.partitionNumber, plan.firstLba, plan.lastLba, dataTypeGuid, guid⟩

def SameUsed (table : GptTable) (entries loaded : Buf) : Prop :=
  ∀ i < table.entryCount, gptEntryUsed loaded i = gptEntryUsed entries i ∧
    (gptEntryUsed entries i = true → SameEntry loaded entries i)

/-- The partition is registered as it was planned. -/
structure RegisteredAs (r : Registry) (a b : Nat) (plan : Gpt.Plan) (guid : List UInt8) :
    Prop where
  parent : (r.devices.partition b).parent = a
  live : (r.devices.partition b).live = true
  number : (r.info b).number = plan.partitionNumber
  guid : (r.info b).uniqueGuid = guid
  first : (r.devices.partition b).firstLba = plan.firstLba
  last : (r.devices.partition b).lastLba = plan.lastLba

section

variable {r : Registry} {mounts : List Mount} {a : Nat} {s : State} {guid : List UInt8}
  {table : GptTable} {entries : Buf} {plan : Gpt.Plan} {request : Gpt.Request}
  (hload : Gpt.gptLoad (r.target (.disk a)) (contents r.devices (.disk a) s) = .ok (table, entries))

include hload

lemma planRequest_of_plan
    (hplan : (runs r a guid (gptPlanPartition r (.disk a) request) s).2 = .ok plan) :
    planRequest (r.target (.disk a)) table entries request = some plan := by
  unfold gptPlanPartition at hplan
  rw [if_neg nofun, runs_guard runs_begin, runs_bind, runs_gptLoad hload] at hplan
  cases hfound : planRequest (r.target (.disk a)) table entries request with
  | none =>
    simp only [hfound] at hplan
    split at hplan
    · cases hplan
    · cases hplan
  | some found =>
    simp only [hfound] at hplan
    split at hplan
    · cases hplan
    · exact congrArg some (Except.ok.inj hplan)

lemma planFor_of_plan (hplan : planRequest (r.target (.disk a)) table entries request = some plan) :
    planFor (r.target (.disk a)) table entries plan.firstLba plan.lastLba = some plan ∧
      plan.firstLba ≤ plan.lastLba ∧ table.firstUsable ≤ plan.firstLba ∧
      plan.lastLba ≤ table.lastUsable ∧ plan.partitionNumber ≠ 0 ∧
      plan.partitionNumber ≤ table.entryCount ∧
      gptEntryUsed entries (plan.partitionNumber - 1) = false ∧
      ∀ i < table.entryCount, gptEntryUsed entries i = true →
        entryLast entries i < plan.firstLba ∨ plan.lastLba < entryFirst entries i := by
  obtain ⟨hsound, -, -⟩ := Gpt.gptLoad_spec hload
  obtain ⟨⟨-, hsize, -⟩, -⟩ := Gpt.gptLoad_device hload
  have hlaid : Gpt.Laid (table.usable hsound) entries := Gpt.laid_of_valid (Gpt.gptLoad_entries hload)
  have h1 := hsound.last_lt
  have h2 := hsound.backup_end
  have h3 := hsound.total_le
  have h4 := hsound.first_le
  have hle : table.firstUsable ≤ u64Max ∧ table.lastUsable ≤ u64Max := ⟨by omega, by omega⟩
  have hsize' : (r.target (.disk a)).sectorSize = 512 := hsize
  unfold planRequest at hplan
  rw [dif_pos hle, hsize'] at hplan
  have hfound := Option.join_eq_some_iff.mp hplan
  obtain ⟨hagain, hfits, horder, hnumber, hbytes⟩ :=
    Gpt.planFromEntries_again hlaid (show table.lastUsable < u64Max by omega) hfound
  obtain ⟨hpos, hcount, hunused, -⟩ := hnumber
  have hend := hfits.last
  have hlast : (table.usable hsound).lastUsable = table.lastUsable := rfl
  refine ⟨?_, horder, hfits.first, by omega, by omega, hcount, hunused, fun i hi hu => ?_⟩
  · unfold planFor
    rw [dif_pos hle, hsize', hbytes]
    exact Option.join_eq_some_iff.mpr hagain
  · have := hfits.free i hi hu
    omega

lemma runs_gptCreatePartition (hready : Ready r mounts a)
    (hplan : planRequest (r.target (.disk a)) table entries request = some plan)
    (hfresh : Fresh table entries guid) :
    ∃ s' loaded used, runs r a guid (gptCreatePartition r mounts (.disk a) plan.partitionNumber
        plan.firstLba plan.lastLba) s = (s', .ok) ∧
      Gpt.gptLoad (r.target (.disk a)) (contents r.devices (.disk a) s') =
        .ok ({ table with partitionCount := used }, loaded) ∧ Added table entries plan guid loaded := by
  obtain ⟨hsound, -, -⟩ := Gpt.gptLoad_spec hload
  obtain ⟨hfor, horder, hfirst, hlast, hpos, hcount, hunused, hfree⟩ := planFor_of_plan hload hplan
  have h1 := hsound.last_lt
  have h2 := hsound.backup_end
  have h3 := hsound.total_le
  have h4 := hsound.count_le
  obtain ⟨hvalid, -⟩ := Gpt.gptEntriesValid_iff.mp (Gpt.gptLoad_entries hload)
  have hnew := @newEntry_valid entries plan.partitionNumber _ _ _ _ hvalid hfresh horder
    hfirst hlast (by omega) hfree
  obtain ⟨s', loaded, hrun, hloaded, hsame⟩ := @runs_publishTable r a guid s hready.live
    hready.writable table _ entries _ hload (Gpt.gptEntriesValid_iff.mpr ⟨hnew, rfl⟩)
  have hplanned := hsame (plan.partitionNumber - 1) (by omega)
  refine ⟨s', loaded, _, ?_, hloaded, fun i hi hne => fun k hk => ?_, hunused, ?_, ?_⟩
  · unfold gptCreatePartition
    have hlive : (descriptor r.devices (.disk a)).live = true := hready.live
    have hwritable : (descriptor r.devices (.disk a)).readOnly = false := hready.writable
    rw [if_neg (by omega), hlive, hwritable, hready.preflight]
    simp only [Bool.not_true, Bool.false_eq_true, if_false]
    unfold createOn
    rw [runs_guard runs_begin, runs_bind, runs_gptLoad hload]
    simp only [hfor, ne_eq, not_true_eq_false, or_self, if_false]
    rw [runs_bind, runs_guid]
    exact hrun
  · rw [hsame i hi k hk, newEntry_other hne k hk]
  · rw [hplanned.used]
    exact newEntry_used
  · have hscanned := hplanned.scanned
    rw [hscanned, scannedEntry_newEntry (by omega) (by omega) hfresh.length,
      Nat.sub_add_cancel (by omega)]

lemma runs_gptDeletePartition {b : Nat} (hready : Ready r mounts a)
    (hregistered : RegisteredAs r a b plan guid) (hpos : plan.partitionNumber ≠ 0)
    (hcount : plan.partitionNumber ≤ table.entryCount)
    (hused : gptEntryUsed entries (plan.partitionNumber - 1) = true)
    (hplanned : Gpt.scannedEntry entries (plan.partitionNumber - 1) =
      ⟨plan.partitionNumber, plan.firstLba, plan.lastLba, dataTypeGuid, guid⟩) :
    ∃ s' loaded used, runs r a guid (gptDeletePartition r mounts (.disk a) (.partition b)
        plan.partitionNumber) s = (s', .ok) ∧
      Gpt.gptLoad (r.target (.disk a)) (contents r.devices (.disk a) s') =
        .ok ({ table with partitionCount := used }, loaded) ∧
      gptEntryUsed loaded (plan.partitionNumber - 1) = false ∧
      ∀ i < table.entryCount, i ≠ plan.partitionNumber - 1 → SameEntry loaded entries i := by
  obtain ⟨hvalid, -⟩ := Gpt.gptEntriesValid_iff.mp (Gpt.gptLoad_entries hload)
  have hfirst : entryFirst entries (plan.partitionNumber - 1) = plan.firstLba :=
    congrArg Gpt.Scanned.firstLba hplanned
  have hlast : entryLast entries (plan.partitionNumber - 1) = plan.lastLba :=
    congrArg Gpt.Scanned.lastLba hplanned
  have hguid : (entries.skip ((plan.partitionNumber - 1) * partitionEntryBytes + 16)).bytes
      guidBytes = guid := congrArg Gpt.Scanned.uniqueGuid hplanned
  have hother {i : Nat} (hi : i ≠ plan.partitionNumber - 1) : SameEntry
      (entries.fill ((plan.partitionNumber - 1) * partitionEntryBytes) partitionEntryBytes 0)
      entries i := by
    intro k hk
    simp only [partitionEntryBytes] at hk ⊢
    exact Buf.fill_of_not_mem (by omega)
  have hcleared : gptEntryUsed (entries.fill ((plan.partitionNumber - 1) * partitionEntryBytes)
      partitionEntryBytes 0) (plan.partitionNumber - 1) = false := by
    refine List.any_eq_false.mpr fun k hk => ?_
    have hk := List.mem_range.mp hk
    simp only [guidBytes] at hk
    rw [Buf.fill_of_mem (by omega) (by simp only [partitionEntryBytes]; omega)]
    decide
  have hnew := entriesValid_of_same hvalid (b := entries.fill
      ((plan.partitionNumber - 1) * partitionEntryBytes) partitionEntryBytes 0) fun i hi hu =>
    hother fun hn => by rw [hn, hcleared] at hu; cases hu
  obtain ⟨s', loaded, hrun, hloaded, hsame⟩ := @runs_publishTable r a guid s hready.live
    hready.writable table _ entries _ hload (Gpt.gptEntriesValid_iff.mpr ⟨hnew, rfl⟩)
  refine ⟨s', loaded, _, ?_, hloaded, ?_, fun i hi hne k hk => ?_⟩
  · unfold gptDeletePartition
    have hlive : (descriptor r.devices (.disk a)).live = true := hready.live
    have hlive' : (descriptor r.devices (.partition b)).live = true := hregistered.live
    have hwritable : (descriptor r.devices (.disk a)).readOnly = false := hready.writable
    have hmatches : r.parentMatches (.disk a) (.partition b) = true := by
      simp only [Registry.parentMatches, hregistered.parent, beq_self_eq_true]
    simp only
    rw [if_neg (by simp [hpos, hmatches, hregistered.number]), hlive, hlive', hwritable,
      hready.preflight]
    simp only [Bool.not_true, Bool.false_eq_true, if_false, Bool.or_self]
    unfold deleteOn
    rw [runs_guard runs_begin, runs_bind, runs_gptLoad hload]
    simp only [hused, hfirst, hlast, hguid, hregistered.first, hregistered.last, hregistered.guid,
      ne_eq, not_true_eq_false, or_self, Bool.true_eq_false, if_false]
    exact hrun
  · rw [(hsame _ (by omega)).used]
    exact hcleared
  · rw [hsame i hi k hk, hother hne k hk]

end

/-- A plan can be created as it is, which adds its entry and nothing else, and the
partition can then be deleted, which leaves the entries that were in use before. -/
theorem plan_create_delete (r : Registry) (mounts : List Mount) (a : Nat) (s : State)
    (guid : List UInt8) (table : GptTable) (entries : Buf) (request : Gpt.Request) (plan : Gpt.Plan)
    (hready : Ready r mounts a)
    (hload : Gpt.gptLoad (r.target (.disk a)) (contents r.devices (.disk a) s) =
      .ok (table, entries))
    (hplan : (runs r a guid (gptPlanPartition r (.disk a) request) s).2 = .ok plan)
    (hfresh : Fresh table entries guid) : ∃ created added used,
      runs r a guid (gptCreatePartition r mounts (.disk a) plan.partitionNumber plan.firstLba
        plan.lastLba) s = (created, .ok) ∧
      Gpt.gptLoad (r.target (.disk a)) (contents r.devices (.disk a) created) =
        .ok ({ table with partitionCount := used }, added) ∧
      Added table entries plan guid added ∧
      ∀ (r' : Registry) (mounts' : List Mount) (b : Nat), Ready r' mounts' a →
        r'.devices.disk a = r.devices.disk a → RegisteredAs r' a b plan guid →
        ∃ deleted left used',
          runs r' a guid (gptDeletePartition r' mounts' (.disk a) (.partition b)
            plan.partitionNumber) created = (deleted, .ok) ∧
          Gpt.gptLoad (r'.target (.disk a)) (contents r'.devices (.disk a) deleted) =
            .ok ({ table with partitionCount := used' }, left) ∧
          SameUsed table entries left := by
  have hrequest := planRequest_of_plan hload hplan
  obtain ⟨-, -, -, -, hpos, hcount, -, -⟩ := planFor_of_plan hload hrequest
  obtain ⟨created, added, used, hrun, hloaded, hadded⟩ :=
    runs_gptCreatePartition hload hready hrequest hfresh
  refine ⟨created, added, used, hrun, hloaded, hadded, fun r' mounts' b hready' hdisk hreg => ?_⟩
  have hloaded' : Gpt.gptLoad (r'.target (.disk a)) (contents r'.devices (.disk a) created) =
      .ok ({ table with partitionCount := used }, added) := by
    rw [← hloaded]
    unfold contents Registry.target Registry.sectorCount place descriptor
    simp only [hdisk]
  obtain ⟨deleted, left, used', hdelete, hleft, hcleared, hothers⟩ :=
    runs_gptDeletePartition hloaded' hready' hreg hpos hcount hadded.used hadded.planned
  refine ⟨deleted, left, used', hdelete, hleft, fun i hi => ?_⟩
  by_cases hn : i = plan.partitionNumber - 1
  · rw [hn, hcleared, hadded.unused]
    exact ⟨rfl, nofun⟩
  · have hsame : SameEntry left entries i := fun k hk =>
      (hothers i hi hn k hk).trans (hadded.others i hi hn k hk)
    exact ⟨hsame.used, fun _ => hsame⟩

section

def oldGuid : List UInt8 := List.replicate guidBytes 8

def newGuid : List UInt8 := List.replicate guidBytes 9

lemma usedDisk_order (b : Nat) :
    (if b = 0 then 40 else 4096) ≤ if b = 0 then 4095 else 66597 := by split <;> decide

lemma usedDisk_last (b : Nat) : (if b = 0 then 4095 else 66597) < u64Max := by split <;> decide

/-- The disks of `twoDisks`, the first of them with other partitions. One is registered, and the
second one too once `registered` says so. -/
def usedDisk (registered : List DeviceRef) : Registry where
  devices :=
    { disk := twoDisks.devices.disk
      partition := fun b =>
        { sectorSize := 512
          readOnly := false
          live := true
          parent := 0
          firstLba := if b = 0 then 40 else 4096
          lastLba := if b = 0 then 4095 else 66597
          first_le_last := usedDisk_order b
          last_le := (usedDisk_last b).le } }
  id := twoDisks.id
  info := fun b => if b = 0 then ⟨1, oldGuid⟩ else ⟨2, newGuid⟩
  registered := registered
  id_disk := twoDisks.id_disk
  blockCount_le := twoDisks.blockCount_le
  lastLba_lt := usedDisk_last

def before : Registry := usedDisk [.disk 0, .partition 0]

def after : Registry := usedDisk [.disk 0, .partition 0, .partition 1]

def usedTable : GptTable where
  partitionCount := 1
  entryCount := 2
  entrySize := partitionEntryBytes
  firstUsable := 3
  lastUsable := 66597
  primaryEntriesLba := 2
  backupEntriesLba := 66598
  arraySectors := 1
  diskGuid := List.replicate guidBytes 7

def usedEntries : Buf := newEntry Buf.zero 1 40 4095 oldGuid

def usedSector (x : Nat) : Buf :=
  if x = 0 then sectorOf (protectiveMbr (before.target (.disk 0))) 0
  else if x = 1 then sectorOf (Gpt.updatedHeader usedTable false usedEntries) 0
  else if x = 66599 then sectorOf (Gpt.updatedHeader usedTable true usedEntries) 0
  else if x = 2 ∨ x = 66598 then sectorOf usedEntries 0
  else sectorOf Buf.zero 0

def usedState : State := ⟨Block.boot fun _ x => (usedSector x).bytes sectorBytes, []⟩

def restPlan : Gpt.Plan := ⟨4096, 66597, 62502 * 512, 2⟩

lemma contents_usedState : contents before.devices (.disk 0) usedState = usedSector := by
  funext x
  have hsector : ∃ b, usedSector x = sectorOf b 0 := by
    unfold usedSector
    split_ifs <;> exact ⟨_, rfl⟩
  obtain ⟨b, hb⟩ := hsector
  simp only [contents, usedState, Block.boot, place]
  rw [hb]
  exact ofList_bytes_sectorOf b 0

lemma usedTable_sound : usedTable.Sound (before.target (.disk 0)).sectorCount := by
  refine ⟨rfl, ⟨7, by decide, by decide⟩, ?_, ?_, ?_, ?_, ?_, ?_, ?_, ?_, ?_, ?_⟩ <;>
    decide +kernel

lemma gptLoad_usedState :
    Gpt.gptLoad (before.target (.disk 0)) (contents before.devices (.disk 0) usedState) =
      .ok (usedTable, Gpt.sectorsFrom usedSector 2) := by
  have hp : Gpt.NewCopy usedTable usedEntries false primaryHeaderLba 2 ⟨usedSector, []⟩ := by
    refine ⟨fun k hk => ?_, rfl, by simp⟩
    obtain rfl : k = 0 := by simpa [usedTable] using hk
    exact ⟨rfl, by simp⟩
  have hb : Gpt.NewCopy usedTable usedEntries true 66599 66598 ⟨usedSector, []⟩ := by
    refine ⟨fun k hk => ?_, rfl, by simp⟩
    obtain rfl : k = 0 := by simpa [usedTable] using hk
    exact ⟨rfl, by simp⟩
  have hmbr : Gpt.mbrIsProtective (Gpt.sectorsFrom usedSector 0) = true := by decide +kernel
  rw [contents_usedState]
  exact (@Gpt.gptLoad_of_new (before.target (.disk 0)) usedSector usedTable usedEntries 1
    (by decide) hmbr usedTable_sound hp hb (by decide +kernel)).1

lemma newGuid_fresh : Fresh usedTable (Gpt.sectorsFrom usedSector 2) newGuid := by
  refine ⟨rfl, ⟨9, by decide, by decide⟩, fun i hi hu => ?_⟩
  rcases (by simp only [usedTable] at hi; omega : i = 0 ∨ i = 1) with rfl | rfl
  · decide +kernel
  · have hunused : gptEntryUsed (Gpt.sectorsFrom usedSector 2) 1 = false := by decide +kernel
    rw [hunused] at hu
    cases hu

lemma plan_usedState :
    (runs before 0 newGuid (gptPlanPartition before (.disk 0) .rest) usedState).2 =
      .ok restPlan := by
  have hplan : planRequest (before.target (.disk 0)) usedTable (Gpt.sectorsFrom usedSector 2)
      .rest = some restPlan := by decide +kernel
  unfold gptPlanPartition
  rw [if_neg nofun, runs_guard runs_begin, runs_bind, runs_gptLoad gptLoad_usedState]
  simp only [hplan]
  rfl

/-- The rest of a disk with a partition on it becomes a second partition, and is deleted again
while the first one stays. -/
theorem rest_of_disk_created :
    ∃ created deleted left used,
      runs before 0 newGuid (gptCreatePartition before [] (.disk 0) 2 4096 66597) usedState =
        (created, .ok) ∧
      runs after 0 newGuid (gptDeletePartition after [] (.disk 0) (.partition 1) 2) created =
        (deleted, .ok) ∧
      Gpt.gptLoad (after.target (.disk 0)) (contents after.devices (.disk 0) deleted) =
        .ok ({ usedTable with partitionCount := used }, left) ∧
      SameUsed usedTable (Gpt.sectorsFrom usedSector 2) left := by
  obtain ⟨created, added, used, hrun, -, -, hdelete⟩ := plan_create_delete before [] 0 usedState
    newGuid usedTable _ .rest restPlan ⟨rfl, rfl, by decide⟩ gptLoad_usedState plan_usedState
    newGuid_fresh
  obtain ⟨deleted, left, used', hdeleted, hleft, hsame⟩ := hdelete after [] 1
    ⟨rfl, rfl, by decide⟩ rfl ⟨rfl, rfl, rfl, rfl, rfl, rfl⟩
  exact ⟨created, deleted, left, used', hrun, hdeleted, hleft, hsame⟩

/-- With the partition of the disk mounted, a plan is made and then refused. -/
theorem plan_refused_while_mounted :
    Gpt.gptLoad (before.target (.disk 0)) (contents before.devices (.disk 0) usedState) =
        .ok (usedTable, Gpt.sectorsFrom usedSector 2) ∧
      Gpt.scannedEntry (Gpt.sectorsFrom usedSector 2) 0 =
        ⟨1, (before.devices.partition 0).firstLba, (before.devices.partition 0).lastLba,
          dataTypeGuid, (before.info 0).uniqueGuid⟩ ∧
      Fresh usedTable (Gpt.sectorsFrom usedSector 2) newGuid ∧
      (runs before 0 newGuid (gptPlanPartition before (.disk 0) .rest) usedState).2 =
        .ok restPlan ∧
      (runs before 0 newGuid (gptCreatePartition before [⟨true, before.id (.partition 0)⟩] (.disk 0)
        restPlan.partitionNumber restPlan.firstLba restPlan.lastLba) usedState).2 = .busy :=
  ⟨gptLoad_usedState, by decide +kernel, newGuid_fresh, plan_usedState, by decide +kernel⟩

end

open Gpt (sectorOf sectorBytes getLe32)
open Fat32 (getLe16)

/-- The fields of `fat32_bpb_t` that the driver reads. -/
structure Bpb where
  bytesPerSector : Nat
  sectorsPerCluster : Nat
  reservedSectorCount : Nat
  fatCount : Nat
  totalSectors16 : Nat
  sectorsPerFat16 : Nat
  totalSectors32 : Nat
  sectorsPerFat32 : Nat
  rootCluster : Nat

def readBpb (sector : Buf) : Bpb :=
  ⟨getLe16 sector 11, (sector 13).toNat, getLe16 sector 14, (sector 16).toNat, getLe16 sector 19,
    getLe16 sector 22, getLe32 sector 32, getLe32 sector 36, getLe32 sector 44⟩

def Bpb.totalSectors (bpb : Bpb) : Nat :=
  if bpb.totalSectors32 ≠ 0 then bpb.totalSectors32 else bpb.totalSectors16

def fat32Probe (device : Gpt.Device) (sector : Buf) : Bool :=
  let bpb := readBpb sector
  let fatSectors := bpb.fatCount * bpb.sectorsPerFat32
  let dataStart := bpb.reservedSectorCount + fatSectors
  let clusterCount := (bpb.totalSectors - dataStart) / bpb.sectorsPerCluster
  if device.sectorSize ≠ 512 ∨ device.sectorCount = 0 then false
  else if sector 510 ≠ 0x55 ∨ sector 511 ≠ 0xaa then false
  else if bpb.bytesPerSector ≠ 512 then false
  else if bpb.sectorsPerCluster = 0 ∨ bpb.sectorsPerCluster > 128 ∨
      bpb.sectorsPerCluster &&& (bpb.sectorsPerCluster - 1) ≠ 0 then false
  else if bpb.reservedSectorCount = 0 ∨ bpb.fatCount = 0 ∨ bpb.sectorsPerFat16 ≠ 0 ∨
      bpb.sectorsPerFat32 = 0 then false
  else if bpb.totalSectors = 0 ∨ bpb.totalSectors > device.sectorCount then false
  else if fatSectors = 0 ∨ fatSectors > u64Max - bpb.reservedSectorCount then false
  else if dataStart ≥ bpb.totalSectors then false
  else if clusterCount < 65525 ∨ clusterCount > 0x0ffffff5 ∨
      clusterCount + 2 > bpb.sectorsPerFat32 * (512 / 4) ∨ bpb.rootCluster < 2 ∨
      bpb.rootCluster ≥ clusterCount + 2 then false
  else true

/-- A mounted FAT32 volume, with the number and the size of its FATs. -/
structure Fat32Fs extends Fat32.Volume where
  fatCount : Nat
  fatSizeSectors : Nat

inductive MountError where
  | badFormat
  | noMem
deriving DecidableEq

def fat32Mount (device : Gpt.Device) (sector : Buf) (allocated : Bool) :
    Except MountError Fat32Fs :=
  let bpb := readBpb sector
  let dataStart := (bpb.reservedSectorCount + bpb.fatCount * bpb.sectorsPerFat32) % 2 ^ 32
  if fat32Probe device sector = false then .error .badFormat
  else if allocated = false then .error .noMem
  else .ok {
    sectors := device.sectorCount
    bytesPerSector := bpb.bytesPerSector
    sectorsPerCluster := bpb.sectorsPerCluster
    fatStartLba := bpb.reservedSectorCount
    dataStartLba := dataStart
    rootCluster := bpb.rootCluster
    totalClusters := (bpb.totalSectors - dataStart) / bpb.sectorsPerCluster + 2
    fatCount := bpb.fatCount
    fatSizeSectors := bpb.sectorsPerFat32 }

def Fat32Fs.entry (fs : Fat32Fs) (disk : Nat → Buf) (fat cluster : Nat) : Nat :=
  getLe32 (disk (fs.fatStartLba + fat * fs.fatSizeSectors + 4 * cluster / fs.bytesPerSector))
    (4 * cluster % fs.bytesPerSector) % 2 ^ 28

def Fat32Fs.following (fs : Fat32Fs) (cluster : Nat) : Nat :=
  if cluster + 1 ≥ fs.totalClusters then 2 else cluster + 1

def Fat32Fs.allocFrom (fs : Fat32Fs) (disk : Nat → Buf) (works : Nat → Bool) (start : Nat) :
    Nat → Nat → Option Nat
  | 0, _ => none
  | turns + 1, cluster =>
    if works cluster = true ∧ fs.entry disk 0 cluster = 0 then some cluster
    else if fs.following cluster = start then none
    else fs.allocFrom disk works start turns (fs.following cluster)

def Fat32Fs.allocCluster (fs : Fat32Fs) (disk : Nat → Buf) (works : Nat → Bool)
    (nextFree : Nat) : Option Nat :=
  let start := if nextFree < 2 ∨ nextFree ≥ fs.totalClusters then 2 else nextFree
  fs.allocFrom disk works start fs.totalClusters start

variable {works : Nat → Bool} {disk : Nat → Buf} {fs : Fat32Fs}

lemma allocFrom_range {start c : Nat}
    (htotal : 2 < fs.totalClusters) {turns : Nat} : ∀ cluster, 2 ≤ cluster →
      cluster < fs.totalClusters → fs.allocFrom disk works start turns cluster = some c →
        2 ≤ c ∧ c < fs.totalClusters := by
  induction turns with
  | zero => intro _ _ _ h; cases h
  | succ turns ih =>
    intro cluster hlow hhigh h
    unfold Fat32Fs.allocFrom at h
    split at h
    · cases h
      exact ⟨hlow, hhigh⟩
    · split at h
      · cases h
      · refine ih _ ?_ ?_ h
        all_goals
          unfold Fat32Fs.following
          split <;> omega

lemma allocCluster_range {nextFree c : Nat} (htotal : 2 < fs.totalClusters)
    (h : fs.allocCluster disk works nextFree = some c) : 2 ≤ c ∧ c < fs.totalClusters := by
  refine allocFrom_range htotal _ ?_ ?_ h
  · split <;> omega
  · split <;> omega

def patch (lba n : Nat) (buffer : Buf) (disk : Nat → Buf) : Nat → Buf := fun x =>
  if lba ≤ x ∧ x < lba + n then sectorOf buffer (x - lba) else disk x

def Writes (r : Registry) (d : DeviceRef) (p : Run Bool) (f : (Nat → Buf) → Nat → Buf) : Prop :=
  ∀ s, Script.Safe (act r.devices d) (fun _ => True)
    (fun s' ok => ok = true → contents r.devices d s' = f (contents r.devices d s)) s p

section

variable {r : Registry} {d : DeviceRef} {device : Gpt.Device} {lba n : Nat} {buffer : Buf}

lemma contents_write {s : State} {fault : Fault}
    (h : (write r.devices d s lba n (sectorsOf buffer) fault).2 = true) :
    contents r.devices d (write r.devices d s lba n (sectorsOf buffer) fault).1 =
      patch lba n buffer (contents r.devices d s) := by
  unfold write at h ⊢
  split at h
  · next hw =>
    have hworks : fault.works = true := h
    rw [if_pos hw]
    funext x
    simp only [hworks, if_true, contents, Block.writeOn_media hw, Block.storeSectors, patch]
    by_cases hx : lba ≤ x ∧ x < lba + n
    · obtain ⟨k, rfl⟩ := Nat.exists_eq_add_of_le hx.1
      rw [Block.place_add, if_pos ⟨rfl, by simp only; omega⟩, if_pos hx]
      simp only [Nat.add_sub_cancel_left]
      exact ofList_bytes_sectorOf buffer k
    · rw [if_neg hx, if_neg]
      rintro ⟨-, hlow, hhigh⟩
      apply hx
      cases d with
      | disk a => exact ⟨hlow, hhigh⟩
      | partition a =>
        simp only [place] at hlow hhigh
        omega
  · cases h

lemma Writes.refused {f : (Nat → Buf) → Nat → Buf} : Writes r d (return false) f :=
  fun _ => ⟨trivial, fun h => by cases h⟩

lemma Writes.guard {p q : Run Bool} {f g : (Nat → Buf) → Nat → Buf} (hp : Writes r d p f)
    (hq : Writes r d q g) :
    Writes r d (p >>= fun ok => if !ok then return false else q) fun disk => g (f disk) := by
  intro s
  refine (hp s).bind fun s' ok _ hok => ?_
  cases ok with
  | false => exact ⟨trivial, fun h => by cases h⟩
  | true =>
    refine (hq s').imp (fun _ h => h) fun s'' ok' _ hok' htrue => ?_
    rw [hok' htrue, hok rfl]

lemma writes_formatWrite : Writes r d (formatWrite device lba n buffer) (patch lba n buffer) := by
  intro s
  unfold formatWrite checkedWrite
  split
  · exact Writes.refused s
  · refine ⟨trivial, fun fault => ?_⟩
    cases h : (act r.devices d s .isLive fault).2 with
    | false => exact Writes.refused s
    | true =>
      split
      · exact Writes.refused s
      · exact ⟨trivial, fun fault => ⟨trivial, contents_write⟩⟩

lemma sectorOf_zero (k : Nat) : sectorOf Buf.zero k = Buf.zero := by
  funext i
  simp [sectorOf, Buf.clip, Buf.skip, Buf.zero]

lemma patch_zero_split {m : Nat} (h : m ≤ n) (disk : Nat → Buf) :
    patch (lba + m) (n - m) Buf.zero (patch lba m Buf.zero disk) = patch lba n Buf.zero disk := by
  funext x
  simp only [patch, sectorOf_zero]
  by_cases hx : x < lba + m
  · by_cases hlow : lba ≤ x
    · rw [if_neg (by omega), if_pos ⟨hlow, hx⟩, if_pos (by omega)]
    · rw [if_neg (by omega), if_neg (by omega), if_neg (by omega)]
  · by_cases hhigh : x < lba + n
    · rw [if_pos (by omega), if_pos (by omega)]
    · rw [if_neg (by omega), if_neg (by omega), if_neg (by omega)]

lemma patch_none (disk : Nat → Buf) : patch lba 0 buffer disk = disk := by
  funext x
  exact if_neg (by omega)

lemma writes_writeZeroSectors {fuel : Nat} : ∀ {lba count : Nat},
    Writes r d (writeZeroSectors device fuel lba count) (patch lba count Buf.zero) := by
  induction fuel with
  | zero =>
    intro lba count s
    refine ⟨trivial, fun h => ?_⟩
    rw [of_decide_eq_true h, patch_none]
  | succ fuel ih =>
    intro lba count s
    unfold writeZeroSectors
    split
    · next h0 => exact ⟨trivial, fun _ => by rw [h0, patch_none]⟩
    · have hbatch : (if count > 8 then 8 else count) ≤ count := by split <;> omega
      generalize (if count > 8 then 8 else count) = batch at hbatch ⊢
      have hrest : Writes r d (if lba > u64Max - batch then return false
          else writeZeroSectors device fuel (lba + batch) (count - batch))
          (patch (lba + batch) (count - batch) Buf.zero) := by
        split
        · exact Writes.refused
        · exact ih
      have hround := (@writes_formatWrite r d device lba batch Buf.zero).guard hrest s
      simp only [patch_zero_split hbatch] at hround
      exact hround

def fat32Image (device : Gpt.Device) (id spc fatSize clusters : Nat) (disk : Nat → Buf) : Nat → Buf :=
  let boot := bootSector device.sectorCount spc fatSize id
  let disk := patch 6 1 boot (patch 0 1 boot disk)
  let disk := patch 7 1 (fsinfoSector clusters) (patch 1 1 (fsinfoSector clusters) disk)
  let disk := patch reservedSectors (fatCount * fatSize) Buf.zero disk
  let disk := patch reservedSectors 1 firstFatSector disk
  let disk := patch (reservedSectors + fatSize) 1 firstFatSector disk
  patch (reservedSectors + fatCount * fatSize) spc Buf.zero disk

lemma writes_writeFat32 {id spc fatSize clusters : Nat} :
    Writes r d (writeFat32 device id spc fatSize clusters)
      (fat32Image device id spc fatSize clusters) :=
  writes_formatWrite.guard <| writes_formatWrite.guard <| writes_formatWrite.guard <|
    writes_formatWrite.guard <| writes_writeZeroSectors.guard <| writes_formatWrite.guard <|
      writes_formatWrite.guard writes_writeZeroSectors

end

/-- A geometry that `fat32_fat_size` has settled on. -/
structure FatGeometry (total spc fatSize clusters : Nat) : Prop where
  spc_mem : spc ∈ [1, 2, 4, 8, 16, 32, 64]
  overhead_lt : reservedSectors + fatCount * fatSize < total
  clusters_eq : clusters = (total - (reservedSectors + fatCount * fatSize)) / spc
  covers : (clusters + 2) * 4 ≤ fatSize * 512
  clusters_ge : minClusters ≤ clusters
  clusters_le : clusters ≤ maxClusters
  total_lt : total < 2 ^ 32

lemma fatSizeFrom_some {total spc fatSize clusters rounds : Nat} : ∀ {size : Nat},
    fatSizeFrom total spc rounds size = some (fatSize, clusters) →
      reservedSectors + fatCount * fatSize < total ∧
      clusters = (total - (reservedSectors + fatCount * fatSize)) / spc ∧
      (clusters + 2) * 4 ≤ fatSize * 512 ∧ minClusters ≤ clusters ∧ clusters ≤ maxClusters := by
  induction rounds with
  | zero => intro size h; cases h
  | succ rounds ih =>
    intro size h
    simp only [fatSizeFrom] at h
    split at h
    · cases h
    · next hoverhead =>
      split at h
      · next hnext =>
        split at h
        · cases h
        · next hclusters =>
          cases h
          simp only [sectorBytes] at hnext
          omega
      · exact ih h

lemma fatGeometry_some {total spc fatSize clusters : Nat} (htotal : total < 2 ^ 32)
    (h : fatGeometry total = some (spc, fatSize, clusters)) :
    FatGeometry total spc fatSize clusters := by
  obtain ⟨size, hmem, hsize⟩ := List.exists_of_findSome?_eq_some h
  obtain ⟨found, hfound, heq⟩ := Option.map_eq_some_iff.mp hsize
  cases heq
  obtain ⟨h1, h2, h3, h4, h5⟩ := fatSizeFrom_some hfound
  exact ⟨hmem, h1, h2, h3, h4, h5, htotal⟩

lemma formatFat32_true {r : Registry} {d : DeviceRef} {id : Nat} {s : State}
    {faults : Nat → Fault} {k : Nat}
    (h : ((formatFat32 (r.target d) id).run (act r.devices d) faults k s).2 = true) :
    (r.target d).sectorSize = 512 ∧ ∃ spc fatSize clusters,
      FatGeometry (r.target d).sectorCount spc fatSize clusters ∧
      contents r.devices d ((formatFat32 (r.target d) id).run (act r.devices d) faults k s).1 =
        fat32Image (r.target d) id spc fatSize clusters (contents r.devices d s) := by
  unfold formatFat32 at h ⊢
  split at h
  · cases h
  · next hdevice =>
    rw [if_neg hdevice]
    split at h
    · cases h
    · next spc fatSize clusters hgeometry =>
      simp only at h ⊢
      split at h
      · cases h
      · next hfits =>
        rw [if_neg hfits]
        refine ⟨by simp only [sectorBytes] at hdevice; omega, spc, fatSize, clusters,
          fatGeometry_some (by omega) hgeometry, ?_⟩
        exact (writes_writeFat32 s).run h

section

variable {device : Gpt.Device} {id spc fatSize clusters : Nat} {disk : Nat → Buf}

lemma sectorOf_first {b : Buf} {i : Nat} (hi : i < 512) : sectorOf b 0 i = b i := by
  simp [sectorOf, Buf.clip, Buf.skip, sectorBytes, hi]

lemma fat32Image_boot : fat32Image device id spc fatSize clusters disk 0 =
    sectorOf (bootSector device.sectorCount spc fatSize id) 0 := by
  simp [fat32Image, patch, reservedSectors]

lemma fat32Image_fat {fat k : Nat} (hfat : fat < 2) (hk : k < fatSize) :
    fat32Image device id spc fatSize clusters disk (reservedSectors + fat * fatSize + k) =
      if k = 0 then sectorOf firstFatSector 0 else Buf.zero := by
  have hfat : fat = 0 ∨ fat = 1 := by omega
  simp only [fat32Image, patch, reservedSectors, fatCount, sectorOf_zero]
  by_cases hk0 : k = 0
  · rw [if_pos hk0]
    rcases hfat with rfl | rfl
    · rw [if_neg (by omega), if_neg (by omega), if_pos (by omega), hk0, Nat.zero_mul]
    · rw [if_neg (by omega), if_pos (by omega), hk0, Nat.one_mul, Nat.add_zero, Nat.sub_self]
  · rw [if_neg hk0]
    rcases hfat with rfl | rfl
    all_goals rw [if_neg (by omega), if_neg (by omega), if_neg (by omega), if_pos (by omega)]

lemma readBpb_bootSector (htotal : device.sectorCount < 2 ^ 32) (hspc : spc < 256)
    (hfat : fatSize < 2 ^ 32) :
    readBpb (sectorOf (bootSector device.sectorCount spc fatSize id) 0) =
      ⟨512, spc, 32, 2, 0, 0, device.sectorCount, fatSize, 2⟩ := by
  simp [readBpb, getLe16, Gpt.getLe32_eq, sectorOf_first]
  simp [bootSector, Buf.copy, Buf.fill, storeLe16, Gpt.storeLe32, Buf.ofList, sectorBytes,
    reservedSectors, fatCount, Buf.zero]
  omega

lemma signed_bootSector (total : Nat) : sectorOf (bootSector total spc fatSize id) 0 510 = 0x55 ∧
    sectorOf (bootSector total spc fatSize id) 0 511 = 0xaa := by
  simp [sectorOf_first, bootSector, Buf.copy, Buf.ofList]

lemma firstFatSector_entry {c : Nat} (hlow : 2 ≤ c) (hc : c < 128) :
    getLe32 (sectorOf firstFatSector 0) (4 * c) % 2 ^ 28 ≠ 0 ↔ c = 2 := by
  have hsame : getLe32 (sectorOf firstFatSector 0) (4 * c) = getLe32 firstFatSector (4 * c) :=
    Gpt.getLe32_congr fun i hi => sectorOf_first (by omega)
  rw [hsame, firstFatSector]
  by_cases h2 : c = 2
  · rw [h2, Gpt.getLe32_store (by decide)]
    decide
  · rw [Gpt.getLe32_store_of_ne (by omega), Gpt.getLe32_store_of_ne (by omega),
      Gpt.getLe32_store_of_ne (by omega)]
    simp [Gpt.getLe32_eq, Buf.zero, h2]

def formattedFs (device : Gpt.Device) (spc fatSize clusters : Nat) : Fat32Fs where
  sectors := device.sectorCount
  bytesPerSector := 512
  sectorsPerCluster := spc
  fatStartLba := 32
  dataStartLba := 32 + 2 * fatSize
  rootCluster := 2
  totalClusters := clusters + 2
  fatCount := 2
  fatSizeSectors := fatSize

variable (h : FatGeometry device.sectorCount spc fatSize clusters)

include h

lemma FatGeometry.bounds : 32 + 2 * fatSize < device.sectorCount ∧ 65525 ≤ clusters ∧
    clusters ≤ 0x0ffffff5 ∧ device.sectorCount < 2 ^ 32 :=
  ⟨h.overhead_lt, h.clusters_ge, h.clusters_le, h.total_lt⟩

lemma FatGeometry.spc_pow : spc ≠ 0 ∧ spc ≤ 64 ∧ spc &&& (spc - 1) = 0 := by
  have hall : ∀ n ∈ [1, 2, 4, 8, 16, 32, 64], n ≠ 0 ∧ n ≤ 64 ∧ n &&& (n - 1) = 0 := by decide
  exact hall spc h.spc_mem

lemma FatGeometry.data_fits : 32 + 2 * fatSize + clusters * spc ≤ device.sectorCount := by
  have hmul := Nat.div_mul_le_self (device.sectorCount - (32 + 2 * fatSize)) spc
  have hlt := h.bounds
  have hclusters : clusters = (device.sectorCount - (32 + 2 * fatSize)) / spc := h.clusters_eq
  rw [← hclusters] at hmul
  omega

lemma fat32Probe_image (hsize : device.sectorSize = 512) :
    fat32Probe device (fat32Image device id spc fatSize clusters disk 0) = true := by
  obtain ⟨h0, h64, hpow⟩ := h.spc_pow
  obtain ⟨hdata, hmin, hmax, htotal⟩ := h.bounds
  have hcovers := h.covers
  have hclusters : clusters = (device.sectorCount - (32 + 2 * fatSize)) / spc := h.clusters_eq
  obtain ⟨hs, hs'⟩ := @signed_bootSector id spc fatSize device.sectorCount
  have hbpb := @readBpb_bootSector device id spc fatSize htotal (by omega) (by omega)
  have hpos : device.sectorCount ≠ 0 := by omega
  rw [fat32Image_boot]
  simp only [fat32Probe, hbpb, Bpb.totalSectors, if_pos hpos, ← hclusters, hs, hs', hsize, hpow,
    u64Max]
  simp
  omega

lemma fat32Mount_image (hsize : device.sectorSize = 512) (allocated : Bool) :
    fat32Mount device (fat32Image device id spc fatSize clusters disk 0) allocated =
      if allocated then .ok (formattedFs device spc fatSize clusters) else .error .noMem := by
  obtain ⟨-, h64, -⟩ := h.spc_pow
  obtain ⟨hdata, -, -, htotal⟩ := h.bounds
  have hclusters : clusters = (device.sectorCount - (32 + 2 * fatSize)) / spc := h.clusters_eq
  have hstart : (32 + 2 * fatSize) % 2 ^ 32 = 32 + 2 * fatSize := Nat.mod_eq_of_lt (by omega)
  have hprobe := @fat32Probe_image device id spc fatSize clusters disk h hsize
  have hbpb := @readBpb_bootSector device id spc fatSize htotal (by omega) (by omega)
  have hpos : device.sectorCount ≠ 0 := by omega
  unfold fat32Mount
  rw [hprobe, fat32Image_boot]
  simp only [hbpb, Bpb.totalSectors, if_pos hpos, hstart, ← hclusters]
  cases allocated with
  | false | true => rfl

lemma entry_image {fat c : Nat} (hfat : fat < 2) (hlow : 2 ≤ c) (hc : c < clusters + 2) :
    (formattedFs device spc fatSize clusters).entry
      (fat32Image device id spc fatSize clusters disk) fat c ≠ 0 ↔ c = 2 := by
  have hcovers := h.covers
  have hsector := @fat32Image_fat device id spc fatSize clusters disk fat (4 * c / 512) hfat (by omega)
  simp only [reservedSectors] at hsector
  simp only [Fat32Fs.entry, formattedFs, hsector]
  by_cases hk : 4 * c / 512 = 0
  · have hmod : 4 * c % 512 = 4 * c := by omega
    rw [if_pos hk, hmod]
    exact firstFatSector_entry hlow (by omega)
  · have hzero : getLe32 Buf.zero (4 * c % 512) % 2 ^ 28 = 0 := by
      simp [Gpt.getLe32_eq, Buf.zero]
    rw [if_neg hk, hzero]
    omega

end

/-- A volume whose format reports success is accepted by the driver. Its FATs are long
enough and end before the data, the root directory has the only cluster in use, and
every cluster that can be allocated lies on the device. -/
theorem formatted_fat32_accepted (r : Registry) (d : DeviceRef) (id : Nat) (s : State)
    (faults : Nat → Fault)
    (h : ((formatFat32 (r.target d) id).run (act r.devices d) faults 0 s).2 = true) :
    let disk := contents r.devices d
      ((formatFat32 (r.target d) id).run (act r.devices d) faults 0 s).1
    fat32Probe (r.target d) (disk 0) = true ∧ ∃ fs : Fat32Fs,
      (∀ allocated, fat32Mount (r.target d) (disk 0) allocated =
        if allocated then .ok fs else .error .noMem) ∧
      fs.fatCount = 2 ∧ fs.totalClusters * 4 ≤ fs.fatSizeSectors * fs.bytesPerSector ∧
      fs.fatStartLba + fs.fatCount * fs.fatSizeSectors ≤ fs.dataStartLba ∧
      fs.dataStartLba + (fs.totalClusters - 2) * fs.sectorsPerCluster ≤ r.sectorCount d ∧
      (∀ fat < fs.fatCount, ∀ c, 2 ≤ c → c < fs.totalClusters →
        (fs.entry disk fat c ≠ 0 ↔ c = fs.rootCluster)) ∧
      ∀ disk' works nextFree c, fs.allocCluster disk' works nextFree = some c →
        fs.dataStartLba ≤ fs.clusterToLba c ∧
          fs.clusterToLba c + fs.sectorsPerCluster ≤ r.sectorCount d := by
  intro disk
  obtain ⟨hsize, spc, fatSize, clusters, hgeometry, himage⟩ := formatFat32_true h
  have hdisk : disk = fat32Image (r.target d) id spc fatSize clusters (contents r.devices d s) := himage
  have hfits : 32 + 2 * fatSize + clusters * spc ≤ r.sectorCount d := hgeometry.data_fits
  obtain ⟨-, hmin, hmax, -⟩ := hgeometry.bounds
  rw [hdisk]
  refine ⟨fat32Probe_image hgeometry hsize, formattedFs (r.target d) spc fatSize clusters,
    fat32Mount_image hgeometry hsize, rfl, hgeometry.covers, le_rfl, hfits,
    fun fat hfat c hlow hc => entry_image hgeometry hfat hlow hc, ?_⟩
  intro disk' works nextFree c hc
  have htotal : (formattedFs (r.target d) spc fatSize clusters).totalClusters = clusters + 2 := rfl
  obtain ⟨hlow, hhigh⟩ := allocCluster_range (by omega) hc
  have hindex : (c + 2 ^ 32 - 2) % 2 ^ 32 = c - 2 := by omega
  have hmul : (c - 2 + 1) * spc ≤ clusters * spc := Nat.mul_le_mul_right spc (by omega)
  rw [Nat.succ_mul] at hmul
  simp only [Fat32.Volume.clusterToLba, formattedFs, hindex]
  omega

/-- A blank disk of 66600 sectors. -/
theorem blank_disk_accepted :
    let final := (formatFat32 (twoDisks.target (.disk 0)) 7).run (act twoDisks.devices (.disk 0))
      allWork 0 ⟨blankBlock, []⟩
    final.2 = true ∧ fat32Probe (twoDisks.target (.disk 0))
      (contents twoDisks.devices (.disk 0) final.1 0) = true := by
  have h : ((formatFat32 (twoDisks.target (.disk 0)) 7).run (act twoDisks.devices (.disk 0))
      allWork 0 ⟨blankBlock, []⟩).2 = true := by decide +kernel
  exact ⟨h, (formatted_fat32_accepted twoDisks (.disk 0) 7 ⟨blankBlock, []⟩ allWork h).1⟩

end Mangrove.Storage
