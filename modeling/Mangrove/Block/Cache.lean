import Mangrove.Bytes

/-! The block layer with the cache in front of it. A cached read returns the present contents
as long as no write finds an entry filed under a device neither written nor its parent. -/

namespace Mangrove.Block

abbrev Sector := List UInt8

def cacheEntryCount : Nat := 64

def cacheEntryBytes : Nat := 4096

/-- What a `block_device_t` says of a device, disk or partition. -/
structure Descriptor where
  sectorSize : Nat
  readOnly : Bool
  live : Bool

/-- A disk descriptor. Two descriptors may drive one medium: a driver keeps the
descriptor it registered, and the registry holds a copy at another address. -/
structure Disk extends Descriptor where
  medium : Nat
  blockCount : Nat

structure Partition extends Descriptor where
  parent : Nat
  firstLba : Nat
  lastLba : Nat
  first_le_last : firstLba ≤ lastLba
  last_le : lastLba ≤ u64Max

/-- The address of a descriptor. Partitions are only scanned on disks, so the parent
of a partition is the address of a disk. -/
inductive DeviceRef where
  | disk (address : Nat)
  | partition (address : Nat)
  deriving DecidableEq, Repr

/-- All descriptors there are, by their addresses. -/
structure Devices where
  disk : Nat → Disk
  partition : Nat → Partition

/-- One entry of the read cache: a run of sectors filed under the device that was asked. -/
structure CacheEntry where
  device : DeviceRef
  lba : Nat
  sectorCount : Nat
  age : Nat
  valid : Bool
  data : List Sector

abbrev Cache := Fin cacheEntryCount → CacheEntry

structure State where
  cache : Cache
  cacheAge : Nat
  media : Nat → Nat → Sector

def cacheRangeOverlaps (entry : CacheEntry) (device : DeviceRef) (lba sectorCount : Nat) : Bool :=
  if !entry.valid || entry.device ≠ device then false
  else if u64Max - entry.sectorCount < entry.lba || u64Max - sectorCount < lba then true
  else entry.lba < lba + sectorCount && lba < entry.lba + entry.sectorCount

def cacheRequestSize (device : Descriptor) (sectorCount : Nat) : Option Nat :=
  if sectorCount = 0 || device.sectorSize = 0 then none
  else if cacheEntryBytes < sectorCount * device.sectorSize then none
  else some (sectorCount * device.sectorSize)

def cacheFind (c : Cache) (device : DeviceRef) (lba sectorCount : Nat) :
    Option (Fin cacheEntryCount) :=
  (List.finRange cacheEntryCount).find? fun i =>
    (c i).valid && (c i).device = device && (c i).lba = lba && (c i).sectorCount = sectorCount

def victimFrom (c : Cache) (victim : Fin cacheEntryCount) :
    List (Fin cacheEntryCount) → Fin cacheEntryCount
  | [] => victim
  | i :: rest =>
    if !(c i).valid then i
    else victimFrom c (if (c i).age < (c victim).age then i else victim) rest

def cacheVictim (c : Cache) : Fin cacheEntryCount :=
  victimFrom c ⟨0, by decide⟩ (List.finRange cacheEntryCount)

namespace State

/-- `entry->age = ++block_cache_age` on a hit. -/
def touch (s : State) (i : Fin cacheEntryCount) : State :=
  { s with
    cache := fun j => if j = i then { s.cache i with age := add64 s.cacheAge 1 } else s.cache j
    cacheAge := add64 s.cacheAge 1 }

def fill (s : State) (device : DeviceRef) (lba sectorCount : Nat) (data : List Sector) : State :=
  let victim := cacheVictim s.cache
  { s with
    cache := fun j =>
      if j = victim then
        { device := device, lba := lba, sectorCount := sectorCount
          age := add64 s.cacheAge 1, valid := true, data := data }
      else s.cache j
    cacheAge := add64 s.cacheAge 1 }

def invalidate (s : State) (device : DeviceRef) (lba sectorCount : Nat) : State :=
  { s with
    cache := fun i =>
      if cacheRangeOverlaps (s.cache i) device lba sectorCount then
        { s.cache i with valid := false }
      else s.cache i }

end State

abbrev ReadCallback := State → Option (List Sector) × State

abbrev WriteCallback := State → Bool × State

def blockRead (address : DeviceRef) (device : Descriptor) (read : ReadCallback)
    (lba sectorCount : Nat) (s : State) : Option (List Sector) × State :=
  if !device.live then (none, s)
  else
    match (cacheRequestSize device sectorCount).bind
        fun _ => cacheFind s.cache address lba sectorCount with
    | some i => (some (s.cache i).data, s.touch i)
    | none =>
      match read s with
      | (none, s) => (none, s)
      | (some data, s) =>
        if (cacheRequestSize device sectorCount).isSome then
          (some data, s.fill address lba sectorCount data)
        else (some data, s)

def blockWrite (address : DeviceRef) (device : Descriptor) (write : WriteCallback)
    (lba sectorCount : Nat) (s : State) : Bool × State :=
  if device.readOnly || !device.live then (false, s)
  else write (s.invalidate address lba sectorCount)

/-- A disk driver transfers any range that lies on its medium. -/
def onMedium (disk : Disk) (lba sectorCount : Nat) : Bool :=
  lba < disk.blockCount && sectorCount ≤ disk.blockCount - lba

def diskRead (disk : Disk) (lba sectorCount : Nat) : ReadCallback := fun s =>
  if onMedium disk lba sectorCount then
    (some ((List.range sectorCount).map fun k => s.media disk.medium (lba + k)), s)
  else (none, s)

def storeSectors (media : Nat → Nat → Sector) (medium lba sectorCount : Nat)
    (buffer : Nat → Sector) : Nat → Nat → Sector := fun m x =>
  if m = medium ∧ lba ≤ x ∧ x < lba + sectorCount then buffer (x - lba) else media m x

def diskWrite (disk : Disk) (lba sectorCount : Nat) (buffer : Nat → Sector) : WriteCallback :=
  fun s =>
    if onMedium disk lba sectorCount then
      (true, { s with media := storeSectors s.media disk.medium lba sectorCount buffer })
    else (false, s)

def inPartition (part : Partition) (lba sectorCount : Nat) : Bool :=
  lba ≤ part.lastLba - part.firstLba + 1 &&
    sectorCount ≤ part.lastLba - part.firstLba + 1 - lba

def partitionRead (devices : Devices) (part : Partition) (lba sectorCount : Nat) :
    ReadCallback := fun s =>
  if inPartition part lba sectorCount then
    let parent := devices.disk part.parent
    let start := add64 part.firstLba lba
    blockRead (.disk part.parent) parent.toDescriptor (diskRead parent start sectorCount)
      start sectorCount s
  else (none, s)

def partitionWrite (devices : Devices) (part : Partition) (lba sectorCount : Nat)
    (buffer : Nat → Sector) : WriteCallback := fun s =>
  if inPartition part lba sectorCount then
    let parent := devices.disk part.parent
    let start := add64 part.firstLba lba
    blockWrite (.disk part.parent) parent.toDescriptor
      (diskWrite parent start sectorCount buffer) start sectorCount s
  else (false, s)

def descriptor (devices : Devices) : DeviceRef → Descriptor
  | .disk a => (devices.disk a).toDescriptor
  | .partition a => (devices.partition a).toDescriptor

def readCallback (devices : Devices) (d : DeviceRef) (lba sectorCount : Nat) : ReadCallback :=
  match d with
  | .disk a => diskRead (devices.disk a) lba sectorCount
  | .partition a => partitionRead devices (devices.partition a) lba sectorCount

def writeCallback (devices : Devices) (d : DeviceRef) (lba sectorCount : Nat)
    (buffer : Nat → Sector) : WriteCallback :=
  match d with
  | .disk a => diskWrite (devices.disk a) lba sectorCount buffer
  | .partition a => partitionWrite devices (devices.partition a) lba sectorCount buffer

/-- A request to the block layer through some device. -/
inductive Call where
  | read (device : DeviceRef) (lba sectorCount : Nat)
  | write (device : DeviceRef) (lba sectorCount : Nat) (buffer : Nat → Sector)

def readOn (devices : Devices) (d : DeviceRef) (lba sectorCount : Nat) (s : State) :
    Option (List Sector) × State :=
  blockRead d (descriptor devices d) (readCallback devices d lba sectorCount) lba sectorCount s

def writeOn (devices : Devices) (d : DeviceRef) (lba sectorCount : Nat) (buffer : Nat → Sector)
    (s : State) : Bool × State :=
  blockWrite d (descriptor devices d) (writeCallback devices d lba sectorCount buffer)
    lba sectorCount s

def Call.run (devices : Devices) (s : State) : Call → State
  | .read d lba n => (readOn devices d lba n s).2
  | .write d lba n buffer => (writeOn devices d lba n buffer s).2

def after (devices : Devices) (s : State) (calls : List Call) : State :=
  calls.foldl (Call.run devices) s

def emptyEntry : CacheEntry :=
  { device := .disk 0, lba := 0, sectorCount := 0, age := 0, valid := false, data := [] }

def boot (media : Nat → Nat → Sector) : State :=
  { cache := fun _ => emptyEntry, cacheAge := 0, media := media }

def place (devices : Devices) : DeviceRef → Nat → Nat × Nat
  | .disk a, lba => ((devices.disk a).medium, lba)
  | .partition a, lba =>
    ((devices.disk (devices.partition a).parent).medium, (devices.partition a).firstLba + lba)

def view (devices : Devices) (media : Nat → Nat → Sector) (d : DeviceRef) (lba n : Nat) :
    List Sector :=
  (List.range n).map fun k => media (place devices d (lba + k)).1 (place devices d (lba + k)).2

/-- Replays one call over the media alone: a successful write stores its sectors. -/
def record (devices : Devices) (c : State × (Nat → Nat → Sector)) (call : Call) :
    State × (Nat → Nat → Sector) :=
  (call.run devices c.1,
    match call with
    | .read _ _ _ => c.2
    | .write d lba n buffer =>
      if (writeOn devices d lba n buffer c.1).1 then
        storeSectors c.2 (place devices d lba).1 (place devices d lba).2 n buffer
      else c.2)

/-- For each physical sector, the bytes of the most recent successful write to it among
`calls`, through whichever device, or its bytes at boot. -/
def mostRecent (devices : Devices) (media : Nat → Nat → Sector) (calls : List Call) :
    Nat → Nat → Sector :=
  (calls.foldl (record devices) (boot media, media)).2

def Shares (devices : Devices) (d : DeviceRef) (lba n : Nat) (d' : DeviceRef)
    (lba' n' : Nat) : Prop :=
  ∃ j < n, ∃ k < n', place devices d (lba + j) = place devices d' (lba' + k)

instance (devices : Devices) (d : DeviceRef) (lba n : Nat) (d' : DeviceRef) (lba' n' : Nat) :
    Decidable (Shares devices d lba n d' lba' n') :=
  inferInstanceAs (Decidable (∃ j < n, ∃ k < n', _))

/-- The addresses whose entries a write to `d` invalidates. -/
def reached (devices : Devices) : DeviceRef → List DeviceRef
  | .disk a => [.disk a]
  | .partition a => [.partition a, .disk (devices.partition a).parent]

def onDisk (disk : Disk) (lba n : Nat) : Bool := !disk.readOnly && disk.live && onMedium disk lba n

/-- The writes that are carried out. -/
def accepts (devices : Devices) (d : DeviceRef) (lba n : Nat) : Bool :=
  match d with
  | .disk a => onDisk (devices.disk a) lba n
  | .partition a =>
    let part := devices.partition a
    !part.readOnly && part.live && inPartition part lba n &&
      onDisk (devices.disk part.parent) (add64 part.firstLba lba) n

/-- A write that is carried out may only meet cached sectors of its own device and of that
device's parent. -/
def Guarded (devices : Devices) (s : State) : Call → Prop
  | .read _ _ _ => True
  | .write d lba n _ => accepts devices d lba n = true → ∀ i, (s.cache i).valid = true →
      Shares devices (s.cache i).device (s.cache i).lba (s.cache i).sectorCount d lba n →
      (s.cache i).device ∈ reached devices d

instance (devices : Devices) (s : State) : (call : Call) → Decidable (Guarded devices s call)
  | .read _ _ _ => .isTrue trivial
  | .write d lba n _ => inferInstanceAs (Decidable (accepts devices d lba n = true →
      ∀ i, (s.cache i).valid = true →
      Shares devices (s.cache i).device (s.cache i).lba (s.cache i).sectorCount d lba n →
      (s.cache i).device ∈ reached devices d))

def AllGuarded (devices : Devices) : State → List Call → Prop
  | _, [] => True
  | s, call :: calls => Guarded devices s call ∧ AllGuarded devices (call.run devices s) calls

def Coherent (devices : Devices) (s : State) : Prop :=
  ∀ i, (s.cache i).valid = true →
    (s.cache i).data =
      view devices s.media (s.cache i).device (s.cache i).lba (s.cache i).sectorCount

variable {devices : Devices} {s : State} {d : DeviceRef} {lba n : Nat} (media : Nat → Nat → Sector)

lemma coherent_boot : Coherent devices (boot media) := by
  intro i hv
  cases hv

variable {i : Fin cacheEntryCount}

lemma cacheFind_some {c : Cache} (h : cacheFind c d lba n = some i) :
    (c i).valid = true ∧ (c i).device = d ∧ (c i).lba = lba ∧ (c i).sectorCount = n := by
  have hi := List.find?_some h
  simpa [and_assoc] using hi

lemma Coherent.touch (h : Coherent devices s) (i : Fin cacheEntryCount) :
    Coherent devices (s.touch i) := by
  intro j hv
  simp only [State.touch] at hv ⊢
  by_cases hj : j = i
  · subst hj
    simp only at hv ⊢
    exact h j hv
  · simp only [if_neg hj] at hv ⊢
    exact h j hv

lemma Coherent.fill (h : Coherent devices s) :
    Coherent devices (s.fill d lba n (view devices s.media d lba n)) := by
  intro j hv
  simp only [State.fill] at hv ⊢
  by_cases hj : j = cacheVictim s.cache
  · simp only [if_pos hj]
  · simp only [if_neg hj] at hv ⊢
    exact h j hv

def ReadsBack (devices : Devices) (s : State) (d : DeviceRef) (lba n : Nat)
    (out : Option (List Sector) × State) : Prop :=
  Coherent devices out.2 ∧ out.2.media = s.media ∧
    ∀ data, out.1 = some data → data = view devices s.media d lba n

lemma ReadsBack.none (h : Coherent devices s) : ReadsBack devices s d lba n (none, s) :=
  ⟨h, rfl, nofun⟩

lemma blockRead_readsBack (device : Descriptor) {read : ReadCallback}
    (h : Coherent devices s) (hread : ReadsBack devices s d lba n (read s)) :
    ReadsBack devices s d lba n (blockRead d device read lba n s) := by
  unfold blockRead
  split
  · exact .none h
  · split
    · rename_i i hi
      obtain ⟨-, -, hfind⟩ := Option.bind_eq_some_iff.mp hi
      obtain ⟨hv, hd, hl, hn⟩ := cacheFind_some hfind
      refine ⟨h.touch i, rfl, ?_⟩
      rintro data hdata
      have := h i hv
      rw [hd, hl, hn] at this
      rw [← Option.some.inj hdata, this]
    · obtain ⟨hc, hm, hdata⟩ := hread
      split
      · rename_i s' hs'
        rw [hs'] at hc hm
        exact ⟨hc, hm, nofun⟩
      · rename_i data s' hs'
        rw [hs'] at hc hm hdata
        have hview := hdata data rfl
        split
        · refine ⟨?_, hm, ?_⟩
          · rw [hview, ← hm]
            exact hc.fill
          · exact hdata
        · exact ⟨hc, hm, hdata⟩

lemma diskRead_readsBack (h : Coherent devices s) (a lba n : Nat) :
    ReadsBack devices s (.disk a) lba n (diskRead (devices.disk a) lba n s) := by
  unfold diskRead
  split
  · refine ⟨h, rfl, ?_⟩
    rintro data hdata
    exact (Option.some.inj hdata).symm
  · exact .none h

lemma inPartition_start {part : Partition} (hin : inPartition part lba n = true) (hn : n ≠ 0) :
    add64 part.firstLba lba = part.firstLba + lba := by
  have hle := part.last_le
  have hfirst := part.first_le_last
  simp only [inPartition, Bool.and_eq_true, decide_eq_true_eq] at hin
  have hmax := u64Max_eq
  exact Nat.mod_eq_of_lt (by omega)

lemma place_parent {a k : Nat} (hin : inPartition (devices.partition a) lba n = true)
    (hk : k < n) : place devices (.disk (devices.partition a).parent)
        (add64 (devices.partition a).firstLba lba + k) =
      place devices (.partition a) (lba + k) := by
  simp only [inPartition_start hin (by omega), place, Nat.add_assoc]

lemma view_partition (a : Nat) (hin : inPartition (devices.partition a) lba n = true) :
    view devices media (.disk (devices.partition a).parent)
        (add64 (devices.partition a).firstLba lba) n =
      view devices media (.partition a) lba n := by
  refine List.map_congr_left fun k hk => ?_
  rw [place_parent hin (List.mem_range.mp hk)]

lemma partitionRead_readsBack (h : Coherent devices s) (a lba n : Nat) :
    ReadsBack devices s (.partition a) lba n
      (partitionRead devices (devices.partition a) lba n s) := by
  unfold partitionRead
  split
  · rename_i hin
    have hparent := blockRead_readsBack (devices.disk (devices.partition a).parent).toDescriptor
      h (diskRead_readsBack h (devices.partition a).parent
        (add64 (devices.partition a).firstLba lba) n)
    unfold ReadsBack at hparent
    rw [view_partition s.media a hin] at hparent
    exact hparent
  · exact .none h

lemma readOn_readsBack (h : Coherent devices s) (d : DeviceRef) (lba n : Nat) :
    ReadsBack devices s d lba n (readOn devices d lba n s) := by
  refine blockRead_readsBack _ h ?_
  cases d with
  | disk a => exact diskRead_readsBack h a lba n
  | partition a => exact partitionRead_readsBack h a lba n

lemma storeSectors_zero (m x : Nat) (buffer : Nat → Sector) :
    storeSectors media m x 0 buffer = media := by
  funext m' x'
  exact if_neg (by omega)

lemma place_add (d : DeviceRef) (lba k : Nat) :
    place devices d (lba + k) = ((place devices d lba).1, (place devices d lba).2 + k) := by
  cases d <;> simp only [place, Nat.add_assoc]

lemma view_storeSectors {d' : DeviceRef} {lba' n' : Nat}
    (buffer : Nat → Sector) (hs : ¬ Shares devices d' lba' n' d lba n) :
    view devices (storeSectors media (place devices d lba).1 (place devices d lba).2 n buffer)
        d' lba' n' =
      view devices media d' lba' n' := by
  refine List.map_congr_left fun j hj => if_neg fun hin => hs ?_
  obtain ⟨hm, hlo, hhi⟩ := hin
  refine ⟨j, List.mem_range.mp hj, (place devices d' (lba' + j)).2 - (place devices d lba).2,
    by omega, ?_⟩
  rw [place_add d lba]
  exact Prod.ext hm (by simp only; omega)

lemma Coherent.store (h : Coherent devices s) (buffer : Nat → Sector)
    (hs : ∀ i, (s.cache i).valid = true →
      ¬ Shares devices (s.cache i).device (s.cache i).lba (s.cache i).sectorCount d lba n) :
    Coherent devices { s with
      media := storeSectors s.media (place devices d lba).1 (place devices d lba).2 n buffer } := by
  intro i hv
  rw [view_storeSectors s.media buffer (hs i hv)]
  exact h i hv

lemma overlaps_of_shares {entry : CacheEntry} (hv : entry.valid = true)
    (hs : Shares devices entry.device entry.lba entry.sectorCount entry.device lba n) :
    cacheRangeOverlaps entry entry.device lba n = true := by
  obtain ⟨j, hj, k, hk, heq⟩ := hs
  have hsame : entry.lba + j = lba + k := by
    have h2 := congrArg Prod.snd heq
    cases hd : entry.device <;> simp only [hd, place] at h2 <;> omega
  have hle : entry.lba < lba + n ∧ lba < entry.lba + entry.sectorCount := by omega
  simp [cacheRangeOverlaps, hv, hle]

lemma invalidate_kept (hv : ((s.invalidate d lba n).cache i).valid = true) :
    (s.invalidate d lba n).cache i = s.cache i ∧
      cacheRangeOverlaps (s.cache i) d lba n = false := by
  by_cases ho : cacheRangeOverlaps (s.cache i) d lba n = true
  · simp [State.invalidate, ho] at hv
  · exact ⟨if_neg ho, by simpa using ho⟩

lemma Coherent.invalidate (h : Coherent devices s) : Coherent devices (s.invalidate d lba n) := by
  intro i hv
  obtain ⟨hkept, -⟩ := invalidate_kept hv
  rw [hkept] at hv ⊢
  exact h i hv

lemma shares_invalidate (hv : ((s.invalidate d lba n).cache i).valid = true)
    (hs : Shares devices ((s.invalidate d lba n).cache i).device
      ((s.invalidate d lba n).cache i).lba ((s.invalidate d lba n).cache i).sectorCount d lba n) :
    (s.invalidate d lba n).cache i = s.cache i ∧ (s.cache i).device ≠ d := by
  obtain ⟨hkept, hout⟩ := invalidate_kept hv
  rw [hkept] at hv hs
  refine ⟨hkept, ?_⟩
  rintro rfl
  rw [overlaps_of_shares hv hs] at hout
  cases hout

def Stores (devices : Devices) (s : State) (d : DeviceRef) (lba n : Nat)
    (buffer : Nat → Sector) (out : Bool × State) : Prop :=
  Coherent devices out.2 ∧
    out.2.media =
      if out.1 then storeSectors s.media (place devices d lba).1 (place devices d lba).2 n buffer
      else s.media

variable {buffer : Nat → Sector}

variable {a : Nat}

section

variable (h : Coherent devices s)

include h

lemma Stores.refused : Stores devices s d lba n buffer (false, s) :=
  ⟨h, rfl⟩

lemma diskWrite_stores
    (hs : ∀ i, (s.cache i).valid = true → ¬ Shares devices (s.cache i).device (s.cache i).lba
      (s.cache i).sectorCount (.disk a) lba n) :
    Stores devices s (.disk a) lba n buffer (diskWrite (devices.disk a) lba n buffer s) := by
  unfold diskWrite
  split
  · exact ⟨h.store buffer hs, rfl⟩
  · exact .refused h

lemma diskBlockWrite_stores (hs : ∀ i, (s.cache i).valid = true →
      Shares devices (s.cache i).device (s.cache i).lba (s.cache i).sectorCount (.disk a) lba n →
      (s.cache i).device = .disk a) : Stores devices s (.disk a) lba n buffer
      (blockWrite (.disk a) (devices.disk a).toDescriptor
        (diskWrite (devices.disk a) lba n buffer) lba n s) := by
  unfold blockWrite
  split
  · exact .refused h
  · refine diskWrite_stores (s := s.invalidate (.disk a) lba n) h.invalidate fun i hv hshare => ?_
    obtain ⟨hkept, hother⟩ := shares_invalidate hv hshare
    rw [hkept] at hv hshare
    exact hother (hs i hv hshare)

end

lemma storeSectors_partition (hin : inPartition (devices.partition a) lba n = true) :
    storeSectors media (place devices (.disk (devices.partition a).parent)
        (add64 (devices.partition a).firstLba lba)).1
        (place devices (.disk (devices.partition a).parent)
        (add64 (devices.partition a).firstLba lba)).2 n buffer =
      storeSectors media (place devices (.partition a) lba).1 (place devices (.partition a) lba).2
        n buffer := by
  rcases Nat.eq_zero_or_pos n with rfl | hn
  · rw [storeSectors_zero, storeSectors_zero]
  · have hplace := place_parent hin hn
    rw [Nat.add_zero, Nat.add_zero] at hplace
    rw [hplace]

lemma writeOn_media (h : (writeOn devices d lba n buffer s).1 = true) :
    (writeOn devices d lba n buffer s).2.media =
      storeSectors s.media (place devices d lba).1 (place devices d lba).2 n buffer := by
  unfold writeOn blockWrite at h ⊢
  split at h
  · cases h
  · next hready =>
    rw [if_neg hready]
    cases d with
    | disk a =>
      simp only [writeCallback, diskWrite] at h ⊢
      split at h
      · next hm =>
        rw [if_pos hm]
        rfl
      · cases h
    | partition a =>
      simp only [writeCallback, partitionWrite, blockWrite, diskWrite] at h ⊢
      split at h
      · next hin =>
        rw [if_pos hin, ← storeSectors_partition s.media hin]
        split at h
        · cases h
        · next hparent =>
          rw [if_neg hparent]
          split at h
          · next hm =>
            rw [if_pos hm]
            rfl
          · cases h
      · cases h

section

variable (h : Coherent devices s)

include h

lemma partitionWrite_stores (hs : ∀ i, (s.cache i).valid = true →
      Shares devices (s.cache i).device (s.cache i).lba (s.cache i).sectorCount (.partition a)
        lba n → (s.cache i).device = .disk (devices.partition a).parent) :
    Stores devices s (.partition a) lba n buffer
      (partitionWrite devices (devices.partition a) lba n buffer s) := by
  unfold partitionWrite
  split
  · rename_i hin
    have hparent : Stores devices s (.disk (devices.partition a).parent)
        (add64 (devices.partition a).firstLba lba) n buffer _ :=
      diskBlockWrite_stores h fun i hv ⟨j, hj, k, hk, heq⟩ =>
        hs i hv ⟨j, hj, k, hk, heq.trans (place_parent hin hk)⟩
    unfold Stores at hparent ⊢
    rw [storeSectors_partition s.media hin] at hparent
    exact hparent
  · exact .refused h

/-- A write that is not carried out has at most invalidated entries of the cache. -/
lemma writeOn_refused (hno : ¬ accepts devices d lba n = true) :
    Stores devices s d lba n buffer (writeOn devices d lba n buffer s) := by
  unfold writeOn blockWrite
  split
  · exact .refused h
  next hready =>
  cases d with
  | disk a =>
    simp only [descriptor, Bool.or_eq_true, not_or, Bool.not_eq_true, Bool.not_eq_false'] at hready
    simp only [writeCallback, diskWrite]
    rw [if_neg fun hm => hno (by simp [accepts, onDisk, hm, hready])]
    exact ⟨h.invalidate, rfl⟩
  | partition a =>
    simp only [descriptor, Bool.or_eq_true, not_or, Bool.not_eq_true, Bool.not_eq_false'] at hready
    simp only [writeCallback, partitionWrite, blockWrite, diskWrite]
    split
    · next hin =>
      split
      · exact ⟨h.invalidate, rfl⟩
      next hparent =>
      simp only [Bool.or_eq_true, not_or, Bool.not_eq_true, Bool.not_eq_false'] at hparent
      rw [if_neg fun hm => hno (by simp [accepts, onDisk, hin, hm, hready, hparent])]
      exact ⟨h.invalidate.invalidate, rfl⟩
    · exact ⟨h.invalidate, rfl⟩

lemma writeOn_stores (hs : Guarded devices s (.write d lba n buffer)) :
    Stores devices s d lba n buffer (writeOn devices d lba n buffer s) := by
  by_cases haccepts : accepts devices d lba n = true
  swap
  · exact writeOn_refused h haccepts
  have hs := hs haccepts
  cases d with
  | disk a =>
    exact diskBlockWrite_stores h fun i hv hshare => by
      simpa only [reached, List.mem_singleton] using hs i hv hshare
  | partition a =>
    unfold writeOn blockWrite
    split
    · exact .refused h
    · refine partitionWrite_stores (s := s.invalidate (.partition a) lba n) h.invalidate
        fun i hv hshare => ?_
      obtain ⟨hkept, hother⟩ := shares_invalidate hv hshare
      rw [hkept] at hv hshare ⊢
      have hmem := hs i hv hshare
      simp only [reached, List.mem_cons, List.not_mem_nil, or_false] at hmem
      exact hmem.resolve_left hother

lemma record_step {call : Call} (hg : Guarded devices s call) :
    Coherent devices (record devices (s, s.media) call).1 ∧
      record devices (s, s.media) call = (call.run devices s, (call.run devices s).media) := by
  cases call with
  | read d lba n =>
    obtain ⟨hc, hm, -⟩ := readOn_readsBack h d lba n
    exact ⟨hc, Prod.ext rfl hm.symm⟩
  | write d lba n buffer =>
    obtain ⟨hc, hm⟩ := writeOn_stores h hg
    exact ⟨hc, Prod.ext rfl hm.symm⟩

lemma record_run {calls : List Call} (hg : AllGuarded devices s calls) :
    Coherent devices (after devices s calls) ∧
      (calls.foldl (record devices) (s, s.media)).2 = (after devices s calls).media := by
  induction calls generalizing s with
  | nil => exact ⟨h, rfl⟩
  | cons call calls ih =>
    obtain ⟨hc, hrec⟩ := record_step h hg.1
    rw [List.foldl_cons, hrec]
    rw [hrec] at hc
    exact ih hc hg.2

end

/-- In a run whose writes are all guarded, a read that succeeds returns the most recent
bytes of every physical sector it covers. -/
theorem blockRead_mostRecent (devices : Devices) (media : Nat → Nat → Sector)
    (calls : List Call) (hg : AllGuarded devices (boot media) calls) (d : DeviceRef)
    (lba n : Nat) (data : List Sector)
    (hread : (readOn devices d lba n (after devices (boot media) calls)).1 = some data) :
    data = view devices (mostRecent devices media calls) d lba n := by
  obtain ⟨hc, hm⟩ := record_run (coherent_boot media) hg
  obtain ⟨-, -, hdata⟩ := readOn_readsBack hc d lba n
  rw [hdata data hread, ← hm]
  rfl

def oneDisk : Devices where
  disk _ := { sectorSize := 512, readOnly := false, live := true, medium := 0, blockCount := 128 }
  partition _ :=
    { sectorSize := 512, readOnly := false, live := true, parent := 0, firstLba := 34
      lastLba := 99, first_le_last := by decide, last_le := by decide }

/-- Written through the partition, read through the disk. -/
theorem blockRead_mostRecent_through_disk :
    (readOn oneDisk (.disk 0) 34 1 (after oneDisk (boot fun _ _ => [0])
      [.read (.disk 0) 34 1, .write (.partition 0) 0 1 fun _ => [1]])).1 = some [[1]] ∧
    [[1]] = view oneDisk (mostRecent oneDisk (fun _ _ => [0])
      [.read (.disk 0) 34 1, .write (.partition 0) 0 1 fun _ => [1]]) (.disk 0) 34 1 := by
  have hread : (readOn oneDisk (.disk 0) 34 1 (after oneDisk (boot fun _ _ => [0])
      [.read (.disk 0) 34 1, .write (.partition 0) 0 1 fun _ => [1]])).1 = some [[1]] := by
    decide +kernel
  exact ⟨hread, blockRead_mostRecent oneDisk (fun _ _ => [0])
    [.read (.disk 0) 34 1, .write (.partition 0) 0 1 fun _ => [1]]
    ⟨trivial, by decide +kernel, trivial⟩ (.disk 0) 34 1 [[1]] hread⟩

/-- A write through the disk leaves the partition's cached copy in place, and the partition
goes on returning it. -/
theorem blockRead_stale_partition :
    (readOn oneDisk (.partition 0) 0 1 (after oneDisk (boot fun _ _ => [0])
      [.read (.partition 0) 0 1, .write (.disk 0) 34 1 fun _ => [1]])).1 = some [[0]] ∧
    (writeOn oneDisk (.disk 0) 34 1 (fun _ => [1]) (after oneDisk (boot fun _ _ => [0])
      [.read (.partition 0) 0 1])).1 = true ∧ view oneDisk (mostRecent oneDisk (fun _ _ => [0])
      [.read (.partition 0) 0 1, .write (.disk 0) 34 1 fun _ => [1]]) (.partition 0) 0 1 =
      [[1]] := by
  decide +kernel

end Mangrove.Block
