import Mangrove.Gpt.Table
import Mangrove.Lib.Steps

/-! Files of a FAT32 volume. Any operation may fail, and a write that fails may have reached
the disk in part. Truncating leaves the clusters of the file as they are; what they held is
not seen again as long as every write begins within the file. -/

namespace Mangrove.Fat32

open Gpt (getLe32 storeLe32)

/-- The geometry of a mounted FAT32 volume, as the driver keeps it. -/
structure Volume where
  sectors : Nat
  bytesPerSector : Nat
  sectorsPerCluster : Nat
  fatStartLba : Nat
  dataStartLba : Nat
  rootCluster : Nat
  totalClusters : Nat
deriving DecidableEq

def Volume.clusterSize (v : Volume) : Nat := v.bytesPerSector * v.sectorsPerCluster

def eocMin : Nat := 0x0FFFFFF8

def clusterErr : Nat := 0x0FFFFFFF

/-- The subtraction has 32 bits. -/
def Volume.clusterToLba (v : Volume) (cluster : Nat) : Nat :=
  v.dataStartLba + (cluster + 2 ^ 32 - 2) % 2 ^ 32 * v.sectorsPerCluster

/-- The requests the write path makes to the device below. -/
inductive Op where
  | alloc
  | read (lba count : Nat)
  | write (lba count : Nat) (data : Buf)

@[reducible] def Ans : Op → Type
  | .alloc => Bool
  | .read _ _ => Option Buf
  | .write _ _ _ => Bool

/-- How the device answers one request. -/
structure Fault where
  fails : Bool
  sectors : Nat

def act (v : Volume) (disk : Buf) : (op : Op) → Fault → Buf × Ans op
  | .alloc, fault => (disk, !fault.fails)
  | .read lba count, fault =>
    (disk, if fault.fails ∨ v.sectors < lba + count then none
      else some ((disk.skip (lba * v.bytesPerSector)).clip (count * v.bytesPerSector)))
  | .write lba count data, fault =>
    if v.sectors < lba + count then (disk, false)
    else if fault.fails then
      (disk.copy (lba * v.bytesPerSector) data (min fault.sectors count * v.bytesPerSector), false)
    else (disk.copy (lba * v.bytesPerSector) data (count * v.bytesPerSector), true)

abbrev Run := Script Op Ans

def alloc : Run Bool := .call .alloc .done

def Volume.readCluster (v : Volume) (cluster : Nat) : Run (Option Buf) :=
  .call (.read (v.clusterToLba cluster) v.sectorsPerCluster) .done

def Volume.writeCluster (v : Volume) (cluster : Nat) (data : Buf) : Run Bool :=
  .call (.write (v.clusterToLba cluster) v.sectorsPerCluster data) .done

def Volume.getNextCluster (v : Volume) (cluster : Nat) : Run Nat :=
  if cluster < 2 then .done clusterErr
  else do
    if ← alloc then
      match ← Script.call (.read (v.fatStartLba + 4 * cluster / v.bytesPerSector) 1) .done with
      | none => .done clusterErr
      | some sector =>
        let next := getLe32 sector (4 * cluster % v.bytesPerSector) % 2 ^ 28
        .done (if eocMin ≤ next then eocMin else next)
    else .done clusterErr

/-- The clusters of a chain. A chain without an end, which the source follows
forever, is counted up to the bound. -/
def Volume.countChain (v : Volume) : Nat → Nat → Nat → Run Nat
  | 0, _, count => .done count
  | n + 1, cluster, count =>
    if eocMin ≤ cluster then .done count
    else do
      let next ← v.getNextCluster cluster
      v.countChain n next (count + 1)

def Volume.advance (v : Volume) : Nat → Nat → Run (Option Nat)
  | 0, cluster => .done (some cluster)
  | n + 1, cluster => do
    let next ← v.getNextCluster cluster
    if eocMin ≤ next then .done none else v.advance n next

/-- The loop of `fat32_read`. Every turn reads a byte at least, so the number of
bytes bounds the number of turns. -/
def Volume.readLoop (v : Volume) : Nat → Nat → Nat → Nat → List UInt8 → Run (List UInt8)
  | 0, _, _, _, out => .done out
  | turns + 1, cluster, offset, remaining, out =>
    if remaining = 0 ∨ eocMin ≤ cluster then .done out
    else do
      match ← v.readCluster cluster with
      | none => .done out
      | some buf =>
        let chunk := min remaining (v.clusterSize - offset)
        let out := out ++ (buf.skip offset).bytes chunk
        if remaining - chunk = 0 then .done out
        else do
          let next ← v.getNextCluster cluster
          v.readLoop turns next 0 (remaining - chunk) out

def Volume.read (v : Volume) (first size offset count : Nat) : Run (List UInt8) :=
  if size ≤ offset then .done []
  else
    let count := min count (size - offset)
    do
      match ← v.advance (offset / v.clusterSize) first with
      | none => .done []
      | some cluster =>
        if ← alloc then v.readLoop count cluster (offset % v.clusterSize) count []
        else .done []

def getLe16 (b : Buf) (o : Nat) : Nat := (b o).toNat + 2 ^ 8 * (b (o + 1)).toNat

def entryCluster (buf : Buf) (i : Nat) : Nat :=
  2 ^ 16 * getLe16 buf (32 * i + 20) + getLe16 buf (32 * i + 26)

def entryAttr (buf : Buf) (i : Nat) : UInt8 := buf (32 * i + 11)

def isDirectory (buf : Buf) (i : Nat) : Bool := entryAttr buf i &&& 0x10 ≠ 0

def isSkipped (buf : Buf) (i : Nat) : Bool :=
  buf (32 * i) = 0xE5 ∨ entryAttr buf i &&& 0x0f = 0x0f ∨ entryAttr buf i &&& 0x08 ≠ 0

def Volume.scanEntries (v : Volume) (directory target size : Nat) (buf : Buf)
    (descend : Nat → Nat → Run (Bool × Nat)) : List Nat → Nat → Run (Bool × Nat)
  | [], budget => .done (false, budget)
  | i :: rest, budget =>
    if buf (32 * i) = 0 then .done (false, budget)
    else if isSkipped buf i then v.scanEntries directory target size buf descend rest budget
    else if isDirectory buf i = false ∧ entryCluster buf i = target then do
      let written ← v.writeCluster directory (storeLe32 buf (32 * i + 28) size)
      .done (written, budget)
    else if isDirectory buf i ∧ buf (32 * i) ≠ 0x2e ∧ 2 ≤ entryCluster buf i ∧
        entryCluster buf i < v.totalClusters then do
      let found ← descend (entryCluster buf i) budget
      if found.1 then .done (true, found.2)
      else v.scanEntries directory target size buf descend rest found.2
    else v.scanEntries directory target size buf descend rest budget

def Volume.updateInDirectory (v : Volume) (target size : Nat) : Nat → Nat → Nat → Run (Bool × Nat)
  | 0, _, budget => .done (false, budget)
  | levels + 1, directory, budget =>
    if budget = 0 ∨ directory < 2 ∨ v.totalClusters ≤ directory then .done (false, budget)
    else do
      if ← alloc then
        match ← v.readCluster directory with
        | none => .done (false, budget - 1)
        | some buf =>
          v.scanEntries directory target size buf (v.updateInDirectory target size levels)
            (List.range (v.clusterSize / 32)) (budget - 1)
      else .done (false, budget - 1)

def Volume.updateDirentSize (v : Volume) (first size : Nat) : Run Bool := do
  let found ← v.updateInDirectory first (size % 2 ^ 32) 33 v.rootCluster 1024
  .done found.1

/-- The loop of `fat32_write` over what is left of the data, with the number of
bytes written. -/
def Volume.writeLoop (v : Volume) : Nat → Nat → Nat → List UInt8 → Nat → Run Nat
  | 0, _, _, _, written => .done written
  | turns + 1, cluster, offset, data, written =>
    if data = [] ∨ eocMin ≤ cluster then .done written
    else do
      match ← v.readCluster cluster with
      | none => .done written
      | some buf =>
        let chunk := min data.length (v.clusterSize - offset)
        if ← v.writeCluster cluster (buf.copy offset (Buf.ofList data) chunk) then
          if data.length - chunk = 0 then .done (written + chunk)
          else do
            let next ← v.getNextCluster cluster
            v.writeLoop turns next 0 (data.drop chunk) (written + chunk)
        else .done written

def Volume.write (v : Volume) (first size offset : Nat) (data : List UInt8) : Run (Nat × Nat) := do
  let clusters ← v.countChain v.totalClusters first 0
  let data := data.take (clusters * v.clusterSize - offset)
  if data = [] then .done (size, 0)
  else
    match ← v.advance (offset / v.clusterSize) first with
    | none => .done (size, 0)
    | some cluster =>
      if ← alloc then
        let written ← v.writeLoop data.length cluster (offset % v.clusterSize) data 0
        if size < offset + written then
          let _ ← v.updateDirentSize first (offset + written)
          .done (offset + written, written)
        else .done (size, written)
      else .done (size, 0)

def Volume.truncate (v : Volume) (first size : Nat) : Run (Nat × Bool) :=
  if size = 0 then .done (0, true)
  else do
    let updated ← v.updateDirentSize first 0
    .done (0, updated)

/-- A file that is in use: the disk, the size of its node, and the data of the
writes since it was last truncated. -/
structure File where
  disk : Buf
  size : Nat
  since : List (Nat × List UInt8)

/-- What a caller asks of an open file. -/
inductive Request where
  | truncate
  | write (offset : Nat) (data : List UInt8)
  | read (offset count : Nat)

/-- A request, and how each access to the device during it ends. -/
structure Call where
  request : Request
  faults : Nat → Fault

def File.next (v : Volume) (first : Nat) (f : File) (c : Call) : File :=
  match c.request with
  | .truncate =>
    let r := (v.truncate first f.size).run (act v) c.faults 0 f.disk
    ⟨r.1, r.2.1, []⟩
  | .write offset data =>
    let r := (v.write first f.size offset data).run (act v) c.faults 0 f.disk
    ⟨r.1, r.2.1, (offset, data) :: f.since⟩
  | .read offset count =>
    let r := (v.read first f.size offset count).run (act v) c.faults 0 f.disk
    ⟨r.1, f.size, f.since⟩

def File.reads (v : Volume) (first : Nat) (f : File) (offset count : Nat) (faults : Nat → Fault) :
    List UInt8 :=
  ((v.read first f.size offset count).run (act v) faults 0 f.disk).2

def File.Supplied (f : File) (position : Nat) (byte : UInt8) : Prop :=
  ∃ w ∈ f.since, w.1 ≤ position ∧ w.2[position - w.1]? = some byte

open Gpt (getLe32 getLe32_congr storeLe32 storeLe32_of_not_mem)
open Script

def Volume.base (v : Volume) (cluster : Nat) : Nat := v.clusterToLba cluster * v.bytesPerSector

def Volume.fatAddress (v : Volume) (cluster : Nat) : Nat :=
  v.fatStartLba * v.bytesPerSector + 4 * cluster

def Volume.fatEntry (v : Volume) (disk : Buf) (cluster : Nat) : Nat :=
  getLe32 disk (v.fatAddress cluster) % 2 ^ 28

def leadsTo (v : Volume) (buf : Buf) (i cluster : Nat) : Prop :=
  (∀ j ≤ i, buf (32 * j) ≠ 0) ∧ isSkipped buf i = false ∧ isDirectory buf i = true ∧
    buf (32 * i) ≠ 0x2e ∧ 2 ≤ cluster ∧ cluster < v.totalClusters ∧ entryCluster buf i = cluster

/-- A file on a sound volume: the chain of its clusters, and the clusters of the
directories, none of which is in the chain. A file without a cluster has no
chain, and its first cluster is not on the device. -/
structure Layout (v : Volume) (first : Nat) (chain : List Nat) (dirs : Set Nat) (ref : Buf) :
    Prop where
  sector_pos : 0 < v.bytesPerSector
  sector_words : 4 ∣ v.bytesPerSector
  cluster_pos : 0 < v.sectorsPerCluster
  total : v.totalClusters ≤ 2 ^ 32
  head : chain.head? = some first ∨ chain = [] ∧ first = 0
  device : v.sectors < v.clusterToLba 0 + v.sectorsPerCluster
  nodup : chain.Nodup
  short : chain.length ≤ v.totalClusters
  low : ∀ c ∈ chain, 2 ≤ c
  high : ∀ c ∈ chain, c < eocMin
  table : ∀ c ∈ chain, v.fatAddress (c + 1) ≤ v.dataStartLba * v.bytesPerSector
  link : ∀ i c d, chain[i]? = some c → chain[i + 1]? = some d → v.fatEntry ref c = d
  last : ∀ c, chain.getLast? = some c → eocMin ≤ v.fatEntry ref c
  root : v.rootCluster ∈ dirs
  apart : ∀ d ∈ dirs, d ∉ chain
  closed : ∀ d ∈ dirs, ∀ i < v.clusterSize / 32, ∀ e, leadsTo v (ref.skip (v.base d)) i e → e ∈ dirs

/-- The FAT entries of the chain, and the directory entries up to their size fields, are as in the
reference. -/
structure Framed (v : Volume) (chain : List Nat) (dirs : Set Nat) (ref disk : Buf) : Prop where
  table : ∀ c ∈ chain, ∀ i < 4, disk (v.fatAddress c + i) = ref (v.fatAddress c + i)
  dirs : ∀ d ∈ dirs, 2 ≤ d → d < v.totalClusters → ∀ q < v.clusterSize, q % 32 < 28 →
    disk (v.base d + q) = ref (v.base d + q)

def Volume.byteAt (v : Volume) (chain : List Nat) (disk : Buf) (position : Nat) : UInt8 :=
  disk (v.base (chain.getD (position / v.clusterSize) 0) + position % v.clusterSize)

/-- The frame holds, and every byte in the clusters of the chain is a good one. -/
structure Keeps (v : Volume) (chain : List Nat) (dirs : Set Nat) (ref : Buf)
    (good : Nat → UInt8 → Prop) (disk : Buf) : Prop where
  framed : Framed v chain dirs ref disk
  bytes : ∀ p < chain.length * v.clusterSize, good p (v.byteAt chain disk p)

section

variable {v : Volume} {first : Nat} {chain : List Nat} {dirs : Set Nat} {ref disk : Buf}
  {good : Nat → UInt8 → Prop}

variable {c : Nat}

variable {q : Nat}

variable {i : Nat}

section

variable (h : Layout v first chain dirs ref)

include h

end

variable {I : Buf → Prop}

variable {Q : Buf → Option Buf → Prop}

variable {count : Nat}

section

variable (h : Layout v first chain dirs ref)

include h

section

variable (hI : ∀ disk, I disk → Framed v chain dirs ref disk)

include hI

variable (n : Nat)

end

end

section

variable (h : Layout v first chain dirs ref)

include h

variable {start offset : Nat} {out : List UInt8}

end

end

open Gpt (storeLe32 storeLe32_of_not_mem)

variable {v : Volume} {first : Nat} {chain : List Nat} {dirs : Set Nat} {ref disk : Buf}
  {good : Nat → UInt8 → Prop}

variable {I : Buf → Prop} {c : Nat} {data : Buf}

variable {d n : Nat}

variable {i : Nat}

def ShowsDirectory (v : Volume) (ref : Buf) (d : Nat) (buf : Buf) : Prop :=
  ∀ q < v.clusterSize, q % 32 < 28 → buf q = ref (v.base d + q)

variable {size : Nat} {buf : Buf}

lemma ShowsDirectory.store (h : ShowsDirectory v ref d buf) :
    ShowsDirectory v ref d (storeLe32 buf (32 * i + 28) size) := by
  intro q hq hq'
  rw [storeLe32_of_not_mem (by omega)]
  exact h q hq hq'

lemma ShowsDirectory.leadsTo {e : Nat} (h : ShowsDirectory v ref d buf)
    (hi : i < v.clusterSize / 32) (hleads : leadsTo v buf i e) :
    leadsTo v (ref.skip (v.base d)) i e := by
  have hentry : ∀ j ≤ i, ∀ k < 28, ref.skip (v.base d) (32 * j + k) = buf (32 * j + k) := by
    intro j hj k hk
    rw [Buf.skip_apply]
    exact (h (32 * j + k) (by omega) (by omega)).symm
  have hname : ∀ j ≤ i, ref.skip (v.base d) (32 * j) = buf (32 * j) :=
    fun j hj => hentry j hj 0 (by omega)
  have hattr : entryAttr (ref.skip (v.base d)) i = entryAttr buf i :=
    hentry i le_rfl 11 (by omega)
  have hcluster : entryCluster (ref.skip (v.base d)) i = entryCluster buf i := by
    simp only [entryCluster, getLe16, Nat.add_assoc]
    simp only [hentry i le_rfl 20 (by omega), hentry i le_rfl (20 + 1) (by omega),
      hentry i le_rfl 26 (by omega), hentry i le_rfl (26 + 1) (by omega)]
  obtain ⟨hends, hskipped, hdirectory, hdot, hrest⟩ := hleads
  refine ⟨fun j hj => by rw [hname j hj]; exact hends j hj, ?_, ?_, ?_, ?_⟩
  · rwa [isSkipped, hname i le_rfl, hattr]
  · rwa [isDirectory, hattr]
  · rwa [hname i le_rfl]
  · rwa [hcluster]

section

variable {descend : Nat → Nat → Run (Bool × Nat)}

section

variable (h : Layout v first chain dirs ref)

include h

end

end

def Below (good : Nat → UInt8 → Prop) (bound position : Nat) (byte : UInt8) : Prop :=
  position < bound → good position byte

def Feeds (good : Nat → UInt8 → Prop) (position : Nat) (data : List UInt8) : Prop :=
  ∀ k b, data[k]? = some b → good (position + k) b

variable {offset : Nat} {data : List UInt8}

lemma Keeps.mono {good' : Nat → UInt8 → Prop} (hkeeps : Keeps v chain dirs ref good disk)
    (h : ∀ p b, good p b → good' p b) : Keeps v chain dirs ref good' disk :=
  ⟨hkeeps.framed, fun p hp => h p _ (hkeeps.bytes p hp)⟩

lemma Keeps.below {m : Nat} (hkeeps : Keeps v chain dirs ref (Below good m) disk)
    (h : n ≤ m) : Keeps v chain dirs ref (Below good n) disk :=
  hkeeps.mono fun _ _ hbelow hlt => hbelow (lt_of_lt_of_le hlt h)

lemma Feeds.drop {position chunk : Nat} (h : Feeds good position data) :
    Feeds good (position + chunk) (data.drop chunk) := by
  intro k b hb
  rw [List.getElem?_drop] at hb
  rw [Nat.add_assoc]
  exact h _ _ hb

variable {v : Volume} {first : Nat} {chain : List Nat} {dirs : Set Nat} {f : File} {c : Call}

def File.Clean (v : Volume) (first : Nat) (f : File) : Prop :=
  ∀ offset count faults k b, (f.reads v first offset count faults)[k]? = some b →
    f.Supplied (offset + k) b ∨ b = 0

/-- A write begins within the file, or it has nothing to write: no data, or no
cluster at its offset. -/
def InOrder (v : Volume) (chain : List Nat) (f : File) (c : Call) : Prop :=
  match c.request with
  | .write offset data =>
    offset ≤ f.size ∨ data = [] ∨ chain.length * v.clusterSize ≤ offset
  | _ => True

instance InOrder.decidable : Decidable (InOrder v chain f c) :=
  match c with
  | ⟨.write offset data, _⟩ => inferInstanceAs (Decidable (offset ≤ f.size ∨ data = [] ∨
      chain.length * v.clusterSize ≤ offset))
  | ⟨.truncate, _⟩ => .isTrue trivial
  | ⟨.read _ _, _⟩ => .isTrue trivial

def File.Fresh (v : Volume) (chain : List Nat) (dirs : Set Nat) (ref : Buf) (f : File) : Prop :=
  Keeps v chain dirs ref (Below f.Supplied f.size) f.disk

lemma File.Supplied.cons {w : Nat × List UInt8} {position size : Nat} {byte : UInt8} {disk : Buf}
    (h : f.Supplied position byte) : File.Supplied ⟨disk, size, w :: f.since⟩ position byte := by
  obtain ⟨w', hmem, hbyte⟩ := h
  exact ⟨w', List.mem_cons_of_mem _ hmem, hbyte⟩

section

variable (h : Layout v first chain dirs ref)

include h

section

variable (hf : f.Fresh v chain dirs ref)

include hf

variable {faults : Nat → Fault}

end

end

end Mangrove.Fat32
