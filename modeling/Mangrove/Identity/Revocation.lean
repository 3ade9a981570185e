import Mangrove.Identity.Edits
import Mangrove.Lib.Steps

/-! The account registry over whole runs: it stays valid and never issues a user id twice. An
account that is removed or has lost its role never has a privilege again. -/

namespace Mangrove.Identity

open Text Pass Script

/-- The kernel's registry and disk; `persisted` is the registry last persisted with
success and `issued` the user ids of all accounts there have been. -/
structure State where
  memory : Memory
  disk : Disk
  persisted : Registry
  issued : List UInt32

/-- A request, who makes it and what goes wrong during it. -/
structure Call where
  request : Request
  env : Env
  faults : Nat → Option Fault

namespace State

def perform (s : State) (c : Call) : Disk × Outcome :=
  (c.request.program c.env s.memory).run Disk.act c.faults 0 s.disk

def outcome (s : State) (c : Call) : Outcome := (s.perform c).2

def lastPersisted (persisted : Registry) (persists : List (Registry × Result)) : Registry :=
  persists.foldl (fun last p => if p.2 = .ok then p.1 else last) persisted

def step (s : State) (c : Call) : Option State :=
  let o := s.outcome c
  some ⟨o.memory, (s.perform c).1, lastPersisted s.persisted o.persists,
    s.issued ++ o.memory.registry.uids.filter fun uid => uid ∉ s.memory.registry.uids⟩

def restoreFails : List (Registry × Result) → Bool
  | [(_, .ok), (_, result)] => result ≠ .ok
  | _ => false

def Restores (s : State) (c : Call) : Prop := restoreFails (s.outcome c).persists = false

/-- The state after a boot from this registry. -/
structure Loaded (registry : Registry) (s : State) : Prop where
  loaded : s.memory.loaded = true
  active : s.memory.registry = registry
  persisted : s.persisted = registry
  issued : s.issued = registry.uids

/-- The invariant of a run, from which `Consistent` follows. -/
structure Inv (s : State) : Prop where
  loaded : s.memory.loaded = true
  valid : registryValid s.memory.registry = true
  admin : 1 ≤ s.memory.registry.adminCount
  persisted : s.memory.registry = s.persisted
  unique : s.issued.Nodup
  bound : ∀ uid ∈ s.issued, uid < s.memory.registry.nextUid

lemma ended (s : State) (c : Call) :
    Ended s.disk s.memory c.request (s.perform c).1 (s.outcome c) :=
  (program_safe c.env c.request s.disk s.memory).run

variable {s s' : State} {c : Call}

lemma step_unchanged (h : Inv s) (hmemory : (s.outcome c).memory = s.memory)
    (hpersisted : lastPersisted s.persisted (s.outcome c).persists = s.persisted)
    (hstep : s.step c = some s') : Inv s' ∧ s'.memory.registry = s.memory.registry ∧
      s'.persisted = s.persisted := by
  obtain rfl := Option.some.inj hstep
  have hnone : (s.memory.registry.uids.filter fun uid => uid ∉ s.memory.registry.uids) = [] := by
    simp
  refine ⟨⟨?_, ?_, ?_, ?_, ?_, ?_⟩, by rw [hmemory], hpersisted⟩
  · simpa only [hmemory] using h.loaded
  · simpa only [hmemory] using h.valid
  · simpa only [hmemory] using h.admin
  · simpa only [hmemory, hpersisted] using h.persisted
  · simpa only [hmemory, hnone, List.append_nil] using h.unique
  · simpa only [hmemory, hnone, List.append_nil] using h.bound

lemma lastPersisted_failed {persisted : Registry} {persists : List (Registry × Result)}
    (h : ∀ p ∈ persists, p.2 ≠ .ok) : lastPersisted persisted persists = persisted := by
  induction persists with
  | nil => rfl
  | cons p rest ih =>
    rw [lastPersisted, List.foldl_cons, if_neg (h p List.mem_cons_self)]
    exact ih fun q hq => h q (List.mem_cons_of_mem p hq)

variable {registry : Registry}

lemma step_replaced (h : Inv s)
    (hedit : Edit s.memory.registry c.request registry) (hvalid : registryValid registry = true)
    (hmemory : (s.outcome c).memory = s.memory.publish registry)
    (hpersists : (s.outcome c).persists = [(registry, .ok)]) (hstep : s.step c = some s') :
    Inv s' := by
  obtain rfl := Option.some.inj hstep
  have hregistry : (s.memory.publish registry).registry = registry := publish_registry ..
  have hnew : ∀ uid ∈ registry.uids.filter (fun uid => uid ∉ s.memory.registry.uids),
      uid = s.memory.registry.nextUid := by
    intro uid huid
    obtain ⟨hmem, hnot⟩ := List.mem_filter.mp huid
    exact (hedit.mem_uids hmem).resolve_left (by simpa using hnot)
  refine ⟨?_, ?_, ?_, ?_, ?_, ?_⟩
  · simp only [hmemory]
    rfl
  · simpa only [hmemory, hregistry] using hvalid
  · simpa only [hmemory, hregistry] using hedit.keeps_admin h.admin
  · simp only [hmemory, hregistry, hpersists]
    rfl
  · simp only [hmemory, hregistry]
    refine List.nodup_append.mpr ⟨h.unique, (uids_nodup hvalid).filter _, fun a ha b hb heq => ?_⟩
    rw [heq, hnew b hb] at ha
    exact absurd (h.bound _ ha) (by simp)
  · simp only [hmemory, hregistry]
    intro uid huid
    rcases List.mem_append.mp huid with hold | hnew
    · exact UInt32.lt_of_lt_of_le (h.bound uid hold) hedit.next_le
    · exact uid_lt_next hvalid (List.mem_filter.mp hnew).1

lemma Inv.step (h : Inv s) (hrestores : Restores s c)
    (hstep : s.step c = some s') : Inv s' ∧ ((s.outcome c).result ≠ .ok →
      s'.memory.registry = s.memory.registry ∧ s'.persisted = s.persisted) := by
  cases ended s c with
  | unchanged hmemory _ hpersists _ =>
    obtain ⟨hinv, hsame⟩ := step_unchanged h hmemory (lastPersisted_failed hpersists) hstep
    exact ⟨hinv, fun _ => hsame⟩
  | replaced _ hedit htext hmemory _ hpersists hok =>
    exact ⟨step_replaced h hedit (serializeDatabase_some htext).1 hmemory hpersists hstep,
      fun hr => absurd hok hr⟩
  | @restored registry result _ _ _ hmemory hpersists _ _ =>
    have hresult : result = .ok := by
      simpa [Restores, hpersists, restoreFails] using hrestores
    have hlast : lastPersisted s.persisted (s.outcome c).persists = s.persisted := by
      rw [hpersists, hresult]
      exact h.persisted
    obtain ⟨hinv, hsame⟩ := step_unchanged h hmemory hlast hstep
    exact ⟨hinv, fun _ => hsame⟩

def exampleEnv : Env where
  credentials := some ⟨1001, .admin, 0⟩
  busy := false
  authorize := fun _ => .allowed
  entropy := true
  salt := fun attempt => some (.replicate 16 (UInt8.ofNat attempt))
  derive := fun _ _ _ => .replicate 32 0
  homeRoot := .ok .directory
  home := none
  mkdir := .ok ()
  purgeDirectory := .ok
  rmdir := .ok ()

end State

def Loading (disk d : Disk) : Prop :=
  d.users = disk.users ∨ d.users = none ∨ ∃ contents registry text,
    disk.users = some (.file contents) ∧ parseDatabase contents = some (registry, true) ∧
      serializeDatabase registry dbMaxBytes = some text ∧ d.users = some (.file text)

/-- How reading the database again leaves the files and the registry. -/
structure Reloaded (disk : Disk) (memory : Memory) (d : Disk) (result : Except String Memory) :
    Prop where
  failed : ∀ message, result = .error message → d.users = disk.users ∨ d.users = none
  published : ∀ memory', result = .ok memory' → ∃ contents registry migrate,
    disk.users = some (.file contents) ∧ parseDatabase contents = some (registry, migrate) ∧
      memory' = memory.publish registry ∧ (d.users = disk.users ∨
        ∃ text, serializeDatabase registry dbMaxBytes = some text ∧ d.users = some (.file text))

variable {disk : Disk} {fault : Option Fault}

lemma lookupUsers_ok {size : Nat} (h : (disk.act .lookupUsers fault).2 = .ok (.file, size)) :
    ∃ contents, disk.users = some (.file contents) ∧ contents.length = size := by
  cases fault with
  | some fault => cases h
  | none =>
    cases hentry : disk.inDirectory .users with
    | none => simp [Disk.act, hentry] at h
    | some entry =>
      cases entry with
      | directory => simp [Disk.act, hentry, Entry.kind] at h
      | file contents =>
        simp only [Disk.act, hentry, Entry.kind, Entry.size, Except.ok.injEq, Prod.mk.injEq] at h
        exact ⟨contents, hentry, h.2⟩

lemma read_complete {contents : List UInt8} (hentry : disk.entries .users = some (.file contents))
    (h : (disk.act (.read .users) fault).2.length = contents.length) :
    (disk.act (.read .users) fault).2 = contents := by
  cases fault with
  | none => simp [Disk.act, hentry]
  | some fault =>
    simp only [Disk.act, hentry, List.length_take] at h ⊢
    exact List.take_of_length_le (by omega)

lemma readDatabase_safe : Safe Disk.act (fun d => d = disk)
    (fun _ r => ∀ contents, r = .ok contents → disk.users = some (.file contents)) disk
    readDatabase := by
  refine ⟨rfl, fun fault => ?_⟩
  have hsame : (disk.act .lookupUsers fault).1 = disk := by cases fault <;> rfl
  rw [hsame]
  cases hlookup : (disk.act .lookupUsers fault).2 with
  | error e => cases e <;> exact ⟨rfl, nofun⟩
  | ok node =>
    obtain ⟨kind, size⟩ := node
    cases kind with
    | directory => exact ⟨rfl, nofun⟩
    | file =>
      obtain ⟨contents, husers, rfl⟩ := lookupUsers_ok hlookup
      dsimp only
      split_ifs with hsize
      · exact ⟨rfl, nofun⟩
      · refine kmalloc_safe rfl fun allocated => ?_
        cases allocated with
        | false => exact ⟨rfl, nofun⟩
        | true =>
          refine ⟨rfl, fun fault => ?_⟩
          have hopen : (disk.act (.openFile .users) fault).1 = disk := by cases fault <;> rfl
          rw [hopen]
          cases (disk.act (.openFile .users) fault).2 with
          | error e => exact ⟨rfl, nofun⟩
          | ok u =>
            refine ⟨rfl, fun fault => ⟨rfl, fun found hfound => ?_⟩⟩
            split_ifs at hfound with hlength
            cases hfound
            rw [read_complete (entries_of_users husers).2 hlength]
            exact husers

lemma registryReload_safe {busy : Bool} {disk : Disk} {memory : Memory} :
    Safe Disk.act (Loading disk) (Reloaded disk memory) disk (registryReload busy memory) := by
  have hfailed {d : Disk} {message : String} (h : d.users = disk.users ∨ d.users = none) :
      Reloaded disk memory d (.error message) := ⟨fun _ _ => h, nofun⟩
  unfold registryReload
  split_ifs with hbusy
  · exact ⟨.inl rfl, hfailed (.inl rfl)⟩
  · refine (readDatabase_safe.imp (fun d hd => .inl (hd ▸ rfl)) fun d r hd hr =>
      (show d = disk ∧ ∀ contents, r = .ok contents → disk.users = some (.file contents) from
        ⟨hd, hr⟩)).bind fun d r _ ⟨hd, hr⟩ => ?_
    subst hd
    cases r with
    | error e => cases e <;> exact ⟨.inl rfl, hfailed (.inl rfl)⟩
    | ok contents =>
      have husers := hr contents rfl
      dsimp only
      rcases hparse : parseDatabase contents with _ | ⟨registry, _ | _⟩
      · exact ⟨.inl rfl, hfailed (.inl rfl)⟩
      · refine ⟨.inl rfl, nofun, fun memory' hmemory => ?_⟩
        exact ⟨contents, registry, false, husers, hparse, (Except.ok.inj hmemory).symm, .inl rfl⟩
      · refine ((persist_safe d registry).imp (J := Loading d) ?_ fun _ _ _ hr => hr).bind
          fun d' result hloading hpersisted => ?_
        · rintro d' (hsame | hnone | ⟨text, htext, hfile⟩)
          · exact .inl hsame
          · exact .inr (.inl hnone)
          · exact .inr (.inr ⟨contents, registry, text, husers, hparse, htext, hfile⟩)
        · by_cases hr : result = .ok
          · subst hr
            refine ⟨hloading, nofun, fun memory' hmemory => ?_⟩
            exact ⟨contents, registry, true, husers, hparse, (Except.ok.inj hmemory).symm,
              .inr (hpersisted.installed rfl)⟩
          · have hstop := hpersisted.failed hr
            cases result <;> first | exact absurd rfl hr | exact ⟨hloading, hfailed hstop⟩

/-- The accounts in memory and on the disk. -/
structure Machine where
  memory : Memory
  disk : Disk

/-- An operation, a load of the database, or either of them cut off after some disk
operations, when the kernel's memory is lost. -/
inductive Event where
  | operate (c : Call)
  | stop (c : Call) (n : Nat)
  | reload (busy : Bool) (faults : Nat → Option Fault)
  | stopReload (busy : Bool) (faults : Nat → Option Fault) (n : Nat)

namespace Machine

def off (disk : Disk) : Machine := ⟨.initial, disk⟩

def perform (s : Machine) (c : Call) : Disk × Outcome :=
  (c.request.program c.env s.memory).run Disk.act c.faults 0 s.disk

def cutOff (s : Machine) (c : Call) (n : Nat) : Disk :=
  (c.request.program c.env s.memory).after Disk.act c.faults n 0 s.disk

def reloaded (s : Machine) (busy : Bool) (faults : Nat → Option Fault) :
    Disk × Except String Memory :=
  (registryReload busy s.memory).run Disk.act faults 0 s.disk

def step (s : Machine) : Event → Option Machine
  | .operate c => some ⟨(s.perform c).2.memory, (s.perform c).1⟩
  | .stop c n => some (off (s.cutOff c n))
  | .reload busy faults =>
    some ⟨match (s.reloaded busy faults).2 with
      | .ok memory => memory
      | .error _ => s.memory, (s.reloaded busy faults).1⟩
  | .stopReload busy faults n =>
    some (off ((registryReload busy s.memory).after Disk.act faults n 0 s.disk))

def OnDisk (P : Registry → Prop) (disk : Disk) : Prop :=
  ∀ contents registry migrate, disk.users = some (.file contents) →
    parseDatabase contents = some (registry, migrate) → P registry

variable {P : Registry → Prop}

lemma OnDisk.same {disk d : Disk} (h : OnDisk P disk) (hd : d.users = disk.users ∨ d.users = none) :
    OnDisk P d := by
  intro contents registry migrate husers hparse
  rcases hd with hsame | hnone
  · exact h contents registry migrate (hsame ▸ husers) hparse
  · rw [hnone] at husers
    cases husers

variable {registry : Registry}

lemma onDisk_serialized {d : Disk} {text : List UInt8}
    (htext : serializeDatabase registry dbMaxBytes = some text) (hd : d.users = some (.file text))
    (h : P registry) : OnDisk P d := by
  intro contents found migrate husers hparse
  obtain ⟨hvalid, rfl, hlen⟩ := serializeDatabase_some htext
  obtain rfl : databaseText registry = contents := by
    rw [hd] at husers
    cases husers
    rfl
  rw [parseDatabase_databaseText hvalid hlen] at hparse
  cases hparse
  exact h

/-- `P` of the registry in memory and of every one on disk. -/
structure Bars (P : Registry → Prop) (s : Machine) : Prop where
  memory : s.memory.loaded = true → P s.memory.registry
  disk : OnDisk P s.disk

lemma bars_off {disk : Disk} (h : OnDisk P disk) : Bars P (off disk) := ⟨nofun, h⟩

variable {s s' : Machine} {busy : Bool} {faults : Nat → Option Fault}

lemma Bars.reload (h : Bars P s)
    (hstep : s.step (.reload busy faults) = some s') : Bars P s' := by
  obtain rfl := Option.some.inj hstep
  have hreloaded : Reloaded s.disk s.memory (s.reloaded busy faults).1
      (s.reloaded busy faults).2 := registryReload_safe.run
  cases hresult : (s.reloaded busy faults).2 with
  | error message =>
    rw [hresult] at hreloaded
    exact ⟨h.memory, h.disk.same (hreloaded.failed message rfl)⟩
  | ok memory =>
    rw [hresult] at hreloaded
    obtain ⟨contents, registry, migrate, husers, hparse, rfl, hd⟩ := hreloaded.published memory rfl
    have hregistry := h.disk contents registry migrate husers hparse
    refine ⟨fun _ => (publish_registry s.memory registry).symm ▸ hregistry, ?_⟩
    rcases hd with hsame | ⟨text, htext, hd⟩
    · exact h.disk.same (.inl hsame)
    · exact onDisk_serialized htext hd hregistry

lemma Bars.stopReload {n : Nat}
    (h : Bars P s) (hstep : s.step (.stopReload busy faults n) = some s') : Bars P s' := by
  obtain rfl := Option.some.inj hstep
  refine bars_off ?_
  have hloading := (@registryReload_safe busy s.disk s.memory).after faults n 0
  rcases hloading with hsame | hnone | ⟨contents, registry, text, husers, hparse, htext, hd⟩
  · exact h.disk.same (.inl hsame)
  · exact h.disk.same (.inr hnone)
  · exact onDisk_serialized htext hd (h.disk contents registry true husers hparse)

lemma ended (s : Machine) (c : Call) :
    Ended s.disk s.memory c.request (s.perform c).1 (s.perform c).2 :=
  (program_safe c.env c.request s.disk s.memory).run

variable {c : Call}

lemma Bars.operate (h : Bars P s)
    (hedit : ∀ registry, P s.memory.registry → Edit s.memory.registry c.request registry →
      (s.perform c).2.result = .ok ∨ (∃ username purge, c.request = .remove username purge) →
      P registry) (hstep : s.step (.operate c) = some s') : Bars P s' := by
  obtain rfl := Option.some.inj hstep
  cases ended s c with
  | unchanged hmemory husers _ _ => exact ⟨hmemory ▸ h.memory, h.disk.same husers⟩
  | @replaced registry text hloaded hnew htext hmemory husers _ hok =>
    have hregistry := hedit registry (h.memory hloaded) hnew (.inl hok)
    refine ⟨fun _ => ?_, onDisk_serialized htext husers hregistry⟩
    simpa only [hmemory, publish_registry] using hregistry
  | @restored registry result hloaded hrequest hnew hmemory _ husers _ =>
    have hactive := h.memory hloaded
    have hregistry := hedit registry hactive hnew (.inr (hrequest.imp fun _ h => ⟨true, h⟩))
    refine ⟨hmemory ▸ h.memory, ?_⟩
    rcases husers with hnone | ⟨kept, text, hkept, htext, husers⟩
    · exact h.disk.same (.inr hnone)
    · rcases hkept with rfl | rfl
      · exact onDisk_serialized htext husers hregistry
      · exact onDisk_serialized htext husers hactive

lemma Bars.stop {n : Nat} (h : Bars P s)
    (hedit : ∀ registry, P s.memory.registry → Edit s.memory.registry c.request registry →
      ((s.cutOff c n).users ≠ s.disk.users ∧ (s.cutOff c n).users ≠ none) → P registry)
    (hstep : s.step (.stop c n) = some s') : Bars P s' := by
  obtain rfl := Option.some.inj hstep
  refine bars_off ?_
  by_cases hchanged : (s.cutOff c n).users ≠ s.disk.users ∧ (s.cutOff c n).users ≠ none
  · rcases (program_safe c.env c.request s.disk s.memory).after c.faults n 0 with
      hsame | hnone | ⟨hloaded, registry, text, hnew, htext, husers⟩
    · exact absurd hsame hchanged.1
    · exact absurd hnone hchanged.2
    · rcases hnew with hnew | rfl
      · exact onDisk_serialized htext husers (hedit registry (h.memory hloaded) hnew hchanged)
      · exact onDisk_serialized htext husers (h.memory hloaded)
  · exact h.disk.same (by tauto)

variable {uid : UInt32}

variable {edited : Registry} {request : Request}

def Within (registry active : Registry) : Prop :=
  registry.nextUid = active.nextUid ∧ registry.roles ⊆ active.roles

/-- A loaded registry is valid, and what is on the disk lies within it. -/
structure Fits (s : Machine) : Prop where
  valid : s.memory.loaded = true → registryValid s.memory.registry = true
  within : s.memory.loaded = true → OnDisk (Within · s.memory.registry) s.disk

lemma fits_off (disk : Disk) : Fits (off disk) := ⟨nofun, nofun⟩

lemma within_refl (registry : Registry) : Within registry registry := ⟨rfl, List.Subset.refl _⟩

variable {purge : Bool} {removed : Registry}

lemma within_removed {username : List UInt8}
    (h : Edit registry (.remove username purge) removed) : Within removed registry := by
  cases h with
  | remove hindex hname hlast hremoved =>
    obtain ⟨hnext, hroles⟩ := roles_removed hremoved
    exact ⟨hnext, hroles ▸ List.eraseIdx_subset⟩

lemma Fits.operate (h : Fits s) (hstep : s.step (.operate c) = some s') : Fits s' := by
  obtain rfl := Option.some.inj hstep
  cases ended s c with
  | unchanged hmemory husers _ _ =>
    exact ⟨hmemory ▸ h.valid, fun hloaded => by
      simpa only [hmemory] using (h.within (hmemory ▸ hloaded)).same husers⟩
  | @replaced registry text _ _ htext hmemory husers _ _ =>
    have hregistry : (s.perform c).2.memory.registry = registry := by
      rw [hmemory, publish_registry]
    refine ⟨fun _ => hregistry ▸ (serializeDatabase_some htext).1, fun _ => ?_⟩
    simp only [hregistry]
    exact onDisk_serialized htext husers (within_refl registry)
  | @restored registry result hloaded hrequest hnew hmemory _ husers _ =>
    obtain ⟨username, hrequest⟩ := hrequest
    rw [hrequest] at hnew
    refine ⟨hmemory ▸ h.valid, fun _ => ?_⟩
    simp only [hmemory]
    rcases husers with hnone | ⟨kept, text, hkept, htext, husers⟩
    · exact (h.within hloaded).same (.inr hnone)
    · rcases hkept with rfl | rfl
      · exact onDisk_serialized htext husers (within_removed hnew)
      · exact onDisk_serialized htext husers (within_refl _)

lemma Fits.reload (h : Fits s) (hstep : s.step (.reload busy faults) = some s') : Fits s' := by
  obtain rfl := Option.some.inj hstep
  have hreloaded : Reloaded s.disk s.memory (s.reloaded busy faults).1
      (s.reloaded busy faults).2 := registryReload_safe.run
  cases hresult : (s.reloaded busy faults).2 with
  | error message =>
    rw [hresult] at hreloaded
    exact ⟨h.valid, fun hloaded => (h.within hloaded).same (hreloaded.failed message rfl)⟩
  | ok memory =>
    rw [hresult] at hreloaded
    obtain ⟨contents, registry, migrate, husers, hparse, rfl, hd⟩ := hreloaded.published memory rfl
    have hregistry := publish_registry s.memory registry
    refine ⟨fun _ => hregistry.symm ▸ parseDatabase_valid hparse, fun _ => ?_⟩
    simp only [hregistry]
    rcases hd with hsame | ⟨text, htext, hd⟩
    · intro found other migrate' hfound hother
      rw [hsame, husers] at hfound
      cases hfound
      rw [hparse] at hother
      cases hother
      exact within_refl registry
    · exact onDisk_serialized htext hd (within_refl registry)

variable {e : Event}

lemma Fits.step (h : Fits s) (hstep : s.step e = some s') : Fits s' := by
  cases e with
  | operate c => exact h.operate hstep
  | stop | stopReload => exact Option.some.inj hstep ▸ fits_off _
  | reload busy faults => exact h.reload hstep

variable {account : Account}

end Machine

end Mangrove.Identity
