import Mangrove.Identity.Operations

/-! What an account operation can do to the registry in memory and on disk, and which one
the next boot loads after a stop in the middle. -/

namespace Mangrove.Identity

open Text Pass Script

/-- The registries that a granted request may lead to. -/
inductive Edit (registry : Registry) : Request → Registry → Prop
  | create {username password : List UInt8} {authentication : Authentication}
      (hnext : registry.nextUid ≠ 0xffffffff) :
      Edit registry (.create username password) (createdRegistry registry username authentication)
  | remove {username : List UInt8} {purge : Bool} {index : Nat} {account : Account}
      {removed : Registry} (hindex : registry.accounts[index]? = some account)
      (hname : account.user.username = username)
      (hadmin : ¬ (isAdmin account = true ∧ registry.adminCount ≤ 1))
      (hremoved : removedRegistry registry index = some removed) :
      Edit registry (.remove username purge) removed
  | setRole {username : List UInt8} {role : Role} {index : Nat} {account : Account}
      (hindex : registry.accounts[index]? = some account)
      (hname : account.user.username = username) (hrole : role = .regular ∨ role = .admin)
      (hadmin : ¬ (role = .regular ∧ account.user.role = .admin ∧ registry.adminCount ≤ 1)) :
      Edit registry (.setRole username role) (withRole registry index role)
  | setPassword {username password : List UInt8} {index : Nat} {authentication : Authentication} :
      Edit registry (.setPassword username password)
        (withAuthentication registry index authentication)

def NothingToDo (memory : Memory) (request : Request) : Prop :=
  ∃ username role, ∃ account ∈ memory.registry.accounts, memory.loaded = true ∧
    request = .setRole username role ∧ account.user.username = username ∧ account.user.role = role

variable {registry : Registry} {index : Nat}

lemma find_some {username : List UInt8} (h : registry.find username = some index) : ∃ account,
      registry.accounts[index]? = some account ∧ account.user.username = username := by
  obtain ⟨hlt, hname, -⟩ := List.findIdx?_eq_some_iff_getElem.mp h
  exact ⟨_, List.getElem?_eq_getElem hlt, by simpa using hname⟩

lemma copyActive_some {memory : Memory}
    (h : memory.copyActive = some registry) : memory.loaded = true ∧ memory.registry = registry := by
  unfold Memory.copyActive at h
  split_ifs at h with hloaded
  exact ⟨hloaded, Option.some.inj h⟩

def Sound {α : Type} (P : α → Prop) : Except Result α → Prop
  | .error result => result ≠ .ok
  | .ok a => P a

lemma Sound.bind {α β : Type} {P : α → Prop} {Q : β → Prop} {x : Except Result α}
    {f : α → Except Result β} (hx : Sound P x) (hf : ∀ a, P a → Sound Q (f a)) :
    Sound Q (x >>= f) := by
  cases x with
  | error result => exact hx
  | ok a => exact hf a hx

section

variable {env : Env} {memory : Memory} {username password : List UInt8}

lemma authorizeCurrent_sound (parts : List (List UInt8)) :
    Sound (fun _ => True) (authorizeCurrent env parts) := by
  unfold authorizeCurrent
  split
  · nofun
  · split
    · trivial
    · nofun

lemma makePasswordFrom_sound (registry : Registry) (target left attempt : Nat) :
    Sound (fun _ => True) (makePasswordFrom env registry target password left attempt) := by
  induction left generalizing attempt with
  | zero => nofun
  | succ left ih =>
    unfold makePasswordFrom
    split
    · nofun
    · split_ifs with hunique
      · trivial
      · exact ih (attempt + 1)

lemma makePassword_sound (registry : Registry) (target : Nat) :
    Sound (fun _ => True) (makePassword env registry target password) := by
  unfold makePassword
  split_ifs
  · nofun
  · nofun
  · exact makePasswordFrom_sound registry target 8 0

lemma makeHome_sound : Sound (fun _ => True) (makeHome env) := by
  unfold makeHome
  split
  · exact result_ne_ok _
  · nofun
  · split_ifs
    · nofun
    · split
      · exact result_ne_ok _
      · trivial

lemma planCreate_sound : Sound (fun registry => memory.loaded = true ∧
    Edit memory.registry (.create username password) registry)
    (planCreate env memory username password) := by
  unfold planCreate
  cases hcopy : memory.copyActive with
  | none => nofun
  | some active =>
    obtain ⟨hloaded, rfl⟩ := copyActive_some hcopy
    dsimp only
    split_ifs with hroom hexists
    · nofun
    · nofun
    · refine (authorizeCurrent_sound _).bind fun _ _ => ?_
      refine (makePassword_sound _ _).bind fun authentication _ => ?_
      split_ifs with hvalid
      · nofun
      · exact makeHome_sound.bind fun _ _ => ⟨hloaded, .create fun heq => hroom (.inr heq)⟩

lemma planRemove_sound {purge : Bool} : Sound (fun plan => memory.loaded = true ∧
    plan.2.1 = memory.registry ∧ Edit memory.registry (.remove username purge) plan.2.2)
    (planRemove env memory username purge) := by
  unfold planRemove
  cases hcopy : memory.copyActive with
  | none => nofun
  | some active =>
    obtain ⟨hloaded, rfl⟩ := copyActive_some hcopy
    dsimp only
    cases hfind : memory.registry.find username with
    | none => nofun
    | some index =>
      obtain ⟨account, hindex, hname⟩ := find_some hfind
      cases hcredentials : env.credentials with
      | none =>
        simp only [hindex]
        nofun
      | some credentials =>
        simp only [hindex]
        split_ifs with hself hsafe
        · nofun
        · nofun
        all_goals
          refine (authorizeCurrent_sound _).bind fun _ _ => ?_
          cases hremoved : removedRegistry memory.registry index with
          | none => nofun
          | some removed =>
            exact ⟨hloaded, rfl, .remove hindex hname (fun h => hself (.inr h)) hremoved⟩

lemma planSetRole_sound {role : Role} (hrole : role = .regular ∨ role = .admin) :
    Sound (fun plan => match plan with
      | none => NothingToDo memory (.setRole username role)
      | some registry => memory.loaded = true ∧
        Edit memory.registry (.setRole username role) registry)
      (planSetRole env memory username role) := by
  unfold planSetRole
  cases hcopy : memory.copyActive with
  | none => nofun
  | some active =>
    obtain ⟨hloaded, rfl⟩ := copyActive_some hcopy
    dsimp only
    cases hfind : memory.registry.find username with
    | none => nofun
    | some index =>
      obtain ⟨account, hindex, hname⟩ := find_some hfind
      simp only [hindex]
      split_ifs with hsame hadmin hvalid
      · exact ⟨username, role, account, List.mem_of_getElem? hindex, hloaded, rfl, hname, hsame⟩
      · nofun
      · exact (authorizeCurrent_sound _).bind fun _ _ => nofun
      · exact (authorizeCurrent_sound _).bind fun _ _ =>
          ⟨hloaded, .setRole hindex hname hrole hadmin⟩

lemma planSetPassword_sound {credentials : Credentials} :
    Sound (fun registry => memory.loaded = true ∧
      Edit memory.registry (.setPassword username password) registry)
      (planSetPassword env memory credentials username password) := by
  unfold planSetPassword
  cases hcopy : memory.copyActive with
  | none => nofun
  | some active =>
    obtain ⟨hloaded, rfl⟩ := copyActive_some hcopy
    dsimp only
    cases hfind : memory.registry.find username with
    | none => nofun
    | some index =>
      obtain ⟨account, hindex, -⟩ := find_some hfind
      simp only [hindex]
      split_ifs with hallowed hself
      · nofun
      · exact (authorizeCurrent_sound _).bind fun _ _ =>
          (makePassword_sound _ _).bind fun _ _ => ⟨hloaded, .setPassword⟩
      · exact (makePassword_sound _ _).bind fun _ _ => ⟨hloaded, .setPassword⟩

end

variable {disk : Disk} {memory : Memory} {request : Request}

def Underway (disk : Disk) (memory : Memory) (request : Request) (d : Disk) : Prop :=
  d.users = disk.users ∨ d.users = none ∨ memory.loaded = true ∧ ∃ registry text,
    (Edit memory.registry request registry ∨ registry = memory.registry) ∧
      serializeDatabase registry dbMaxBytes = some text ∧ d.users = some (.file text)

/-- How an operation ends: with nothing changed, with the new registry in memory and
on disk, or after a removal whose purge failed. -/
inductive Ended (disk : Disk) (memory : Memory) (request : Request) (d : Disk) (o : Outcome) : Prop
  | unchanged (hmemory : o.memory = memory) (husers : d.users = disk.users ∨ d.users = none)
      (hpersists : ∀ p ∈ o.persists, p.2 ≠ .ok) (hok : o.result = .ok → NothingToDo memory request)
  | replaced {registry : Registry} {text : List UInt8} (hloaded : memory.loaded = true)
      (hedit : Edit memory.registry request registry)
      (htext : serializeDatabase registry dbMaxBytes = some text)
      (hmemory : o.memory = memory.publish registry) (husers : d.users = some (.file text))
      (hpersists : o.persists = [(registry, .ok)]) (hok : o.result = .ok)
  | restored {registry : Registry} {result : Result} (hloaded : memory.loaded = true)
      (hrequest : ∃ username, request = .remove username true)
      (hedit : Edit memory.registry request registry) (hmemory : o.memory = memory)
      (hpersists : o.persists = [(registry, .ok), (memory.registry, result)])
      (husers : d.users = none ∨ ∃ kept text, (kept = registry ∨ kept = memory.registry) ∧
        serializeDatabase kept dbMaxBytes = some text ∧ d.users = some (.file text))
      (hok : o.result ≠ .ok)

variable {d : Disk}

lemma refuse_safe {result : Result} (h : d.users = disk.users)
    (hok : result = .ok → NothingToDo memory request) :
    Safe Disk.act (Underway disk memory request) (Ended disk memory request) d
      (refuse memory result) :=
  ⟨.inl h, .unchanged rfl (.inl h) (by simp) hok⟩

lemma Underway.of_between {d' : Disk} (hloaded : memory.loaded = true)
    (hedit : Edit memory.registry request registry) (hd : d.users = disk.users)
    (h : Between d registry d') : Underway disk memory request d' := by
  rcases h with husers | husers | ⟨text, htext, husers⟩
  · exact .inl (husers.trans hd)
  · exact .inr (.inl husers)
  · exact .inr (.inr ⟨hloaded, registry, text, .inl hedit, htext, husers⟩)

lemma replaceRegistry_safe (hd : d.users = disk.users)
    (hloaded : memory.loaded = true) (hedit : Edit memory.registry request registry) :
    Safe Disk.act (Underway disk memory request) (Ended disk memory request) d
      (replaceRegistry memory registry) := by
  refine ((persist_safe d registry).imp (fun _ => .of_between hloaded hedit hd)
    fun _ _ _ hr => hr).bind fun d' result hunder hpersisted => ⟨hunder, ?_⟩
  by_cases hr : result = .ok
  · obtain ⟨text, htext, husers⟩ := hpersisted.installed hr
    exact .replaced hloaded hedit htext (if_pos hr) husers (by rw [hr]) hr
  · exact .unchanged (if_neg hr) (hd ▸ hpersisted.failed hr) (by simpa using hr)
      fun hok => absurd hok hr

lemma kmalloc_safe {α : Type} {I : Disk → Prop} {Q : Disk → α → Prop}
    {next : Bool → Program α} (hd : I d) (hnext : ∀ allocated, Safe Disk.act I Q d (next allocated)) :
    Safe Disk.act I Q d (.call .kmalloc next) :=
  ⟨hd, fun fault => hnext fault.isNone⟩

section

variable {env : Env} {username password : List UInt8}

lemma accountCreate_safe : Safe Disk.act (Underway disk memory (.create username password))
      (Ended disk memory (.create username password)) disk
      (accountCreate env memory username password) := by
  unfold accountCreate
  split_ifs with hprivilege hvalid hbusy
  · exact refuse_safe rfl nofun
  · exact refuse_safe rfl nofun
  all_goals refine kmalloc_safe (.inl rfl) fun allocated => ?_
  · cases allocated <;> exact refuse_safe rfl nofun
  · cases allocated with
    | false => exact refuse_safe rfl nofun
    | true =>
      have hplan := @planCreate_sound env memory username password
      cases hresult : planCreate env memory username password with
      | error result =>
        simp only [hresult] at hplan ⊢
        exact refuse_safe rfl fun hok => absurd hok hplan
      | ok registry =>
        simp only [hresult] at hplan ⊢
        exact replaceRegistry_safe rfl hplan.1 hplan.2

lemma finishRemove_safe {d : Disk} {account : Account} {removed : Registry} {purge : Bool}
    {text : List UInt8} (hloaded : memory.loaded = true)
    (hrequest : ∃ username, request = .remove username purge)
    (hedit : Edit memory.registry request removed)
    (htext : serializeDatabase removed dbMaxBytes = some text)
    (husers : d.users = some (.file text)) :
    Safe Disk.act (Underway disk memory request) (Ended disk memory request) d
      (finishRemove env memory account memory.registry removed purge) := by
  have hunder : Underway disk memory request d :=
    .inr (.inr ⟨hloaded, removed, text, .inl hedit, htext, husers⟩)
  unfold finishRemove
  split_ifs with hpurge
  · exact ⟨hunder, .replaced hloaded hedit htext rfl husers rfl rfl⟩
  · refine ((persist_safe d memory.registry).imp ?_ fun _ _ _ hr => hr).bind
      fun d' restored hunder' hpersisted => ⟨hunder', ?_⟩
    · rintro d' (hsame | hnone | ⟨old, hold, hsame⟩)
      · exact .inr (.inr ⟨hloaded, removed, text, .inl hedit, htext, hsame.trans husers⟩)
      · exact .inr (.inl hnone)
      · exact .inr (.inr ⟨hloaded, memory.registry, old, .inr rfl, hold, hsame⟩)
    · have hpurging : purge = true := Bool.eq_true_of_not_eq_false fun hno => hpurge (.inl hno)
      refine .restored hloaded (hpurging ▸ hrequest) hedit rfl rfl ?_ ?_
      · by_cases hr : restored = .ok
        · obtain ⟨old, hold, hsame⟩ := hpersisted.installed hr
          exact .inr ⟨memory.registry, old, .inr rfl, hold, hsame⟩
        · rcases hpersisted.failed hr with hsame | hnone
          · exact .inr ⟨removed, text, .inl rfl, htext, hsame.trans husers⟩
          · exact .inl hnone
      · split_ifs with hr
        · exact fun hok => hpurge (.inr hok)
        · nofun

lemma accountRemove_safe {purge : Bool} :
    Safe Disk.act (Underway disk memory (.remove username purge))
      (Ended disk memory (.remove username purge)) disk
      (accountRemove env memory username purge) := by
  unfold accountRemove
  split_ifs with hprivilege hvalid hbusy
  · exact refuse_safe rfl nofun
  · exact refuse_safe rfl nofun
  · exact refuse_safe rfl nofun
  · refine kmalloc_safe (.inl rfl) fun first => kmalloc_safe (.inl rfl) fun second => ?_
    split_ifs with hmemory
    · exact refuse_safe rfl nofun
    · have hplan := @planRemove_sound env memory username purge
      cases hresult : planRemove env memory username purge with
      | error result =>
        simp only [hresult] at hplan ⊢
        exact refuse_safe rfl fun hok => absurd hok hplan
      | ok plan =>
        obtain ⟨account, registry, removed⟩ := plan
        simp only [hresult] at hplan ⊢
        obtain ⟨hloaded, rfl, hedit⟩ := hplan
        refine ((persist_safe disk removed).imp (fun _ => .of_between hloaded hedit rfl)
          fun _ _ _ hr => hr).bind fun d result hunder hpersisted => ?_
        split_ifs with hr
        · exact ⟨hunder, .unchanged rfl (hpersisted.failed hr) (by simpa using hr)
            fun hok => absurd hok hr⟩
        · obtain ⟨text, htext, husers⟩ := hpersisted.installed (not_not.mp hr)
          exact finishRemove_safe hloaded ⟨username, rfl⟩ hedit htext husers

lemma accountSetRole_safe {role : Role} :
    Safe Disk.act (Underway disk memory (.setRole username role))
      (Ended disk memory (.setRole username role)) disk
      (accountSetRole env memory username role) := by
  unfold accountSetRole
  split_ifs with hprivilege hvalid hbusy
  · exact refuse_safe rfl nofun
  · exact refuse_safe rfl nofun
  · exact refuse_safe rfl nofun
  · have hrole : role = .regular ∨ role = .admin := by tauto
    have hplan := @planSetRole_sound env memory username role hrole
    cases hresult : planSetRole env memory username role with
    | error result =>
      simp only [hresult] at hplan ⊢
      exact refuse_safe rfl fun hok => absurd hok hplan
    | ok plan =>
      cases plan with
      | none =>
        simp only [hresult] at hplan ⊢
        exact refuse_safe rfl fun _ => hplan
      | some registry =>
        simp only [hresult] at hplan ⊢
        exact replaceRegistry_safe rfl hplan.1 hplan.2

lemma accountSetPassword_safe :
    Safe Disk.act (Underway disk memory (.setPassword username password))
      (Ended disk memory (.setPassword username password)) disk
      (accountSetPassword env memory username password) := by
  unfold accountSetPassword
  split_ifs with hvalid hbusy
  · exact refuse_safe rfl nofun
  all_goals cases hcredentials : env.credentials with
    | none => exact refuse_safe rfl nofun
    | some credentials => ?_
  · exact refuse_safe rfl nofun
  · have hplan := @planSetPassword_sound env memory username password credentials
    cases hresult : planSetPassword env memory credentials username password with
    | error result =>
      simp only [hresult] at hplan ⊢
      exact refuse_safe rfl fun hok => absurd hok hplan
    | ok registry =>
      simp only [hresult] at hplan ⊢
      exact replaceRegistry_safe rfl hplan.1 hplan.2

lemma program_safe (env : Env) (request : Request) (disk : Disk) (memory : Memory) :
    Safe Disk.act (Underway disk memory request) (Ended disk memory request) disk
      (request.program env memory) := by
  cases request with
  | create username password => exact accountCreate_safe
  | remove username purge => exact accountRemove_safe
  | setRole username role => exact accountSetRole_safe
  | setPassword username password => exact accountSetPassword_safe

end

/-- What the parser has read so far is valid in itself. -/
structure ReadingOk (reading : Reading) : Prop where
  length : reading.accounts.length ≤ maxRecords
  accounts : ∀ account ∈ reading.accounts,
    userValid account.user = true ∧ passwordAuthValid account.authentication = true
  distinct : reading.accounts.Pairwise Distinct

variable {fields : Fields}

lemma user_valid {user : User} (h : fields.user = some user) : userValid user = true := by
  simp only [Fields.user, Option.bind_eq_bind, Option.bind_eq_some_iff] at h
  obtain ⟨uid, -, username, -, role, -, home, -, flags, -, h⟩ := h
  split_ifs at h with hvalid
  exact Option.some.inj h ▸ hvalid

lemma checked_some {a b : Authentication} (h : checked a = some b) :
    passwordAuthValid b = true := by
  unfold checked at h
  split_ifs at h with hvalid
  exact Option.some.inj h ▸ hvalid

lemma secret_valid {version : Nat} {authentication : Authentication}
    (h : fields.secret version = some authentication) :
    passwordAuthValid authentication = true := by
  unfold Fields.secret at h
  by_cases hversion : version = 1
  · rw [if_pos hversion] at h
    exact checked_some h
  · rw [if_neg hversion] at h
    cases hauth : fields.auth with
    | none => simp [hauth] at h
    | some algorithm =>
      simp only [hauth] at h
      split_ifs at h <;> exact checked_some h

variable {account : Account} {line : List UInt8}

lemma parseAccountLine_valid {version : Nat} (h : parseAccountLine version line = some account) :
    userValid account.user = true ∧ passwordAuthValid account.authentication = true := by
  unfold parseAccountLine at h
  simp only at h
  split_ifs at h
  obtain ⟨fields, -, h⟩ := Option.bind_eq_some_iff.mp h
  obtain ⟨user, huser, h⟩ := Option.bind_eq_some_iff.mp h
  obtain ⟨authentication, hsecret, h⟩ := Option.bind_eq_some_iff.mp h
  obtain rfl := Option.some.inj h
  exact ⟨user_valid huser, secret_valid hsecret⟩

variable {reading reading' : Reading}

section

variable (hok : ReadingOk reading)

include hok

lemma addAccount_ok (hroom : reading.accounts.length < maxRecords)
    (haccount : userValid account.user = true ∧ passwordAuthValid account.authentication = true)
    (h : addAccount reading account = some reading') : ReadingOk reading' := by
  unfold addAccount at h
  split_ifs at h with hnew
  obtain rfl := Option.some.inj h
  simp only [List.all_eq_true, decide_eq_true_eq] at hnew
  refine ⟨by simp only [List.length_append, List.length_singleton]; omega, ?_, ?_⟩
  · intro other hother
    rcases List.mem_append.mp hother with hother | hother
    · exact hok.accounts other hother
    · exact List.mem_singleton.mp hother ▸ haccount
  · exact List.pairwise_append.mpr ⟨hok.distinct, List.pairwise_singleton .., fun a ha b hb =>
      List.mem_singleton.mp hb ▸ hnew a ha⟩

lemma parseLine_ok (h : parseLine reading line = some reading') : ReadingOk reading' := by
  unfold parseLine at h
  split at h
  · exact Option.some.inj h ▸ hok
  · split at h
    · obtain ⟨version, -, rfl⟩ := Option.map_eq_some_iff.mp h
      exact ⟨hok.length, hok.accounts, hok.distinct⟩
    · obtain ⟨uid, -, rfl⟩ := Option.map_eq_some_iff.mp h
      exact ⟨hok.length, hok.accounts, hok.distinct⟩
    · split_ifs at h with hroom
      obtain ⟨account, haccount, h⟩ := Option.bind_eq_some_iff.mp h
      exact addAccount_ok hok (Nat.lt_of_not_le hroom) (parseAccountLine_valid haccount) h

lemma parseLines_ok {lines : List (List UInt8)}
    (h : lines.foldlM parseLine reading = some reading') :
    ReadingOk reading' := by
  induction lines generalizing reading with
  | nil => exact Option.some.inj h ▸ hok
  | cons line rest ih =>
    obtain ⟨reading1, hline, hrest⟩ := Option.bind_eq_some_iff.mp h
    exact ih (parseLine_ok hok hline) hrest

end

variable {text : List UInt8}

lemma parseDatabase_valid {migrate : Bool}
    (h : parseDatabase text = some (registry, migrate)) : registryValid registry = true := by
  unfold parseDatabase at h
  split_ifs at h with hsize
  obtain ⟨reading, hlines, h⟩ := Option.bind_eq_some_iff.mp h
  obtain ⟨version, -, h⟩ := Option.bind_eq_some_iff.mp h
  obtain ⟨nextUid, -, h⟩ := Option.bind_eq_some_iff.mp h
  have hok : ReadingOk reading := parseLines_ok ⟨Nat.zero_le _, by simp, .nil⟩ hlines
  split_ifs at h with hcheck
  obtain ⟨rfl, -⟩ := Prod.mk.inj (Option.some.inj h)
  simp only [not_or, not_not] at hcheck
  obtain ⟨hne, hinitial, hfirst, huids⟩ := hcheck
  simp only [List.any_eq_true, decide_eq_true_eq, not_exists, not_and] at huids
  refine registryValid_iff.mpr ⟨hne, hok.length, UInt32.not_lt.mp hfirst, ?_, hok.distinct, hinitial⟩
  intro account haccount
  obtain ⟨huser, hauth⟩ := hok.accounts account haccount
  exact accountValid_iff.mpr ⟨huser, UInt32.not_le.mp (huids account haccount), hauth⟩

section

variable {α β : Type}

lemma map_modify {f : α → α} {g : α → β} {f' : β → β} (h : ∀ a, g (f a) = f' (g a))
    (l : List α) (i : Nat) : (l.modify i f).map g = (l.map g).modify i f' := by
  induction l generalizing i with
  | nil => simp
  | cons a l ih => cases i <;> simp [h, ih]

lemma map_modify_same {f : α → α} {g : α → β} (h : ∀ a, g (f a) = g a) (l : List α) (i : Nat) :
    (l.modify i f).map g = l.map g := by
  rw [@map_modify _ _ f g id h, List.modify_id]

lemma mem_modify_cases {f : α → α} {l : List α} {i : Nat} {x : α} (h : x ∈ l.modify i f) :
    x ∈ l ∨ ∃ a, l[i]? = some a ∧ x = f a := by
  induction l generalizing i with
  | nil => simp at h
  | cons b l ih =>
    cases i with
    | zero =>
      rcases List.mem_cons.mp h with rfl | h
      · exact .inr ⟨b, rfl, rfl⟩
      · exact .inl (List.mem_cons_of_mem b h)
    | succ i =>
      rcases List.mem_cons.mp h with rfl | h
      · exact .inl List.mem_cons_self
      · exact (ih h).imp_left (List.mem_cons_of_mem b)

lemma countP_eraseIdx_add {p : α → Bool} {l : List α} {i : Nat} {a : α} (h : l[i]? = some a) :
    (l.eraseIdx i).countP p + (if p a then 1 else 0) = l.countP p := by
  obtain ⟨hi, rfl⟩ := List.getElem?_eq_some_iff.mp h
  rw [← (List.getElem_cons_eraseIdx_perm hi).countP_eq p, List.countP_cons]

lemma countP_modify {p : α → Bool} {f : α → α} {l : List α} {i : Nat} {a : α}
    (h : l[i]? = some a) : (l.modify i f).countP p + (if p a then 1 else 0) =
      l.countP p + if p (f a) then 1 else 0 := by
  rw [← countP_eraseIdx_add h]
  obtain ⟨hi, rfl⟩ := List.getElem?_eq_some_iff.mp h
  rw [List.modify_eq_set_get f hi, (List.set_perm_cons_eraseIdx hi _).countP_eq p,
    List.countP_cons]
  exact Nat.add_right_comm _ _ _

end

def Registry.roles (registry : Registry) : List (UInt32 × Role) :=
  registry.accounts.map fun account => (account.user.uid, account.user.role)

lemma adminCount_eq (registry : Registry) :
    registry.adminCount = registry.roles.countP fun p => p.2 = .admin := by
  rw [Registry.adminCount, Registry.roles, List.countP_map]
  rfl

lemma roles_getElem (h : registry.accounts[index]? = some account) :
    registry.roles[index]? = some (account.user.uid, account.user.role) := by
  simp [Registry.roles, h]

lemma roles_created (registry : Registry) (username : List UInt8)
    (authentication : Authentication) : (createdRegistry registry username authentication).roles =
      registry.roles ++ [(registry.nextUid, .regular)] := by
  simp [createdRegistry, Registry.roles]

lemma roles_withRole (registry : Registry) (index : Nat) (role : Role) :
    (withRole registry index role).roles = registry.roles.modify index fun p => (p.1, role) :=
  map_modify (by simp) ..

lemma roles_withAuthentication (registry : Registry) (index : Nat)
    (authentication : Authentication) :
    (withAuthentication registry index authentication).roles = registry.roles :=
  map_modify_same (by simp) ..

lemma roles_removed {removed : Registry} (h : removedRegistry registry index = some removed) :
    removed.nextUid = registry.nextUid ∧ removed.roles = registry.roles.eraseIdx index := by
  unfold removedRegistry at h
  split_ifs at h with hinitial
  · obtain ⟨replacement, -, rfl⟩ := Option.map_eq_some_iff.mp h
    have hroles : (registry.accounts.modify replacement setInitial).map
        (fun account => (account.user.uid, account.user.role)) = registry.roles :=
      map_modify_same (by simp [setInitial]) ..
    refine ⟨rfl, ?_⟩
    rw [← hroles, List.eraseIdx_map]
    rfl
  · obtain rfl := Option.some.inj h
    exact ⟨rfl, (List.eraseIdx_map ..).symm⟩

variable {edited : Registry}

variable {uid : UInt32}

section

variable (h : Edit registry request edited)

include h

lemma Edit.keeps_admin (hadmin : 1 ≤ registry.adminCount) : 1 ≤ edited.adminCount := by
  rw [adminCount_eq] at hadmin ⊢
  cases h with
  | create hnext =>
    rw [roles_created, List.countP_append]
    omega
  | @remove username purge index account removed hindex hname hlast hremoved =>
    rw [(roles_removed hremoved).2]
    have hcount := @countP_eraseIdx_add _ (fun p : UInt32 × Role => decide (p.2 = .admin)) _ _ _
      (roles_getElem hindex)
    by_cases hrole : account.user.role = .admin
    · have htwo : ¬ registry.adminCount ≤ 1 := fun hle =>
        hlast ⟨by simpa [isAdmin] using hrole, hle⟩
      rw [adminCount_eq] at htwo
      simp only [hrole, decide_true, if_true] at hcount
      omega
    · simp only [hrole, decide_false, Bool.false_eq_true, if_false] at hcount
      omega
  | @setRole username role index account hindex hname hrole hlast =>
    rw [roles_withRole]
    have hcount := @countP_modify _ (fun p : UInt32 × Role => decide (p.2 = .admin))
      (fun p => (p.1, role)) _ _ _ (roles_getElem hindex)
    rcases hrole with rfl | rfl
    · by_cases hold : account.user.role = .admin
      · have htwo : ¬ registry.adminCount ≤ 1 := fun hle => hlast ⟨rfl, hold, hle⟩
        rw [adminCount_eq] at htwo
        simp [hold] at hcount
        omega
      · simp [hold] at hcount
        omega
    · by_cases hold : account.user.role = .admin <;> simp [hold] at hcount <;> omega
  | setPassword =>
    rw [roles_withAuthentication]
    exact hadmin

lemma Edit.uid_cases {role : Role} (hmem : (uid, role) ∈ edited.roles) :
    (∃ role, (uid, role) ∈ registry.roles) ∨ uid = registry.nextUid := by
  cases h with
  | create hnext =>
    rw [roles_created, List.mem_append, List.mem_singleton] at hmem
    rcases hmem with hmem | heq
    · exact .inl ⟨role, hmem⟩
    · exact .inr (Prod.mk.inj heq).1
  | remove hindex hname hlast hremoved =>
    rw [(roles_removed hremoved).2] at hmem
    exact .inl ⟨role, List.mem_of_mem_eraseIdx hmem⟩
  | @setRole username newRole index account hindex hname hrole hlast =>
    rw [roles_withRole] at hmem
    rcases mem_modify_cases hmem with hmem | ⟨p, hp, heq⟩
    · exact .inl ⟨role, hmem⟩
    · obtain rfl := (Prod.mk.inj heq).1
      exact .inl ⟨p.2, List.mem_of_getElem? hp⟩
  | setPassword =>
    rw [roles_withAuthentication] at hmem
    exact .inl ⟨role, hmem⟩

def Registry.uids (registry : Registry) : List UInt32 := registry.roles.map Prod.fst

lemma Edit.mem_uids (hmem : uid ∈ edited.uids) :
    uid ∈ registry.uids ∨ uid = registry.nextUid := by
  obtain ⟨⟨uid, role⟩, hrole, rfl⟩ := List.mem_map.mp hmem
  rcases h.uid_cases hrole with ⟨role, hold⟩ | hnext
  · exact .inl (List.mem_map.mpr ⟨_, hold, rfl⟩)
  · exact .inr hnext

end

lemma next_lt_succ (h : uid ≠ 0xffffffff) : uid < uid + 1 := by
  have hne : uid.toNat ≠ 0xffffffff := fun heq => h (UInt32.toNat_inj.mp heq)
  have hlt := uid.toNat_lt
  rw [UInt32.lt_iff_toNat_lt, UInt32.toNat_add, UInt32.toNat_one]
  omega

lemma Edit.next_le (h : Edit registry request edited) : registry.nextUid ≤ edited.nextUid := by
  cases h with
  | create hnext => exact UInt32.le_of_lt (next_lt_succ hnext)
  | remove hindex hname hlast hremoved => exact (roles_removed hremoved).1 ▸ UInt32.le_refl _
  | setRole | setPassword => exact UInt32.le_refl _

lemma uids_nodup (h : registryValid registry = true) : registry.uids.Nodup := by
  obtain ⟨-, -, -, -, hdistinct, -⟩ := registryValid_iff.mp h
  rw [Registry.uids, Registry.roles, List.map_map, List.Nodup, List.pairwise_map]
  exact hdistinct.imp And.left

lemma uid_lt_next (h : registryValid registry = true)
    (hmem : uid ∈ registry.uids) : uid < registry.nextUid := by
  obtain ⟨-, -, -, hvalid, -, -⟩ := registryValid_iff.mp h
  rw [Registry.uids, Registry.roles, List.map_map] at hmem
  obtain ⟨account, haccount, rfl⟩ := List.mem_map.mp hmem
  exact (accountValid_iff.mp (hvalid account haccount)).2.1

open Script

section

variable {α β : Type} (disk : Disk)

def Disk.perform (p : Program α) : Disk × α := p.run Disk.act (fun _ => none) 0 disk

lemma perform_done (a : α) : disk.perform (.done a) = (disk, a) := rfl

lemma perform_call (op : Op) (next : Ans op → Program α) :
    disk.perform (.call op next) = (disk.act op none).1.perform (next (disk.act op none).2) :=
  run_const none 1 0 _ _

lemma perform_bind (p : Program α) (f : α → Program β) :
    disk.perform (p >>= f) = (disk.perform p).1.perform (f (disk.perform p).2) :=
  run_bind_const ..

end

/-- The registry that `identity_registry_reload` publishes at boot. -/
def bootRegistry (disk : Disk) : Option Registry :=
  match (disk.perform (registryReload false .initial)).2 with
  | .ok memory => some memory.registry
  | .error _ => none

lemma publish_registry (memory : Memory) (registry : Registry) :
    (memory.publish registry).registry = registry := by
  simp [Memory.publish, Memory.registry]

def loads (disk : Disk) (contents : List UInt8) : Option Registry :=
  match parseDatabase contents with
  | none => none
  | some (registry, false) => some registry
  | some (registry, true) =>
    if (disk.perform (persistRegistry registry)).2 = .ok then some registry else none

variable {disk : Disk}

lemma boot_of_no_users (h : disk.users = none) : bootRegistry disk = none := by
  have hread : disk.perform readDatabase = (disk, .error .notFound) := by
    rw [Disk.users] at h
    simp [readDatabase, perform_call, perform_done, Disk.act, h]
  simp [bootRegistry, registryReload, perform_bind, hread, perform_done]

lemma boot_of_directory (h : disk.users = some .directory) : bootRegistry disk = none := by
  have hread : disk.perform readDatabase = (disk, .error .io) := by
    rw [Disk.users] at h
    simp [readDatabase, perform_call, perform_done, Disk.act, h, Entry.kind]
  simp [bootRegistry, registryReload, perform_bind, hread, perform_done]

lemma entries_of_users {entry : Entry} (h : disk.users = some entry) :
    Ready disk ∧ disk.entries .users = some entry := by
  unfold Disk.users Disk.inDirectory at h
  split_ifs at h with hready
  exact ⟨hready, h⟩

variable {contents : List UInt8}

lemma boot_of_file (h : disk.users = some (.file contents)) :
    bootRegistry disk = if contents = [] ∨ dbMaxBytes < contents.length then none
      else loads disk contents := by
  have hentry := (entries_of_users h).2
  rw [Disk.users] at h
  by_cases hsize : contents = [] ∨ dbMaxBytes < contents.length
  · have hread : disk.perform readDatabase = (disk, .error .badArgument) := by
      simp [readDatabase, perform_call, perform_done, Disk.act, h, Entry.kind, Entry.size, hsize]
    simp [bootRegistry, registryReload, perform_bind, hread, perform_done, hsize]
  · have hread : disk.perform readDatabase = (disk, .ok contents) := by
      simp [readDatabase, perform_call, perform_done, Disk.act, h, Entry.kind, Entry.size, hsize,
        hentry]
    rw [if_neg hsize]
    simp only [bootRegistry, registryReload, loads, Bool.false_eq_true, if_false, perform_bind, hread]
    rcases hparse : parseDatabase contents with _ | ⟨registry, _ | _⟩
    · rfl
    · simp [perform_done, publish_registry]
    · simp only [perform_bind]
      generalize disk.perform (persistRegistry registry) = r
      obtain ⟨disk', result⟩ := r
      cases result <;> simp [perform_done, publish_registry]

lemma perform_storageDirectory (h : Ready disk) :
    disk.perform storageDirectory = (disk, .ok ()) := by
  simp [storageDirectory, perform_call, perform_done, Disk.act, h.1, h.2]

lemma perform_removeLeftover {name : Name} (h : disk.entries name ≠ some .directory) :
    disk.perform (removeLeftover name) = (disk.set name none, true) := by
  rcases hentry : disk.entries name with _ | ⟨contents⟩ | _
  · have hsame : disk.set name none = disk := by
      rw [Disk.set, ← hentry, Function.update_eq_self]
    simp [removeLeftover, perform_call, perform_done, Disk.act, hentry, hsame]
  · simp [removeLeftover, perform_call, perform_done, Disk.act, hentry, Entry.kind]
  · exact absurd hentry h

lemma perform_removeLeftover_directory {name : Name} (h : disk.entries name = some .directory) :
    disk.perform (removeLeftover name) = (disk, false) := by
  simp [removeLeftover, perform_call, perform_done, Disk.act, h, Entry.kind]

lemma perform_writeTemporary
    (h : (disk.entries .usersNew).isSome = true) : disk.perform (writeTemporary contents) =
      (disk.set .usersNew (some (.file contents)), .ok ()) := by
  simp [writeTemporary, perform_call, perform_done, Disk.act, h]

lemma perform_replaceUsers {disk : Disk} {old new : List UInt8}
    (husers : disk.entries .users = some (.file old))
    (hnew : disk.entries .usersNew = some (.file new)) (hold : disk.entries .usersOld = none) :
    (disk.perform replaceUsers).2 = .ok := by
  simp [replaceUsers, installTemporary, perform_call, perform_done, Disk.act, Disk.set, husers, hnew,
    hold, Entry.kind]

lemma perform_persistRegistry {text old : List UInt8}
    (hready : Ready disk) (hclean : Clean disk) (husers : disk.entries .users = some (.file old))
    (htext : serializeDatabase registry dbMaxBytes = some text) :
    (disk.perform (persistRegistry registry)).2 = .ok := by
  have hnew := hclean .usersNew (by simp)
  have hold : (disk.set .usersNew none).entries .usersOld ≠ some .directory := by
    simpa [Disk.set] using hclean .usersOld (by simp)
  simp only [persistRegistry, perform_call, Disk.act, Option.isNone_none, htext, persistContents,
    perform_bind, perform_storageDirectory hready, perform_removeLeftover hnew,
    perform_removeLeftover hold]
  rw [if_pos (by simp [Disk.set])]
  simp only [perform_bind]
  rw [perform_writeTemporary (by simp [Disk.set])]
  exact @perform_replaceUsers _ old text (by simpa [Disk.set] using husers) (by simp [Disk.set])
    (by simp [Disk.set])

lemma clean_of_perform (hready : Ready disk)
    (h : (disk.perform (persistRegistry registry)).2 = .ok) :
    Clean disk ∧ ∃ text, serializeDatabase registry dbMaxBytes = some text := by
  cases htext : serializeDatabase registry dbMaxBytes with
  | none => simp [persistRegistry, perform_call, perform_done, Disk.act, htext] at h
  | some text =>
    refine ⟨fun name hname hdir => ?_, text, rfl⟩
    simp only [persistRegistry, perform_call, Disk.act, Option.isNone_none, htext, persistContents,
      perform_bind, perform_storageDirectory hready] at h
    by_cases hnew : disk.entries .usersNew = some .directory
    · simp only [perform_removeLeftover_directory hnew, perform_done] at h
      cases h
    · cases name with
      | users => exact hname rfl
      | usersNew => exact hnew hdir
      | usersOld =>
        have hold : (disk.set .usersNew none).entries .usersOld = some .directory := by
          simpa [Disk.set] using hdir
        simp only [perform_removeLeftover hnew, perform_bind,
          perform_removeLeftover_directory hold, perform_done] at h
        cases h

lemma boot_of_serialized (htext : serializeDatabase registry dbMaxBytes = some text)
    (h : disk.users = some (.file text)) : bootRegistry disk = some registry := by
  obtain ⟨hvalid, rfl, hlen⟩ := serializeDatabase_some htext
  have hsize : ¬ (databaseText registry = [] ∨ dbMaxBytes < (databaseText registry).length) := by
    rintro (hempty | hlong)
    · simp [databaseText, databaseLines] at hempty
    · exact Nat.not_lt.mpr hlen hlong
  rw [boot_of_file h, if_neg hsize, loads, parseDatabase_databaseText hvalid hlen]

lemma boot_of_same_users {disk' : Disk}
    (h : bootRegistry disk = some registry) (husers : disk'.users = disk.users)
    (hclean : Clean disk → Clean disk') : bootRegistry disk' = some registry := by
  rcases hentry : disk.users with _ | ⟨contents⟩ | _
  · rw [boot_of_no_users hentry] at h
    cases h
  · obtain ⟨hready, -⟩ := entries_of_users hentry
    obtain ⟨hready', hentry'⟩ := entries_of_users (husers.trans hentry)
    rw [boot_of_file hentry] at h
    rw [boot_of_file (husers.trans hentry)]
    split_ifs at h ⊢ with hsize
    unfold loads at h ⊢
    rcases hparse : parseDatabase contents with _ | ⟨found, _ | _⟩
    · simp [hparse] at h
    · simpa only [hparse] using h
    · simp only [hparse] at h ⊢
      split_ifs at h with hok
      obtain ⟨hcleanDisk, text, htext⟩ := clean_of_perform hready hok
      rw [if_pos (perform_persistRegistry hready' (hclean hcleanDisk) hentry' htext)]
      exact h
  · rw [boot_of_directory hentry] at h
    cases h

/-- The operations done when the system stops after `n` of them. -/
def doneBefore (disk : Disk) (faults : Nat → Option Fault) (n : Nat) (p : Program Result) : Log :=
  (p.after act faults n 0 (disk, [])).2

/-- Whenever a machine stops while a registry is persisted, the next boot finds the old registry or
the new one, unless it stops between the two renames: then it finds neither. -/
theorem boot_after_stop {disk : Disk} {old : Registry} (hold : bootRegistry disk = some old)
    (new : Registry) (faults : Nat → Option Fault) (n : Nat) :
    (bootRegistry ((persistRegistry new).after Disk.act faults n 0 disk) = some old ∨
      bootRegistry ((persistRegistry new).after Disk.act faults n 0 disk) = some new) ↔
    movedAway (doneBefore disk faults n (persistRegistry new)) = false := by
  rw [← after_logged faults n 0 disk []]
  unfold doneBefore
  have hstart : Held disk (disk, []) := ⟨rfl, rfl, id⟩
  rcases persistRegistry_safe hstart new with ⟨text, htext, hsafe⟩ | ⟨-, hsafe⟩
  · have hkept := hsafe.after faults n 0
    generalize (persistRegistry new).after act faults n 0 (disk, []) = stop at hkept ⊢
    constructor
    · intro hboot
      by_contra hmoved
      rw [boot_of_no_users (hkept.away (by simpa using hmoved))] at hboot
      simp at hboot
    · intro hmoved
      rcases hkept.stays hmoved with husers | husers
      · exact .inl (boot_of_same_users hold husers hkept.clean)
      · exact .inr (boot_of_serialized htext husers)
  · have hheld := hsafe.after faults n 0
    generalize (persistRegistry new).after act faults n 0 (disk, []) = stop at hheld ⊢
    exact ⟨fun _ => hheld.stays, fun _ => .inl (boot_of_same_users hold hheld.users hheld.clean)⟩

def storedDisk : Disk where
  sys := some .directory
  accounts := some .directory
  entries
    | .users => some (.file (databaseText exampleRegistry))
    | _ => none

def promotedRegistry : Registry :=
  { exampleRegistry with accounts := exampleRegistry.accounts.map fun account =>
      { account with user := { account.user with role := .admin } } }

lemma boot_storedDisk : bootRegistry storedDisk = some exampleRegistry := by
  have h : (serializeDatabase exampleRegistry dbMaxBytes).isSome = true := by decide +kernel
  obtain ⟨text, htext⟩ := Option.isSome_iff_exists.mp h
  refine boot_of_serialized htext ?_
  rw [(serializeDatabase_some htext).2.1]
  rfl

/-- Between the two renames there is no database under its name. -/
theorem stop_between_renames : bootRegistry storedDisk = some exampleRegistry ∧
    bootRegistry ((persistRegistry promotedRegistry).after Disk.act (fun _ => none) 9 0
      storedDisk) = none := by
  refine ⟨boot_storedDisk, boot_of_no_users ?_⟩
  have h : (serializeDatabase promotedRegistry dbMaxBytes).isSome = true := by decide +kernel
  obtain ⟨text, htext⟩ := Option.isSome_iff_exists.mp h
  simp [persistRegistry, persistContents, storageDirectory, removeLeftover, writeTemporary,
    replaceUsers, call_bind, done_bind, Script.after, Disk.act, Disk.set, storedDisk, htext,
    Entry.kind, Disk.users, Disk.inDirectory]

/-- A stop after eight calls, before the renames. -/
theorem boot_after_early_stop : bootRegistry storedDisk = some exampleRegistry ∧
    ((bootRegistry ((persistRegistry promotedRegistry).after Disk.act (fun _ => none) 8 0
        storedDisk) = some exampleRegistry ∨
      bootRegistry ((persistRegistry promotedRegistry).after Disk.act (fun _ => none) 8 0
        storedDisk) = some promotedRegistry) ↔
    movedAway (doneBefore storedDisk (fun _ => none) 8 (persistRegistry promotedRegistry)) = false) :=
  ⟨boot_storedDisk, boot_after_stop boot_storedDisk promotedRegistry (fun _ => none) 8⟩

end Mangrove.Identity
