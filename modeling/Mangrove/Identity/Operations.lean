import Mangrove.Identity.Database
import Mangrove.Lib.Prog

/-! The account database on disk, and the operations. Each persists a changed copy of the
active registry and only then publishes it, whichever of its steps fail. -/

namespace Mangrove.Identity

open Text Pass

inductive VfsError where
  | notFound
  | noMem
  | unsupported
  | notEmpty
  | accessDenied
  | notDirectory
  | io
  | other
deriving DecidableEq

inductive Result where
  | ok
  | notFound
  | noMemory
  | unsupported
  | notEmpty
  | accessDenied
  | notDirectory
  | io
  | badArgument
  | busy
  | alreadyExists
  | privilegeRequired
  | entropyUnavailable
  | refused (result : PassResult)
deriving DecidableEq

def VfsError.result : VfsError → Result
  | .notFound => .notFound
  | .noMem => .noMemory
  | .unsupported => .unsupported
  | .notEmpty => .notEmpty
  | .accessDenied => .accessDenied
  | .notDirectory => .notDirectory
  | .io => .io
  | .other => .badArgument

inductive Kind where
  | file
  | directory
deriving DecidableEq

inductive Entry where
  | file (contents : List UInt8)
  | directory
deriving DecidableEq

def Entry.kind : Entry → Kind
  | .file _ => .file
  | .directory => .directory

/-- The names `account_persist_registry` uses in `/sys/accounts`. -/
inductive Name where
  | users
  | usersNew
  | usersOld
deriving DecidableEq

/-- The files below `/sys/accounts`, and the two directories. -/
structure Disk where
  sys : Option Kind
  accounts : Option Kind
  entries : Name → Option Entry

def Disk.set (disk : Disk) (name : Name) (entry : Option Entry) : Disk :=
  { disk with entries := Function.update disk.entries name entry }

/-- The calls of the file system that the account code makes. -/
inductive Op where
  | kmalloc
  | lookupAccounts
  | findSys
  | mkdirSys
  | findAccounts
  | mkdirAccounts
  | find (name : Name)
  | unlink (name : Name)
  | create (name : Name)
  | openFile (name : Name)
  | write (name : Name) (contents : List UInt8)
  | rename (source target : Name)
  | lookupUsers
  | read (name : Name)
deriving DecidableEq

abbrev Ans : Op → Type
  | .kmalloc => Bool
  | .lookupAccounts => Except VfsError Kind
  | .findSys | .findAccounts | .find _ => Option Kind
  | .mkdirSys | .mkdirAccounts | .unlink _ | .create _ | .openFile _ | .rename _ _ =>
    Except VfsError Unit
  | .write _ _ => Nat
  | .lookupUsers => Except VfsError (Kind × Nat)
  | .read _ => List UInt8

/-- How an operation fails; `amount` bytes are moved before. -/
structure Fault where
  error : VfsError
  amount : Nat

def Disk.inDirectory (disk : Disk) (name : Name) : Option Entry :=
  if disk.sys = some .directory ∧ disk.accounts = some .directory then disk.entries name else none

def Entry.size : Entry → Nat
  | .file contents => contents.length
  | .directory => 0

def Disk.act (disk : Disk) : (op : Op) → Option Fault → Disk × Ans op
  | .kmalloc, fault => (disk, fault.isNone)
  | .lookupAccounts, some fault => (disk, .error fault.error)
  | .lookupAccounts, none =>
    (disk, if disk.sys = some .directory then
        match disk.accounts with
        | some kind => .ok kind
        | none => .error .notFound
      else .error .notFound)
  | .findSys, some _ => (disk, none)
  | .findSys, none => (disk, disk.sys)
  | .mkdirSys, some fault => (disk, .error fault.error)
  | .mkdirSys, none =>
    if disk.sys = none then
      ({ disk with sys := some .directory, accounts := none, entries := fun _ => none }, .ok ())
    else (disk, .error .other)
  | .findAccounts, some _ => (disk, none)
  | .findAccounts, none => (disk, disk.accounts)
  | .mkdirAccounts, some fault => (disk, .error fault.error)
  | .mkdirAccounts, none =>
    if disk.accounts = none then
      ({ disk with accounts := some .directory, entries := fun _ => none }, .ok ())
    else (disk, .error .other)
  | .find _, some _ => (disk, none)
  | .find name, none => (disk, (disk.entries name).map Entry.kind)
  | .unlink _, some fault => (disk, .error fault.error)
  | .unlink name, none =>
    match disk.entries name with
    | some (.file _) => (disk.set name none, .ok ())
    | some .directory => (disk, .error .other)
    | none => (disk, .error .notFound)
  | .create _, some fault => (disk, .error fault.error)
  | .create name, none =>
    if disk.entries name = none then (disk.set name (some (.file [])), .ok ())
    else (disk, .error .other)
  | .openFile _, some fault => (disk, .error fault.error)
  | .openFile name, none =>
    (disk, if (disk.entries name).isSome then .ok () else .error .notFound)
  | .write name contents, some fault =>
    (disk.set name (some (.file (contents.take fault.amount))), min fault.amount contents.length)
  | .write name contents, none => (disk.set name (some (.file contents)), contents.length)
  | .rename _ _, some fault => (disk, .error fault.error)
  | .rename source target, none =>
    match disk.entries source, disk.entries target with
    | some entry, none => ((disk.set source none).set target (some entry), .ok ())
    | some _, some _ => (disk, .error .other)
    | none, _ => (disk, .error .notFound)
  | .lookupUsers, some fault => (disk, .error fault.error)
  | .lookupUsers, none =>
    (disk, match disk.inDirectory .users with
      | some entry => .ok (entry.kind, entry.size)
      | none => .error .notFound)
  | .read name, fault =>
    (disk, match disk.entries name, fault with
      | some (.file contents), none => contents
      | some (.file contents), some fault => contents.take fault.amount
      | _, _ => [])

abbrev Program (α : Type) := Script Op Ans α

def findOrMakeSys : Program (Except VfsError Kind) :=
  .call .findSys fun
    | some kind => .done (.ok kind)
    | none => .call .mkdirSys fun
      | .ok () => .done (.ok .directory)
      | .error e => .done (.error e)

def findOrMakeAccounts : Program (Except VfsError Unit) :=
  .call .findAccounts fun
    | some .directory => .done (.ok ())
    | some .file => .done (.error .notDirectory)
    | none => .call .mkdirAccounts .done

def storageDirectory : Program (Except VfsError Unit) :=
  .call .lookupAccounts fun
    | .ok .directory => .done (.ok ())
    | .ok .file => .done (.error .notDirectory)
    | .error .notFound => do
      match ← findOrMakeSys with
      | .error e => .done (.error e)
      | .ok .file => .done (.error .notDirectory)
      | .ok .directory => findOrMakeAccounts
    | .error e => .done (.error e)

def removeLeftover (name : Name) : Program Bool :=
  .call (.find name) fun
    | none => .done true
    | some .directory => .done false
    | some .file => .call (.unlink name) fun
      | .ok () => .done true
      | .error _ => .done false

def writeTemporary (contents : List UInt8) : Program (Except VfsError Unit) :=
  .call (.openFile .usersNew) fun
    | .error e => .done (.error e)
    | .ok () => .call (.write .usersNew contents) fun count =>
      .done (if count = contents.length then .ok () else .error .io)

def dropTemporary (result : Result) : Program Result :=
  .call (.unlink .usersNew) fun _ => .done result

/-- The new file takes its name; `movedOld` says that the old one was renamed. -/
def installTemporary (movedOld : Bool) : Program Result :=
  .call (.rename .usersNew .users) fun
    | .ok () =>
      if movedOld then .call (.unlink .usersOld) fun _ => .done .ok else .done .ok
    | .error e =>
      if movedOld then .call (.rename .usersOld .users) fun _ => dropTemporary e.result
      else dropTemporary e.result

def replaceUsers : Program Result :=
  .call (.find .users) fun
    | none => installTemporary false
    | some .directory => dropTemporary .badArgument
    | some .file => .call (.rename .users .usersOld) fun
      | .error e => dropTemporary e.result
      | .ok () => installTemporary true

def persistContents (contents : List UInt8) : Program Result := do
  match ← storageDirectory with
  | .error e => .done e.result
  | .ok () =>
    match ← removeLeftover .usersNew with
    | false => .done .io
    | true =>
      match ← removeLeftover .usersOld with
      | false => .done .io
      | true => .call (.create .usersNew) fun
        | .error e => .done e.result
        | .ok () => do
          match ← writeTemporary contents with
          | .error e => dropTemporary e.result
          | .ok () => replaceUsers

def persistRegistry (registry : Registry) : Program Result :=
  .call .kmalloc fun
    | false => .done .noMemory
    | true =>
      match serializeDatabase registry dbMaxBytes with
      | none => .done .badArgument
      | some contents => persistContents contents

/-- The two registries, which of them is active, and whether one was loaded. -/
structure Memory where
  slots : Bool → Registry
  active : Bool
  loaded : Bool

def Memory.initial : Memory := ⟨fun _ => ⟨[], 0⟩, false, false⟩

def Memory.registry (memory : Memory) : Registry := memory.slots memory.active

def Memory.copyActive (memory : Memory) : Option Registry :=
  if memory.loaded then some memory.registry else none

def Memory.publish (memory : Memory) (registry : Registry) : Memory :=
  let target := if memory.loaded then !memory.active else false
  ⟨Function.update memory.slots target registry, target, true⟩

/-- `identity_read_database`; an error says whether the file was not found. -/
def readDatabase : Program (Except Result (List UInt8)) :=
  .call .lookupUsers fun
    | .error .notFound => .done (.error .notFound)
    | .error _ => .done (.error .io)
    | .ok (.directory, _) => .done (.error .io)
    | .ok (.file, size) =>
      if size = 0 ∨ dbMaxBytes < size then .done (.error .badArgument)
      else .call .kmalloc fun
        | false => .done (.error .noMemory)
        | true => .call (.openFile .users) fun
          | .error _ => .done (.error .io)
          | .ok () => .call (.read .users) fun contents =>
            .done (if contents.length = size then .ok contents else .error .io)

/-- `identity_registry_reload`: the registry published, or the message left. -/
def registryReload (busy : Bool) (memory : Memory) : Program (Except String Memory) :=
  if busy then .done (.error "account registry update busy")
  else do
    match ← readDatabase with
    | .error .notFound => .done (.error "account database not found")
    | .error _ => .done (.error "account database read failed")
    | .ok contents =>
      match parseDatabase contents with
      | none => .done (.error "account database validation failed")
      | some (registry, false) => .done (.ok (memory.publish registry))
      | some (registry, true) => do
        match ← persistRegistry registry with
        | .ok => .done (.ok (memory.publish registry))
        | _ => .done (.error "account database migration failed")

open Text Pass Script

/-- What is found below `/home` under the name of a user. -/
structure HomeNode where
  kind : Kind
  owner : UInt32
  size : Nat

/-- The answers an operation gets from outside: the caller's credentials, another
update in progress, PASS, random numbers and the password hash, and the
operations under `/home`. -/
structure Env where
  credentials : Option Credentials
  busy : Bool
  authorize : List UInt8 → PassResult
  entropy : Bool
  salt : Nat → Option (List.Vector UInt8 16)
  derive : List UInt8 → List.Vector UInt8 16 → UInt32 → List.Vector UInt8 32
  homeRoot : Except VfsError Kind
  home : Option HomeNode
  mkdir : Except VfsError Unit
  purgeDirectory : Result
  rmdir : Except VfsError Unit

/-- How an operation on the accounts ended. -/
structure Outcome where
  memory : Memory
  result : Result
  persists : List (Registry × Result)

def refuse (memory : Memory) (result : Result) : Program Outcome := .done ⟨memory, result, []⟩

def Memory.view (memory : Memory) : Pass.Registry where
  loaded := memory.loaded
  users := memory.registry.accounts.map fun account => ⟨account.user.uid, account.user.role⟩

def requireManageUsers (env : Env) (memory : Memory) : Bool :=
  match env.credentials with
  | none => false
  | some credentials =>
    credentialsHasPrivilege memory.view credentials privilegeManageUsers

def authorizeCurrent (env : Env) (parts : List (List UInt8)) : Except Result Unit :=
  match parts.foldlM (appendBytes passMessageMax) [] with
  | none => .error .badArgument
  | some description =>
    match env.authorize description with
    | .allowed => .ok ()
    | result => .error (.refused result)

def passwordInputValid (password : List UInt8) : Bool :=
  password ≠ [] ∧ password.length ≤ passwordMaxLength

def saltUnique (registry : Registry) (ignored : Nat) (candidate : Authentication) : Bool :=
  registry.accounts.zipIdx.all fun (account, index) =>
    index = ignored || account.authentication.algorithm ≠ authPbkdf2Sha256 ||
      account.authentication.salt ≠ candidate.salt

def passwordAuthGenerate (env : Env) (attempt : Nat) (password : List UInt8) :
    Option Authentication :=
  (env.salt attempt).map fun salt =>
    ⟨authPbkdf2Sha256, passwordIterations, salt, env.derive password salt passwordIterations⟩

def makePasswordFrom (env : Env) (registry : Registry) (target : Nat) (password : List UInt8) :
    Nat → Nat → Except Result Authentication
  | 0, _ => .error .busy
  | left + 1, attempt =>
    match passwordAuthGenerate env attempt password with
    | none => .error .entropyUnavailable
    | some authentication =>
      if saltUnique registry target authentication then .ok authentication
      else makePasswordFrom env registry target password left (attempt + 1)

def makePassword (env : Env) (registry : Registry) (target : Nat) (password : List UInt8) :
    Except Result Authentication :=
  if passwordInputValid password = false then .error .badArgument
  else if env.entropy = false then .error .entropyUnavailable
  else makePasswordFrom env registry target password 8 0

def createdRegistry (registry : Registry) (username : List UInt8)
    (authentication : Authentication) : Registry where
  accounts := registry.accounts ++
    [⟨⟨registry.nextUid, username, .regular, homeOf username, 0⟩, authentication⟩]
  nextUid := registry.nextUid + 1

def withRole (registry : Registry) (index : Nat) (role : Role) : Registry :=
  { registry with accounts := registry.accounts.modify index fun account =>
      { account with user := { account.user with role := role } } }

def withAuthentication (registry : Registry) (index : Nat) (authentication : Authentication) :
    Registry :=
  { registry with accounts := registry.accounts.modify index fun account =>
      { account with authentication := authentication } }

def setInitial (account : Account) : Account :=
  { account with user := { account.user with flags := account.user.flags ||| flagInitial } }

/-- The account that becomes the initial one: the first other administrator, or else
the first other account. -/
def replacementFor (registry : Registry) (index : Nat) : Option Nat :=
  let others := (List.range registry.accounts.length).filter fun other => other ≠ index
  match others.find? fun other => registry.accounts[other]?.any isAdmin with
  | some other => some other
  | none => others.head?

def removedRegistry (registry : Registry) (index : Nat) : Option Registry :=
  if registry.accounts[index]?.any isInitial then
    (replacementFor registry index).map fun replacement =>
      { registry with accounts := (registry.accounts.modify replacement setInitial).eraseIdx index }
  else some { registry with accounts := registry.accounts.eraseIdx index }

def replaceRegistry (memory : Memory) (registry : Registry) : Program Outcome := do
  let result ← persistRegistry registry
  .done ⟨if result = .ok then memory.publish registry else memory, result, [(registry, result)]⟩

/-- The new home: there is a directory `/home`, nothing of the name is in it, and the
directory is made. -/
def makeHome (env : Env) : Except Result Unit :=
  match env.homeRoot with
  | .error e => .error e.result
  | .ok .file => .error .notDirectory
  | .ok .directory =>
    if env.home.isSome then .error .alreadyExists
    else match env.mkdir with
      | .error e => .error e.result
      | .ok () => .ok ()

def planCreate (env : Env) (memory : Memory) (username password : List UInt8) :
    Except Result Registry := do
  match memory.copyActive with
  | none => .error .io
  | some registry =>
    if maxRecords ≤ registry.accounts.length ∨ registry.nextUid = 0xffffffff then .error .busy
    else if (registry.find username).isSome then .error .alreadyExists
    else do
      authorizeCurrent env [ascii "Create account \"", username, ascii "\" with home ",
        homeOf username, ascii "."]
      let authentication ← makePassword env registry registry.accounts.length password
      let created := createdRegistry registry username authentication
      if registryValid created = false then .error .badArgument
      else do
        makeHome env
        .ok created

def accountCreate (env : Env) (memory : Memory) (username password : List UInt8) :
    Program Outcome :=
  if requireManageUsers env memory = false then refuse memory .privilegeRequired
  else if usernameValid username = false ∨ passwordInputValid password = false then
    refuse memory .badArgument
  else .call .kmalloc fun
    | false => refuse memory .noMemory
    | true =>
      if env.busy then refuse memory .busy
      else match planCreate env memory username password with
        | .error result => refuse memory result
        | .ok registry => replaceRegistry memory registry

def accountHomeIsSafe (user : User) : Bool :=
  accountHomeMatches user && user.home ≠ ascii "/home" && user.home ≠ ascii "/"

/-- `account_purge_home`; a `/home` that is a file counts as success. -/
def purgeHome (env : Env) (user : User) : Result :=
  if accountHomeIsSafe user = false then .badArgument
  else match env.homeRoot with
    | .error e => e.result
    | .ok .file => .ok
    | .ok .directory =>
      match env.home with
      | none => .accessDenied
      | some home =>
        if home.kind ≠ .directory ∨ home.owner ≠ user.uid then .accessDenied
        else if home.size ≠ 0 ∧ env.purgeDirectory ≠ .ok then env.purgeDirectory
        else match env.rmdir with
          | .error e => e.result
          | .ok () => .ok

def planRemove (env : Env) (memory : Memory) (username : List UInt8) (purge : Bool) :
    Except Result (Account × Registry × Registry) := do
  match memory.copyActive with
  | none => .error .io
  | some registry =>
    match registry.find username with
    | none => .error .notFound
    | some index =>
      match registry.accounts[index]?, env.credentials with
      | some account, some credentials =>
        if credentials.uid = account.user.uid ∨ (isAdmin account ∧ registry.adminCount ≤ 1) then
          .error .accessDenied
        else if purge ∧ accountHomeIsSafe account.user = false then .error .badArgument
        else do
          authorizeCurrent env (if purge then
            [ascii "Delete account \"", username, ascii "\" and permanently delete\n",
              account.user.home, ascii " and all contents."]
            else [ascii "Remove account \"", username, ascii "\" and preserve its home."])
          match removedRegistry registry index with
          | none => .error .accessDenied
          | some removed => .ok (account, registry, removed)
      | _, _ => .error .accessDenied

def finishRemove (env : Env) (memory : Memory) (account : Account) (registry removed : Registry)
    (purge : Bool) : Program Outcome :=
  if purge = false ∨ purgeHome env account.user = .ok then
    .done ⟨memory.publish removed, .ok, [(removed, .ok)]⟩
  else do
    let restored ← persistRegistry registry
    .done ⟨memory, if restored = .ok then purgeHome env account.user else .io,
      [(removed, .ok), (registry, restored)]⟩

def accountRemove (env : Env) (memory : Memory) (username : List UInt8) (purge : Bool) :
    Program Outcome :=
  if requireManageUsers env memory = false then refuse memory .privilegeRequired
  else if usernameValid username = false then refuse memory .badArgument
  else if env.busy then refuse memory .busy
  else .call .kmalloc fun first => .call .kmalloc fun second =>
    if first = false ∨ second = false then refuse memory .noMemory
    else match planRemove env memory username purge with
      | .error result => refuse memory result
      | .ok (account, registry, removed) => do
        let result ← persistRegistry removed
        if result ≠ .ok then .done ⟨memory, result, [(removed, result)]⟩
        else finishRemove env memory account registry removed purge

def roleText (role : Role) : List UInt8 := ascii (if role = .admin then "admin" else "regular")

def planSetRole (env : Env) (memory : Memory) (username : List UInt8) (role : Role) :
    Except Result (Option Registry) := do
  match memory.copyActive with
  | none => .error .io
  | some registry =>
    match registry.find username with
    | none => .error .notFound
    | some index =>
      match registry.accounts[index]? with
      | none => .error .notFound
      | some account =>
        if account.user.role = role then .ok none
        else if role = .regular ∧ account.user.role = .admin ∧ registry.adminCount ≤ 1 then
          .error .accessDenied
        else do
          authorizeCurrent env [ascii "Change account \"", username, ascii "\" role to ",
            roleText role, ascii "."]
          if registryValid (withRole registry index role) = false then .error .badArgument
          else .ok (some (withRole registry index role))

def accountSetRole (env : Env) (memory : Memory) (username : List UInt8) (role : Role) :
    Program Outcome :=
  if requireManageUsers env memory = false then refuse memory .privilegeRequired
  else if usernameValid username = false ∨ (role ≠ .regular ∧ role ≠ .admin) then
    refuse memory .badArgument
  else if env.busy then refuse memory .busy
  else match planSetRole env memory username role with
    | .error result => refuse memory result
    | .ok none => refuse memory .ok
    | .ok (some registry) => replaceRegistry memory registry

def planSetPassword (env : Env) (memory : Memory) (credentials : Credentials)
    (username password : List UInt8) : Except Result Registry := do
  match memory.copyActive with
  | none => .error .io
  | some registry =>
    match registry.find username with
    | none => .error .notFound
    | some index =>
      match registry.accounts[index]? with
      | none => .error .notFound
      | some account =>
        if credentials.uid ≠ account.user.uid ∧
            credentialsHasPrivilege memory.view credentials privilegeManageUsers = false
        then .error .privilegeRequired
        else do
          if credentials.uid ≠ account.user.uid then
            authorizeCurrent env [ascii "Reset the password for account \"", username, ascii "\"."]
          else pure ()
          let authentication ← makePassword env registry index password
          .ok (withAuthentication registry index authentication)

def accountSetPassword (env : Env) (memory : Memory) (username password : List UInt8) :
    Program Outcome :=
  if usernameValid username = false ∨ passwordInputValid password = false then
    refuse memory .badArgument
  else match env.credentials with
    | none => refuse memory .accessDenied
    | some credentials =>
      if env.busy then refuse memory .busy
      else match planSetPassword env memory credentials username password with
        | .error result => refuse memory result
        | .ok registry => replaceRegistry memory registry

/-- The operations on accounts that a caller may ask for. -/
inductive Request where
  | create (username password : List UInt8)
  | remove (username : List UInt8) (purge : Bool)
  | setRole (username : List UInt8) (role : Role)
  | setPassword (username password : List UInt8)
deriving DecidableEq

def Request.program (env : Env) (memory : Memory) : Request → Program Outcome
  | .create username password => accountCreate env memory username password
  | .remove username purge => accountRemove env memory username purge
  | .setRole username role => accountSetRole env memory username role
  | .setPassword username password => accountSetPassword env memory username password

open Script

def Disk.users (disk : Disk) : Option Entry := disk.inDirectory .users

abbrev Log := List ((op : Op) × Ans op)

def moves : Bool → ((op : Op) × Ans op) → Bool
  | _, ⟨.rename .users .usersOld, .ok ()⟩ => true
  | _, ⟨.rename _ .users, .ok ()⟩ => false
  | moved, _ => moved

def movedAway (log : Log) : Bool := log.foldl moves false

lemma movedAway_append (log : Log) (event : (op : Op) × Ans op) :
    movedAway (log ++ [event]) = moves (movedAway log) event := by
  simp [movedAway]

def Quiet : Op → Bool
  | .unlink name | .create name | .write name _ => name ≠ .users
  | .rename _ _ => false
  | _ => true

def Ready (disk : Disk) : Prop := disk.sys = some .directory ∧ disk.accounts = some .directory

variable {disk : Disk}

lemma users_of_ready (h : Ready disk) : disk.users = disk.entries .users := by
  simp [Disk.users, Disk.inDirectory, h.1, h.2]

section

variable {op : Op} {fault : Option Fault}

lemma users_set {name : Name} {entry : Option Entry} (h : name ≠ .users) :
    (disk.set name entry).users = disk.users := by
  simp [Disk.users, Disk.inDirectory, Disk.set, Function.update_of_ne h.symm]

/-- What an operation can do to the directory. -/
inductive Changed (disk : Disk) : Op → Disk → Prop
  | same {op : Op} : Changed disk op disk
  | madeSys (h : disk.sys = none) : Changed disk .mkdirSys ⟨some .directory, none, fun _ => none⟩
  | madeAccounts (h : disk.accounts = none) :
      Changed disk .mkdirAccounts ⟨disk.sys, some .directory, fun _ => none⟩
  | set {op : Op} {name : Name} {entry : Option Entry} (hname : Quiet op = true → name ≠ .users)
      (hentry : entry ≠ some .directory) : Changed disk op (disk.set name entry)
  | renamed {source target : Name} {entry : Entry} :
      Changed disk (.rename source target) ((disk.set source none).set target (some entry))

lemma act_changed (disk : Disk) (op : Op) (fault : Option Fault) :
    Changed disk op (disk.act op fault).1 := by
  cases fault with
  | some fault =>
    cases op with
    | write name contents => exact .set (by simp [Quiet]) nofun
    | _ => exact .same
  | none =>
    cases op with
    | mkdirSys =>
      simp only [Disk.act]
      split
      · next h => exact .madeSys h
      · exact .same
    | mkdirAccounts =>
      simp only [Disk.act]
      split
      · next h => exact .madeAccounts h
      · exact .same
    | unlink name =>
      simp only [Disk.act]
      split
      · exact .set (by simp [Quiet]) nofun
      all_goals exact .same
    | create name =>
      simp only [Disk.act]
      split
      · exact .set (by simp [Quiet]) nofun
      · exact .same
    | write name contents => exact .set (by simp [Quiet]) nofun
    | rename source target =>
      simp only [Disk.act]
      split
      · exact .renamed
      all_goals exact .same
    | _ => exact .same

lemma act_users (h : Quiet op = true) : (disk.act op fault).1.users = disk.users := by
  have hchanged := act_changed disk op fault
  generalize (disk.act op fault).1 = d at hchanged
  cases hchanged with
  | same => rfl
  | madeSys hsys => simp [Disk.users, Disk.inDirectory, hsys]
  | madeAccounts haccounts => simp [Disk.users, Disk.inDirectory, haccounts]
  | set hname => exact users_set (hname h)
  | renamed => simp [Quiet] at h

lemma act_moves (h : Quiet op = true) (moved : Bool) (answer : Ans op) :
    moves moved ⟨op, answer⟩ = moved := by
  cases op <;> first | rfl | simp [Quiet] at h

def Clean (disk : Disk) : Prop := ∀ name, name ≠ .users → disk.entries name ≠ some .directory

lemma Clean.set {name : Name} {entry : Option Entry} (h : Clean disk)
    (hentry : entry ≠ some .directory) : Clean (disk.set name entry) := by
  intro other hother
  by_cases heq : other = name
  · subst heq
    simpa [Disk.set] using hentry
  · simpa [Disk.set, Function.update_of_ne heq] using h other hother

lemma Clean.rename {source target : Name} {entry : Entry} (h : Clean disk)
    (hentry : entry ≠ .directory) : Clean ((disk.set source none).set target (some entry)) :=
  (h.set (Option.some_ne_none _).symm).set fun heq => hentry (Option.some.inj heq)

lemma act_clean (hq : Quiet op = true) (h : Clean disk) : Clean (disk.act op fault).1 := by
  have hchanged := act_changed disk op fault
  generalize (disk.act op fault).1 = d at hchanged
  cases hchanged with
  | same => exact h
  | madeSys | madeAccounts => simp [Clean]
  | set _ hentry => exact h.set hentry
  | renamed => simp [Quiet] at hq

end

abbrev act : Disk × Log → (op : Op) → Option Fault → (Disk × Log) × Ans op := logged Disk.act

/-- The old database is still the one that a boot finds. -/
structure Held (before : Disk) (s : Disk × Log) : Prop where
  users : s.1.users = before.users
  stays : movedAway s.2 = false
  clean : Clean before → Clean s.1

variable {before : Disk} {s : Disk × Log}

lemma Held.quiet (h : Held before s) (o : Op) (hq : Quiet o = true) (fault : Option Fault) :
    Held before (act s o fault).1 where
  users := (act_users hq).trans h.users
  stays := by
    simp only [act, logged, movedAway_append, act_moves hq]
    exact h.stays
  clean hbefore := act_clean hq (h.clean hbefore)

variable {I : Disk × Log → Prop} {α : Type} {Q : Disk × Log → α → Prop}

lemma safe_quiet {o : Op}
    {next : Ans o → Program α} (hI : ∀ s, Held before s → I s) (h : Held before s)
    (hq : Quiet o = true) (hnext : ∀ s' answer fault, Held before s' → s'.1 = (s.1.act o fault).1 →
      answer = (s.1.act o fault).2 → Safe act I Q s' (next answer)) :
    Safe act I Q s (.call o next) :=
  ⟨hI s h, fun fault => hnext _ _ fault (h.quiet o hq fault) rfl rfl⟩

variable {fault : Option Fault}

lemma mkdirSys_ok
    (h : .ok () = (disk.act .mkdirSys fault).2) : (disk.act .mkdirSys fault).1.sys = some .directory := by
  cases fault with
  | some fault => cases h
  | none =>
    by_cases hsys : disk.sys = none
    · simp [Disk.act, hsys]
    · simp [Disk.act, hsys] at h

lemma mkdirAccounts_ok (hsys : disk.sys = some .directory)
    (h : .ok () = (disk.act .mkdirAccounts fault).2) : Ready (disk.act .mkdirAccounts fault).1 := by
  cases fault with
  | some fault => cases h
  | none =>
    by_cases haccounts : disk.accounts = none
    · simp [Disk.act, haccounts, Ready, hsys]
    · simp [Disk.act, haccounts] at h

lemma lookupAccounts_ok
    (h : .ok .directory = (disk.act .lookupAccounts fault).2) : Ready disk := by
  cases fault with
  | some fault => cases h
  | none =>
    by_cases hsys : disk.sys = some .directory
    · cases haccounts : disk.accounts with
      | none => simp [Disk.act, hsys, haccounts] at h
      | some kind =>
        simp only [Disk.act, hsys, haccounts, if_true, Except.ok.injEq] at h
        exact ⟨hsys, h ▸ haccounts⟩
    · simp [Disk.act, hsys] at h

lemma findOrMakeSys_safe (h : Held before s) : Safe act (Held before)
    (fun s r => r = .ok .directory → s.1.sys = some .directory) s findOrMakeSys := by
  refine safe_quiet (fun _ => id) h rfl fun s1 answer fault h1 hs1 hans => ?_
  cases answer with
  | some kind =>
    refine ⟨h1, fun hr => ?_⟩
    cases hr
    cases fault with
    | some fault => cases hans
    | none =>
      rw [hs1]
      exact hans.symm
  | none =>
    refine safe_quiet (fun _ => id) h1 rfl fun s2 answer fault h2 hs2 hans => ?_
    cases answer with
    | error e => exact ⟨h2, nofun⟩
    | ok u => exact ⟨h2, fun _ => hs2 ▸ mkdirSys_ok hans⟩

lemma findOrMakeAccounts_safe (h : Held before s) (hsys : s.1.sys = some .directory) :
    Safe act (Held before) (fun s r => r = .ok () → Ready s.1) s findOrMakeAccounts := by
  refine safe_quiet (fun _ => id) h rfl fun s1 answer fault h1 hs1 hans => ?_
  have hsame : s1.1 = s.1 := by cases fault <;> exact hs1
  cases answer with
  | some kind =>
    cases kind with
    | file => exact ⟨h1, nofun⟩
    | directory =>
      refine ⟨h1, fun _ => ?_⟩
      cases fault with
      | some fault => cases hans
      | none => exact hsame ▸ ⟨hsys, hans.symm⟩
  | none =>
    refine safe_quiet (fun _ => id) h1 rfl fun s2 answer fault h2 hs2 hans => ?_
    refine ⟨h2, fun hr => ?_⟩
    rw [hs2]
    exact mkdirAccounts_ok (hsame ▸ hsys) (hr ▸ hans)

lemma storageDirectory_safe (h : Held before s) : Safe act (Held before)
    (fun s r => r = .ok () → Ready s.1) s storageDirectory := by
  refine safe_quiet (fun _ => id) h rfl fun s1 answer fault h1 hs1 hans => ?_
  have hsame : s1.1 = s.1 := by cases fault <;> exact hs1
  cases answer with
  | ok kind =>
    cases kind with
    | file => exact ⟨h1, nofun⟩
    | directory => exact ⟨h1, fun _ => hsame ▸ lookupAccounts_ok hans⟩
  | error e =>
    cases e with
    | notFound =>
      refine (findOrMakeSys_safe h1).bind fun s2 made h2 hmade => ?_
      rcases made with e | kind
      · exact ⟨h2, nofun⟩
      · cases kind with
        | file => exact ⟨h2, nofun⟩
        | directory => exact findOrMakeAccounts_safe h2 (hmade rfl)
    | noMem | unsupported | notEmpty | accessDenied | notDirectory | io | other => exact ⟨h1, nofun⟩

lemma act_ready (h : Ready disk) (o : Op) (fault : Option Fault) :
    Ready (disk.act o fault).1 := by
  have hchanged := act_changed disk o fault
  generalize (disk.act o fault).1 = d at hchanged
  cases hchanged with
  | madeSys hsys => cases hsys.symm.trans h.1
  | madeAccounts => exact ⟨h.1, rfl⟩
  | same | set | renamed => exact h

lemma removeLeftover_safe {name : Name} (hname : name ≠ .users) (h : Held before s)
    (hready : Ready s.1) :
    Safe act (Held before) (fun s _ => Ready s.1) s (removeLeftover name) := by
  refine safe_quiet (fun _ => id) h rfl fun s1 answer fault h1 hs1 _ => ?_
  have hready1 : Ready s1.1 := hs1 ▸ act_ready hready _ _
  cases answer with
  | none => exact ⟨h1, hready1⟩
  | some kind =>
    cases kind with
    | directory => exact ⟨h1, hready1⟩
    | file =>
      refine safe_quiet (fun _ => id) h1 (by simpa [Quiet] using hname)
        fun s2 answer fault h2 hs2 _ => ?_
      have hready2 : Ready s2.1 := hs2 ▸ act_ready hready1 _ _
      cases answer <;> exact ⟨h2, hready2⟩

variable {contents : List UInt8}

lemma write_complete {name : Name}
    (h : (disk.act (.write name contents) fault).2 = contents.length) :
    (disk.act (.write name contents) fault).1.entries name = some (.file contents) := by
  cases fault with
  | none => simp [Disk.act, Disk.set]
  | some fault =>
    have hall : contents.length ≤ fault.amount := by
      simpa [Disk.act] using h
    simp [Disk.act, Disk.set, List.take_of_length_le hall]

lemma writeTemporary_safe (h : Held before s) (hready : Ready s.1) :
    Safe act (Held before) (fun s r => Ready s.1 ∧
      (r = .ok () → s.1.entries .usersNew = some (.file contents))) s (writeTemporary contents) := by
  refine safe_quiet (fun _ => id) h rfl fun s1 answer fault h1 hs1 _ => ?_
  have hready1 : Ready s1.1 := hs1 ▸ act_ready hready _ _
  cases answer with
  | error e => exact ⟨h1, hready1, nofun⟩
  | ok u =>
    refine safe_quiet (fun _ => id) h1 rfl fun s2 count fault h2 hs2 hans => ?_
    refine ⟨h2, hs2 ▸ act_ready hready1 _ _, fun hr => ?_⟩
    have hcount : count = contents.length := by
      by_contra hne
      rw [if_neg hne] at hr
      cases hr
    rw [hs2]
    exact write_complete (hans ▸ hcount)

/-- The database is the old one or the new text while it was not moved away, and there is none once
it was. -/
structure Kept (before : Disk) (text : List UInt8) (s : Disk × Log) : Prop where
  stays : movedAway s.2 = false → s.1.users = before.users ∨ s.1.users = some (.file text)
  away : movedAway s.2 = true → s.1.users = none
  clean : Clean before → Clean s.1

/-- After success the new text is in place; after a failure the old database is, or none. -/
structure Replaced (before : Disk) (text : List UInt8) (s : Disk × Log) (result : Result) : Prop where
  installed : result = .ok → s.1.users = some (.file text)
  failed : result ≠ .ok → s.1.users = before.users ∨ s.1.users = none

variable {text : List UInt8}

lemma Held.kept (h : Held before s) : Kept before text s where
  stays _ := .inl h.users
  away hmoved := absurd (h.stays.symm.trans hmoved) nofun
  clean := h.clean

lemma Kept.quiet (h : Kept before text s) (o : Op) (hq : Quiet o = true)
    (fault : Option Fault) : Kept before text (act s o fault).1 where
  stays hmoved := by
    simp only [act, logged, movedAway_append, act_moves hq] at hmoved
    simpa only [act, logged, act_users hq] using h.stays hmoved
  away hmoved := by
    simp only [act, logged, movedAway_append, act_moves hq] at hmoved
    simpa only [act, logged, act_users hq] using h.away hmoved
  clean hbefore := act_clean hq (h.clean hbefore)

lemma result_ne_ok (e : VfsError) : e.result ≠ .ok := by
  cases e <;> decide

lemma dropTemporary_safe {result : Result} (h : Kept before text s)
    (hq : Replaced before text s result) :
    Safe act (Kept before text) (Replaced before text) s (dropTemporary result) := by
  refine ⟨h, fun fault => ⟨h.quiet (.unlink .usersNew) rfl fault, ?_⟩⟩
  have husers : (act s (.unlink .usersNew) fault).1.1.users = s.1.users := act_users rfl
  exact ⟨fun hr => husers.trans (hq.installed hr), fun hr => husers.symm ▸ hq.failed hr⟩

lemma rename_cases (disk : Disk) (source target : Name) (fault : Option Fault) :
    ((disk.act (.rename source target) fault).2 = .ok () ∧ ∃ entry,
      disk.entries source = some entry ∧ disk.entries target = none ∧
        (disk.act (.rename source target) fault).1 =
          (disk.set source none).set target (some entry)) ∨
    ∃ e, (disk.act (.rename source target) fault).2 = .error e ∧
      (disk.act (.rename source target) fault).1 = disk := by
  cases fault with
  | some fault => exact .inr ⟨fault.error, rfl, rfl⟩
  | none =>
    cases hsource : disk.entries source with
    | none => exact .inr ⟨.notFound, by simp [Disk.act, hsource], by simp [Disk.act, hsource]⟩
    | some entry =>
      cases htarget : disk.entries target with
      | none =>
        exact .inl ⟨by simp [Disk.act, hsource, htarget], entry, rfl, rfl,
          by simp [Disk.act, hsource, htarget]⟩
      | some other =>
        exact .inr ⟨.other, by simp [Disk.act, hsource, htarget],
          by simp [Disk.act, hsource, htarget]⟩

lemma safe_rename {source target : Name} {next : Except VfsError Unit → Program α} (hI : I s)
    (hdone : ∀ s' entry, s.1.entries source = some entry → s.1.entries target = none →
      s'.1 = (s.1.set source none).set target (some entry) →
      movedAway s'.2 = moves (movedAway s.2) ⟨.rename source target, .ok ()⟩ →
      Safe act I Q s' (next (.ok ())))
    (hfailed : ∀ s' e, s'.1 = s.1 → movedAway s'.2 = movedAway s.2 →
      Safe act I Q s' (next (.error e))) : Safe act I Q s (.call (.rename source target) next) := by
  refine ⟨hI, fun fault => ?_⟩
  change Safe act I Q ((s.1.act (.rename source target) fault).1, s.2 ++
    [⟨.rename source target, (s.1.act (.rename source target) fault).2⟩])
    (next (s.1.act (.rename source target) fault).2)
  rcases rename_cases s.1 source target fault with ⟨hok, entry, hsource, htarget, hdisk⟩ |
    ⟨e, herr, hdisk⟩
  · rw [hok]
    exact hdone _ entry hsource htarget hdisk (movedAway_append _ _)
  · rw [herr]
    refine hfailed _ e hdisk ((movedAway_append _ _).trans ?_)
    cases source <;> cases target <;> rfl

lemma kept_renamed {source : Name} {entry : Entry} {s1 : Disk × Log} (hready : Ready s.1)
    (hclean : Clean before → Clean s.1) (hmoved : movedAway s1.2 = false)
    (hs1 : s1.1 = (s.1.set source none).set .users (some entry))
    (hentry : some entry = before.users ∨ entry = .file text)
    (hfile : Clean before → entry ≠ .directory) :
    s1.1.users = some entry ∧ Kept before text s1 := by
  have hready1 : Ready s1.1 := hs1 ▸ hready
  have husers : s1.1.users = some entry := by
    rw [users_of_ready hready1, hs1]
    simp [Disk.set]
  refine ⟨husers, fun _ => ?_, fun hm => absurd (hmoved.symm.trans hm) nofun, fun hbefore => ?_⟩
  · rw [husers]
    exact hentry.imp_right (congrArg some)
  · rw [hs1]
    exact (hclean hbefore).rename (hfile hbefore)

lemma installTemporary_safe (h : Held before s) (hready : Ready s.1)
    (hnew : s.1.entries .usersNew = some (.file text)) :
    Safe act (Kept before text) (Replaced before text) s (installTemporary false) := by
  refine safe_rename h.kept (fun s1 entry hsource _ hs1 hmoved => ?_) fun s1 e hs1 hmoved => ?_
  · obtain rfl : Entry.file text = entry := Option.some.inj (hnew.symm.trans hsource)
    obtain ⟨husers, hkept⟩ := kept_renamed hready h.clean hmoved hs1 (.inr rfl) fun _ => nofun
    exact ⟨hkept, fun _ => husers, fun hr => absurd rfl hr⟩
  · have hheld : Held before s1 := ⟨hs1 ▸ h.users, hmoved.trans h.stays, hs1 ▸ h.clean⟩
    exact dropTemporary_safe hheld.kept ⟨fun hr => absurd hr (result_ne_ok e), fun _ => .inl hheld.users⟩

/-- The old database has been moved aside, the new one is not yet in place. -/
structure Aside (before : Disk) (text : List UInt8) (s : Disk × Log) : Prop where
  ready : Ready s.1
  users : s.1.entries .users = none
  moved : movedAway s.2 = true
  new : s.1.entries .usersNew = some (.file text)
  old : s.1.entries .usersOld = before.users
  clean : Clean before → Clean s.1

lemma Aside.kept (h : Aside before text s) : Kept before text s :=
  ⟨fun hm => absurd (h.moved.symm.trans hm) nofun, fun _ => (users_of_ready h.ready).trans h.users,
    h.clean⟩

lemma installTemporary_safe_aside (h : Aside before text s) :
    Safe act (Kept before text) (Replaced before text) s (installTemporary true) := by
  refine safe_rename h.kept (fun s1 entry hsource _ hs1 hmoved => ?_) fun s1 e hs1 hmoved => ?_
  · obtain rfl : Entry.file text = entry := Option.some.inj (h.new.symm.trans hsource)
    obtain ⟨husers, hkept⟩ := kept_renamed h.ready h.clean hmoved hs1 (.inr rfl) fun _ => nofun
    refine ⟨hkept, fun fault => ⟨hkept.quiet (.unlink .usersOld) rfl fault, fun _ => ?_,
      fun hr => absurd rfl hr⟩⟩
    exact (act_users rfl).trans husers
  · have haside : Aside before text s1 :=
      ⟨hs1 ▸ h.ready, hs1 ▸ h.users, hmoved.trans h.moved, hs1 ▸ h.new, hs1 ▸ h.old, hs1 ▸ h.clean⟩
    refine safe_rename haside.kept (fun s2 entry hsource _ hs2 hmoved => ?_)
      fun s2 e' hs2 hmoved => ?_
    · have hbefore := hsource.symm.trans haside.old
      have hfile : Clean before → entry ≠ .directory := by
        rintro hclean rfl
        exact haside.clean hclean .usersOld nofun hsource
      obtain ⟨husers, hkept⟩ := kept_renamed haside.ready haside.clean hmoved hs2 (.inl hbefore) hfile
      exact dropTemporary_safe hkept ⟨fun hr => absurd hr (result_ne_ok e), fun _ => .inl (husers.trans hbefore)⟩
    · have haside2 : Aside before text s2 :=
        ⟨hs2 ▸ haside.ready, hs2 ▸ haside.users, hmoved.trans haside.moved, hs2 ▸ haside.new,
          hs2 ▸ haside.old, hs2 ▸ haside.clean⟩
      exact dropTemporary_safe haside2.kept ⟨fun hr => absurd hr (result_ne_ok e),
        fun _ => .inr ((users_of_ready haside2.ready).trans haside2.users)⟩

lemma replaceUsers_safe (h : Held before s) (hready : Ready s.1)
    (hnew : s.1.entries .usersNew = some (.file text)) :
    Safe act (Kept before text) (Replaced before text) s replaceUsers := by
  refine safe_quiet (fun _ => Held.kept) h rfl fun s1 answer fault h1 hs1 hans => ?_
  have hsame : s1.1 = s.1 := by cases fault <;> exact hs1
  have hready1 : Ready s1.1 := hsame ▸ hready
  have hnew1 := hsame ▸ hnew
  cases answer with
  | none => exact installTemporary_safe h1 hready1 hnew1
  | some kind =>
    cases kind with
    | directory => exact dropTemporary_safe h1.kept ⟨nofun, fun _ => .inl h1.users⟩
    | file =>
      have hkind : (s.1.entries .users).map Entry.kind = some .file := by
        cases fault with
        | some fault => cases hans
        | none => exact hans.symm
      refine safe_rename h1.kept (fun s2 entry hsource _ hs2 hmoved => ?_) fun s2 e hs2 hmoved => ?_
      · have hready2 : Ready s2.1 := hs2 ▸ hready1
        have hbefore : before.users = some entry := by
          rw [← h1.users, users_of_ready hready1, hsource]
        refine installTemporary_safe_aside ⟨hready2, ?_, hmoved, ?_, ?_, fun hclean => ?_⟩
        · rw [hs2]
          simp [Disk.set]
        · rw [hs2]
          simpa [Disk.set] using hnew1
        · rw [hs2, hbefore]
          simp [Disk.set]
        · rw [hs2]
          refine (h1.clean hclean).rename ?_
          rintro rfl
          rw [← hsame, hsource] at hkind
          cases hkind
      · have hheld : Held before s2 := ⟨hs2 ▸ h1.users, hmoved.trans h1.stays, hs2 ▸ h1.clean⟩
        exact dropTemporary_safe hheld.kept
          ⟨fun hr => absurd hr (result_ne_ok e), fun _ => .inl hheld.users⟩

lemma persistContents_safe (h : Held before s) :
    Safe act (Kept before text) (Replaced before text) s (persistContents text) := by
  have hstop {s : Disk × Log} {result : Result} (h : Held before s) (hr : result ≠ .ok) :
      Safe act (Kept before text) (Replaced before text) s (.done result) :=
    ⟨h.kept, fun hok => absurd hok hr, fun _ => .inl h.users⟩
  have hlift {α : Type} {R : Disk × Log → α → Prop} {p : Program α} {s : Disk × Log}
      (h : Safe act (Held before) R s p) :
      Safe act (Kept before text) (fun s a => Held before s ∧ R s a) s p :=
    h.imp (fun _ => Held.kept) fun _ _ hs hr => ⟨hs, hr⟩
  refine (hlift (storageDirectory_safe h)).bind fun s1 made _ ⟨h1, hready1⟩ => ?_
  rcases made with e | u
  · exact hstop h1 (result_ne_ok e)
  have hnew : Name.usersNew ≠ .users := nofun
  have hold : Name.usersOld ≠ .users := nofun
  refine (hlift (removeLeftover_safe hnew h1 (hready1 rfl))).bind fun s2 new _ ⟨h2, hready2⟩ => ?_
  cases new with
  | false => exact hstop h2 nofun
  | true =>
    refine (hlift (removeLeftover_safe hold h2 hready2)).bind fun s3 old _ ⟨h3, hready3⟩ => ?_
    cases old with
    | false => exact hstop h3 nofun
    | true =>
      refine safe_quiet (fun _ => Held.kept) h3 rfl fun s4 answer fault h4 hs4 _ => ?_
      have hready4 : Ready s4.1 := hs4 ▸ act_ready hready3 _ _
      cases answer with
      | error e => exact hstop h4 (result_ne_ok e)
      | ok u =>
        refine (hlift (writeTemporary_safe h4 hready4)).bind fun s5 wrote _ ⟨h5, hready5, hnew⟩ => ?_
        rcases wrote with e | u
        · exact dropTemporary_safe h5.kept
            ⟨fun hr => absurd hr (result_ne_ok e), fun _ => .inl h5.users⟩
        · exact replaceUsers_safe h5 hready5 (hnew rfl)

lemma persistRegistry_safe (h : Held before s) (registry : Registry) :
    (∃ text, serializeDatabase registry dbMaxBytes = some text ∧
      Safe act (Kept before text) (Replaced before text) s (persistRegistry registry)) ∨
    (serializeDatabase registry dbMaxBytes = none ∧
      Safe act (Held before) (fun s r => r ≠ .ok ∧ s.1.users = before.users) s
        (persistRegistry registry)) := by
  cases htext : serializeDatabase registry dbMaxBytes with
  | none =>
    refine .inr ⟨rfl, safe_quiet (fun _ => id) h rfl fun s1 answer fault h1 _ _ => ?_⟩
    cases answer with
    | false => exact ⟨h1, nofun, h1.users⟩
    | true =>
      simp only [htext]
      exact ⟨h1, nofun, h1.users⟩
  | some text =>
    refine .inl ⟨text, rfl, safe_quiet (fun _ => Held.kept) h rfl fun s1 answer fault h1 _ _ => ?_⟩
    cases answer with
    | false => exact ⟨h1.kept, nofun, fun _ => .inl h1.users⟩
    | true =>
      simp only [htext]
      exact persistContents_safe h1

def Between (disk : Disk) (registry : Registry) (d : Disk) : Prop :=
  d.users = disk.users ∨ d.users = none ∨
    ∃ text, serializeDatabase registry dbMaxBytes = some text ∧ d.users = some (.file text)

/-- How persisting a registry leaves the files. -/
structure Persisted (disk : Disk) (registry : Registry) (d : Disk) (result : Result) : Prop where
  installed : result = .ok →
    ∃ text, serializeDatabase registry dbMaxBytes = some text ∧ d.users = some (.file text)
  failed : result ≠ .ok → d.users = disk.users ∨ d.users = none

lemma persist_safe (disk : Disk) (registry : Registry) :
    Safe Disk.act (Between disk registry) (Persisted disk registry) disk
      (persistRegistry registry) := by
  have hstart : Held disk (disk, []) := ⟨rfl, rfl, id⟩
  rcases persistRegistry_safe hstart registry with ⟨text, htext, hsafe⟩ | ⟨-, hsafe⟩
  · refine hsafe.of_logged.imp ?_ ?_
    · rintro d ⟨log, hkept⟩
      by_cases hmoved : movedAway log = true
      · exact .inr (.inl (hkept.away hmoved))
      · rcases hkept.stays (by simpa using hmoved) with husers | husers
        · exact .inl husers
        · exact .inr (.inr ⟨text, htext, husers⟩)
    · rintro d r - ⟨log, hreplaced⟩
      exact ⟨fun hr => ⟨text, htext, hreplaced.installed hr⟩, hreplaced.failed⟩
  · refine hsafe.of_logged.imp ?_ ?_
    · rintro d ⟨log, hheld⟩
      exact .inl hheld.users
    · rintro d r - ⟨log, hr, husers⟩
      exact ⟨fun hok => absurd hok hr, fun _ => .inl husers⟩

end Mangrove.Identity
