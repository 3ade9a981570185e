import Mangrove.Lib.Text

/-! Credentials and privileges; accounts, the registry that holds them, and the text of the account
database: what `serialize_database` writes, `parse_database` reads back. -/

namespace Mangrove.Pass

inductive Role where
  | regular
  | admin
  | system
deriving DecidableEq

/-- Who asks, as the kernel keeps it with a process. -/
structure Credentials where
  uid : UInt32
  role : Role
  servicePrivileges : UInt32
deriving DecidableEq

/-- What authorization reads of an account record. -/
structure Account where
  uid : UInt32
  role : Role

structure Registry where
  loaded : Bool
  users : List Account

def uidSystem : UInt32 := 0

def privilegeManageUsers : Nat := 1

def privilegeManageNetwork : Nat := 2

def privilegeManageSessions : Nat := 3

def privilegeManageConfiguration : Nat := 4

def privilegeManageServices : Nat := 5

def privilegeManageDevices : Nat := 6

def privilegeManageStorage : Nat := 7

def privilegeManageUserData : Nat := 8

def privilegeMask (privilege : Nat) : UInt32 := 1 <<< (UInt32.ofNat privilege - 1)

def servicePrivilegesKnown : UInt32 :=
  privilegeMask privilegeManageSessions ||| privilegeMask privilegeManageServices |||
    privilegeMask privilegeManageNetwork ||| privilegeMask privilegeManageConfiguration |||
    privilegeMask privilegeManageDevices ||| privilegeMask privilegeManageStorage

def credentialsValid (credentials : Credentials) : Bool :=
  if credentials.servicePrivileges &&& ~~~servicePrivilegesKnown ≠ 0 then false
  else if credentials.uid = uidSystem then credentials.role = .system
  else (credentials.role = .regular || credentials.role = .admin) &&
    credentials.servicePrivileges = 0

def credentialsIsSystem (credentials : Credentials) : Bool := credentials.uid = uidSystem

/-- `identity_registry_lookup_uid`, as far as the role is concerned. -/
def registryLookupUid (registry : Registry) (uid : UInt32) : Option Role :=
  if registry.loaded = false then none
  else if uid = uidSystem then some .system
  else (registry.users.find? fun user => user.uid = uid).map Account.role

def credentialsHasPrivilege (registry : Registry) (credentials : Credentials) (privilege : Nat) :
    Bool :=
  if privilege < privilegeManageUsers ∨ privilegeManageUserData < privilege ∨
      credentialsValid credentials = false then false
  else if credentials.servicePrivileges &&& privilegeMask privilege ≠ 0 then true
  else if privilege = privilegeManageSessions ∨ credentialsIsSystem credentials = true then false
  else registryLookupUid registry credentials.uid = some .admin

def passwordMaxLength : Nat := 128

def passMessageMax : Nat := 192

inductive PassResult where
  | allowed
  | denied
  | authenticationFailed
  | cancelled
  | privilegeRequired
  | badArgument
  | serviceUnavailable
deriving DecidableEq

end Mangrove.Pass

namespace Mangrove.Identity

open Text Pass

/-- A user record of the database. -/
structure User where
  uid : UInt32
  username : List UInt8
  role : Role
  home : List UInt8
  flags : UInt32
deriving DecidableEq

/-- How the password of an account is stored. -/
structure Authentication where
  algorithm : UInt32
  iterations : UInt32
  salt : List.Vector UInt8 16
  hash : List.Vector UInt8 32
deriving DecidableEq

structure Account where
  user : User
  authentication : Authentication
deriving DecidableEq

structure Registry where
  accounts : List Account
  nextUid : UInt32
deriving DecidableEq

def usernameCapacity : Nat := 32

def homeCapacity : Nat := 256

def maxRecords : Nat := 64

def firstUserUid : UInt32 := 1001

def flagInitial : UInt32 := 1

def authNone : UInt32 := 0

def authPbkdf2Sha256 : UInt32 := 1

def passwordIterations : UInt32 := 120000

def minIterations : UInt32 := 10000

def maxIterations : UInt32 := 1000000

def isLower (c : UInt8) : Bool := 0x61 ≤ c ∧ c ≤ 0x7a

def isUpper (c : UInt8) : Bool := 0x41 ≤ c ∧ c ≤ 0x5a

def isDigit (c : UInt8) : Bool := 0x30 ≤ c ∧ c ≤ 0x39

def stringValid (value : List UInt8) (capacity : Nat) : Bool :=
  value ≠ [] ∧ value.length < capacity

def usernameChar (c : UInt8) : Bool := isLower c || isDigit c || c = 0x5f || c = 0x2d

/-- A user name: lower case, digits, `_` and `-`, starting with a letter. -/
def usernameValid (username : List UInt8) : Bool :=
  stringValid username usernameCapacity && isLower (username.headD 0) && username.all usernameChar

def homeChar (c : UInt8) : Bool :=
  isLower c || isUpper c || isDigit c || c = 0x5f || c = 0x2d || c = 0x2e

def componentValid (component : List UInt8) : Bool :=
  component.all homeChar && component ≠ [] && component ≠ [0x2e] && component ≠ [0x2e, 0x2e]

/-- An absolute path without empty, `.` or `..` components. -/
def homePathValid (home : List UInt8) : Bool :=
  stringValid home homeCapacity && home.headD 0 = 0x2f && home ≠ [0x2f] &&
    (home.tail.splitOnP fun c => c = 0x2f).all componentValid

def homeOf (username : List UInt8) : List UInt8 := ascii "/home/" ++ username

def accountHomeMatches (user : User) : Bool :=
  usernameValid user.username && user.username.length + 6 < homeCapacity &&
    user.home = homeOf user.username

def userValid (user : User) : Bool :=
  user.uid ≠ uidSystem && (user.role = .regular || user.role = .admin) &&
    user.flags &&& ~~~flagInitial = 0 && usernameValid user.username && homePathValid user.home &&
    accountHomeMatches user

def noAuthentication : Authentication := ⟨authNone, 0, .replicate 16 0, .replicate 32 0⟩

def passwordAuthValid (authentication : Authentication) : Bool :=
  if authentication.algorithm = authNone then
    authentication.iterations = 0 && authentication.salt.toList.all (· = 0) &&
      authentication.hash.toList.all (· = 0)
  else authentication.algorithm = authPbkdf2Sha256 &&
    minIterations ≤ authentication.iterations && authentication.iterations ≤ maxIterations

def isInitial (account : Account) : Bool := account.user.flags &&& flagInitial ≠ 0

def isAdmin (account : Account) : Bool := account.user.role = .admin

def Distinct (a b : Account) : Prop :=
  a.user.uid ≠ b.user.uid ∧ a.user.username ≠ b.user.username

instance : DecidableRel Distinct := fun a b =>
  inferInstanceAs (Decidable (a.user.uid ≠ b.user.uid ∧ a.user.username ≠ b.user.username))

def accountValid (nextUid : UInt32) (account : Account) : Bool :=
  userValid account.user && account.user.uid < nextUid && passwordAuthValid account.authentication

/-- What the parser demands of a whole registry. -/
def registryValid (registry : Registry) : Bool :=
  registry.accounts ≠ [] && registry.accounts.length ≤ maxRecords &&
    firstUserUid ≤ registry.nextUid && registry.accounts.all (accountValid registry.nextUid) &&
    decide (registry.accounts.Pairwise Distinct) && registry.accounts.countP isInitial = 1

def Registry.find (registry : Registry) (username : List UInt8) : Option Nat :=
  registry.accounts.findIdx? fun account => account.user.username = username

def Registry.adminCount (registry : Registry) : Nat := registry.accounts.countP isAdmin

variable {registry : Registry}

lemma registryValid_iff : registryValid registry = true ↔
    registry.accounts ≠ [] ∧ registry.accounts.length ≤ maxRecords ∧
      firstUserUid ≤ registry.nextUid ∧
      (∀ account ∈ registry.accounts, accountValid registry.nextUid account = true) ∧
      registry.accounts.Pairwise Distinct ∧ registry.accounts.countP isInitial = 1 := by
  simp [registryValid, and_assoc]

variable {account : Account} {nextUid : UInt32}

lemma accountValid_iff :
    accountValid nextUid account = true ↔ userValid account.user = true ∧
      account.user.uid < nextUid ∧ passwordAuthValid account.authentication = true := by
  simp [accountValid, and_assoc]

lemma userValid_iff {user : User} : userValid user = true ↔ user.uid ≠ uidSystem ∧
    (user.role = .regular ∨ user.role = .admin) ∧ user.flags &&& ~~~flagInitial = 0 ∧
      usernameValid user.username = true ∧ homePathValid user.home = true ∧
      accountHomeMatches user = true := by
  simp [userValid, and_assoc]

variable {username : List UInt8}

lemma usernameValid_chars (h : usernameValid username = true) :
    username ≠ [] ∧ username.length < usernameCapacity ∧ ∀ c ∈ username, usernameChar c = true := by
  simp only [usernameValid, stringValid, Bool.and_eq_true, decide_eq_true_eq, List.all_eq_true] at h
  exact ⟨h.1.1.1, h.1.1.2, h.2⟩

lemma home_of_matches {user : User} (h : accountHomeMatches user = true) :
    user.home = homeOf user.username := by
  simp only [accountHomeMatches, Bool.and_eq_true, decide_eq_true_eq] at h
  exact h.2

lemma eq_noAuthentication {authentication : Authentication}
    (h : passwordAuthValid authentication = true) (hnone : authentication.algorithm = authNone) :
    authentication = noAuthentication := by
  obtain ⟨algorithm, iterations, salt, hash⟩ := authentication
  subst hnone
  simp only [passwordAuthValid, if_pos, Bool.and_eq_true, decide_eq_true_eq, List.all_eq_true] at h
  obtain ⟨⟨rfl, hsalt⟩, hhash⟩ := h
  have hzero {n : Nat} {v : List.Vector UInt8 n} (hv : ∀ b ∈ v.toList, b = 0) :
      v = .replicate n 0 := by
    apply List.Vector.toList_injective
    rw [List.eq_replicate_of_mem hv, v.toList_length]
    rfl
  rw [noAuthentication, hzero hsalt, hzero hhash]

def dbMaxBytes : Nat := 16384

def appendBytes (capacity : Nat) (buffer text : List UInt8) : Option (List UInt8) :=
  if capacity < buffer.length ∨ capacity - buffer.length < text.length then none
  else some (buffer ++ text)

def appendText (capacity : Nat) (s : String) (buffer : List UInt8) : Option (List UInt8) :=
  appendBytes capacity buffer (ascii s)

def u32Digits (value : UInt32) : List UInt8 :=
  if value = 0 then [0x30] else (digitsFrom 10 value.toNat).reverse

def appendU32 (capacity : Nat) (value : UInt32) (buffer : List UInt8) : Option (List UInt8) :=
  (u32Digits value).foldlM (fun buffer digit => appendBytes capacity buffer [digit]) buffer

def appendHex (capacity : Nat) (data : List UInt8) (buffer : List UInt8) : Option (List UInt8) :=
  data.foldlM (fun buffer byte => appendBytes capacity buffer (hexPair byte)) buffer

def roleName (role : Role) : String := if role = .admin then "admin" else "regular"

def flagsName (flags : UInt32) : String := if flags &&& flagInitial ≠ 0 then "initial" else "none"

def serializeAuthentication (capacity : Nat) (authentication : Authentication)
    (buffer : List UInt8) : Option (List UInt8) :=
  if authentication.algorithm = authNone then appendText capacity " auth=none\n" buffer
  else if authentication.algorithm = authPbkdf2Sha256 then
    appendText capacity " auth=pbkdf2-sha256 salt=" buffer
      >>= appendHex capacity authentication.salt.toList
      >>= appendText capacity " iterations="
      >>= appendU32 capacity authentication.iterations
      >>= appendText capacity " hash="
      >>= appendHex capacity authentication.hash.toList
      >>= appendText capacity "\n"
  else none

def serializeAccount (capacity : Nat) (buffer : List UInt8) (account : Account) :
    Option (List UInt8) :=
  appendText capacity "account uid=" buffer
    >>= appendU32 capacity account.user.uid
    >>= appendText capacity " username="
    >>= (appendBytes capacity · account.user.username)
    >>= appendText capacity " role="
    >>= appendText capacity (roleName account.user.role)
    >>= appendText capacity " home="
    >>= (appendBytes capacity · account.user.home)
    >>= appendText capacity " flags="
    >>= appendText capacity (flagsName account.user.flags)
    >>= serializeAuthentication capacity account.authentication

/-- The text of a registry, if it fits the buffer. -/
def serializeDatabase (registry : Registry) (capacity : Nat) : Option (List UInt8) :=
  if registryValid registry = false then none
  else
    appendText capacity "version=2\n" []
      >>= appendText capacity "next_uid="
      >>= appendU32 capacity registry.nextUid
      >>= appendText capacity "\n\n"
      >>= (registry.accounts.foldlM (serializeAccount capacity) ·)

def parseUid (text : List UInt8) : Option UInt32 :=
  if text = [] then none else (readDigits 0xffffffff text 0).map UInt32.ofNat

def parseRole (text : List UInt8) : Option Role :=
  if text = ascii "regular" then some .regular
  else if text = ascii "admin" then some .admin
  else none

def parseFlags (text : List UInt8) : Option UInt32 :=
  if text = ascii "none" then some 0
  else if text = ascii "initial" then some flagInitial
  else none

def copySpan (text : List UInt8) (capacity : Nat) : Option (List UInt8) :=
  if text = [] ∨ capacity ≤ text.length then none else some (text.takeWhile (· ≠ 0))

def isSpace (c : UInt8) : Bool := isBlank c || c = 0x0d

/-- What stands before `//` outside quotes. -/
def beforeComment : Bool → List UInt8 → Option (List UInt8)
  | quote, c :: d :: rest =>
    let quote := if c = 0x22 then !quote else quote
    if quote = false ∧ c = 0x2f ∧ d = 0x2f then some []
    else (beforeComment quote (d :: rest)).map (c :: ·)
  | _, _ => none

def trimLine (line : List UInt8) : Option (List UInt8) :=
  let line := (line.dropWhile isSpace).rdropWhile isSpace
  let line := match beforeComment false line with
    | some before => before.rdropWhile isBlank
    | none => line
  if line = [] then none else some line

/-- The fields of an account line as they are met, each at most once. -/
structure Fields where
  uid : Option UInt32 := none
  username : Option (List UInt8) := none
  role : Option Role := none
  home : Option (List UInt8) := none
  flags : Option UInt32 := none
  auth : Option (List UInt8) := none
  salt : Option (List.Vector UInt8 16) := none
  iterations : Option UInt32 := none
  hash : Option (List.Vector UInt8 32) := none
deriving DecidableEq

def once {α : Type} (seen parsed : Option α) : Option (Option α) :=
  if seen.isSome then none else parsed.map some

def setField (version : Nat) (fields : Fields) (key value : List UInt8) : Option Fields :=
  if key = ascii "uid" then
    (once fields.uid (parseUid value)).map fun v => { fields with uid := v }
  else if key = ascii "username" then
    (once fields.username (copySpan value usernameCapacity)).map fun v =>
      { fields with username := v }
  else if key = ascii "role" then
    (once fields.role (parseRole value)).map fun v => { fields with role := v }
  else if key = ascii "home" then
    (once fields.home (copySpan value homeCapacity)).map fun v => { fields with home := v }
  else if key = ascii "flags" then
    (once fields.flags (parseFlags value)).map fun v => { fields with flags := v }
  else if version = 2 ∧ key = ascii "auth" then
    (once fields.auth (copySpan value 32)).map fun v => { fields with auth := v }
  else if version = 2 ∧ key = ascii "salt" then
    (once fields.salt (readHex 16 value)).map fun v => { fields with salt := v }
  else if version = 2 ∧ key = ascii "iterations" then
    (once fields.iterations (parseUid value)).map fun v => { fields with iterations := v }
  else if version = 2 ∧ key = ascii "hash" then
    (once fields.hash (readHex 32 value)).map fun v => { fields with hash := v }
  else none

/-- One round of the loop of `parse_account_line`, which reads one word. -/
def parseField (version : Nat) (fields : Fields) (word : List UInt8) : Option Fields :=
  let key := word.takeWhile (· ≠ 0x3d)
  let value := (word.dropWhile (· ≠ 0x3d)).tail
  if key = [] ∨ word.dropWhile (· ≠ 0x3d) = [] ∨ value = [] then none
  else setField version fields key value

def Fields.user (fields : Fields) : Option User := do
  let user : User := ⟨← fields.uid, ← fields.username, ← fields.role, ← fields.home, ← fields.flags⟩
  if userValid user then some user else none

def Fields.authentication (fields : Fields) (algorithm : UInt32) : Authentication :=
  ⟨algorithm, fields.iterations.getD 0, fields.salt.getD (.replicate 16 0),
    fields.hash.getD (.replicate 32 0)⟩

def checked (authentication : Authentication) : Option Authentication :=
  if passwordAuthValid authentication then some authentication else none

def Fields.secret (fields : Fields) (version : Nat) : Option Authentication :=
  if version = 1 then checked (fields.authentication authNone)
  else match fields.auth with
    | none => none
    | some algorithm =>
      if algorithm = ascii "none" then
        if fields.salt.isSome ∨ fields.iterations.isSome ∨ fields.hash.isSome then none
        else checked (fields.authentication authNone)
      else if algorithm ≠ ascii "pbkdf2-sha256" ∨ fields.salt = none ∨ fields.iterations = none ∨
          fields.hash = none then none
      else checked (fields.authentication authPbkdf2Sha256)

/-- One account line of the given version of the format. -/
def parseAccountLine (version : Nat) (line : List UInt8) : Option Account :=
  let line := line.dropWhile isBlank
  let rest := line.drop 7
  if line.take 7 ≠ ascii "account" ∨ (rest ≠ [] ∧ isBlank (rest.headD 0) = false) then none
  else do
    let fields ← (words rest).foldlM (parseField version) {}
    return ⟨← fields.user, ← fields.secret version⟩

/-- What the parser has read so far. -/
structure Reading where
  version : Option Nat := none
  nextUid : Option UInt32 := none
  accounts : List Account := []
deriving DecidableEq

def parseVersion (line : List UInt8) : Option Nat :=
  if line = ascii "version=1" then some 1
  else if line = ascii "version=2" then some 2
  else none

def parseNextUid (line : List UInt8) : Option UInt32 :=
  if line.takeWhile (· ≠ 0x3d) ≠ ascii "next_uid" ∨ line.dropWhile (· ≠ 0x3d) = [] then none
  else parseUid (line.dropWhile (· ≠ 0x3d)).tail

def addAccount (reading : Reading) (account : Account) : Option Reading :=
  if reading.accounts.all fun other => Distinct other account then
    some { reading with accounts := reading.accounts ++ [account] }
  else none

def parseLine (reading : Reading) (line : List UInt8) : Option Reading :=
  match trimLine line with
  | none => some reading
  | some line =>
    match reading.version, reading.nextUid with
    | none, _ => (parseVersion line).map fun version => { reading with version := some version }
    | some _, none => (parseNextUid line).map fun uid => { reading with nextUid := some uid }
    | some version, some _ =>
      if maxRecords ≤ reading.accounts.length then none
      else (parseAccountLine version line).bind (addAccount reading)

/-- The registry in a text, and whether it should be rewritten in the current version. -/
def parseDatabase (text : List UInt8) : Option (Registry × Bool) :=
  if text = [] ∨ dbMaxBytes < text.length then none
  else do
    let reading ← (text.splitOnP (· = 0x0a)).foldlM parseLine {}
    let version ← reading.version
    let nextUid ← reading.nextUid
    if reading.accounts = [] ∨ reading.accounts.countP isInitial ≠ 1 ∨ nextUid < firstUserUid ∨
        reading.accounts.any (fun account => nextUid ≤ account.user.uid) then none
    else some (⟨reading.accounts, nextUid⟩, version = 1)

variable {capacity : Nat} {buffer text : List UInt8}

lemma appendBytes_some {b t : List UInt8} : appendBytes capacity buffer t = some b ↔
      b = buffer ++ t ∧ buffer.length ≤ capacity ∧ b.length ≤ capacity := by
  unfold appendBytes
  split_ifs with h
  · simp only [false_iff]
    rintro ⟨rfl, hb, ht⟩
    simp only [List.length_append] at ht
    omega
  · simp only [Option.some.injEq]
    constructor
    · rintro rfl
      simp only [List.length_append, true_and]
      omega
    · exact fun hb => hb.1.symm

lemma appendPieces_some {α : Type} {piece : α → List UInt8} {items : List α} {b : List UInt8}
    (h : items.foldlM (fun buffer item => appendBytes capacity buffer (piece item)) buffer = some b)
    (hb : buffer.length ≤ capacity) : b = buffer ++ items.flatMap piece ∧ b.length ≤ capacity := by
  induction items generalizing buffer with
  | nil =>
    obtain rfl := Option.some.inj h
    simpa using hb
  | cons item rest ih =>
    obtain ⟨b1, hfirst, hrest⟩ := Option.bind_eq_some_iff.mp h
    obtain ⟨rfl, -, hlen⟩ := appendBytes_some.mp hfirst
    simpa using ih hrest hlen

/-- A writer that appends the text, or fails if there is no room for it. -/
def Appends (capacity : Nat) (append : List UInt8 → Option (List UInt8)) (text : List UInt8) :
    Prop :=
  ∀ buffer b, buffer.length ≤ capacity → append buffer = some b →
    b = buffer ++ text ∧ b.length ≤ capacity

lemma Appends.bind {f g : List UInt8 → Option (List UInt8)} {s t : List UInt8}
    (hf : Appends capacity f s) (hg : Appends capacity g t) :
    Appends capacity (fun buffer => f buffer >>= g) (s ++ t) := by
  intro buffer b hb h
  obtain ⟨b1, hfirst, hrest⟩ := Option.bind_eq_some_iff.mp h
  obtain ⟨rfl, hlen⟩ := hf buffer b1 hb hfirst
  obtain ⟨rfl, hlen⟩ := hg _ b hlen hrest
  exact ⟨List.append_assoc .., hlen⟩

lemma appends_bytes (t : List UInt8) : Appends capacity (appendBytes capacity · t) t := by
  intro buffer b _ h
  obtain ⟨rfl, -, hlen⟩ := appendBytes_some.mp h
  exact ⟨rfl, hlen⟩

lemma appends_text (s : String) : Appends capacity (appendText capacity s) (ascii s) :=
  appends_bytes (ascii s)

lemma appends_u32 (value : UInt32) :
    Appends capacity (appendU32 capacity value) (u32Digits value) := by
  intro buffer b hb h
  simpa using appendPieces_some h hb

variable (data : List UInt8)

lemma appends_hex :
    Appends capacity (appendHex capacity data) (data.flatMap hexPair) :=
  fun _ _ hb h => appendPieces_some h hb

def field (key : String) (value : List UInt8) : List UInt8 := ascii key ++ 0x3d :: value

def authenticationWords (authentication : Authentication) : List (List UInt8) :=
  if authentication.algorithm = authNone then [field "auth" (ascii "none")]
  else [field "auth" (ascii "pbkdf2-sha256"),
    field "salt" (authentication.salt.toList.flatMap hexPair),
    field "iterations" (u32Digits authentication.iterations),
    field "hash" (authentication.hash.toList.flatMap hexPair)]

def accountWords (account : Account) : List (List UInt8) :=
  field "uid" (u32Digits account.user.uid) :: field "username" account.user.username ::
    field "role" (ascii (roleName account.user.role)) :: field "home" account.user.home ::
    field "flags" (ascii (flagsName account.user.flags)) ::
    authenticationWords account.authentication

def accountLine (account : Account) : List UInt8 := ascii "account" ++ spaced (accountWords account)

def databaseLines (registry : Registry) : List (List UInt8) :=
  ascii "version=2" :: field "next_uid" (u32Digits registry.nextUid) :: [] ::
    registry.accounts.map accountLine

/-- The text that the writer produces, stated without a buffer. -/
def databaseText (registry : Registry) : List UInt8 :=
  (databaseLines registry).flatMap (· ++ [0x0a])

variable (authentication : Authentication)

lemma appends_authentication :
    Appends capacity (serializeAuthentication capacity authentication)
      (spaced (authenticationWords authentication) ++ [0x0a]) := by
  intro buffer b hb h
  unfold serializeAuthentication at h
  split_ifs at h with hnone hpbkdf2
  · have happ := appends_text " auth=none\n" buffer b hb h
    simpa [authenticationWords, hnone, field, spaced, ascii] using happ
  · have happ := ((((((@appends_text capacity " auth=pbkdf2-sha256 salt=").bind
      (appends_hex authentication.salt.toList)).bind (appends_text " iterations=")).bind
      (appends_u32 authentication.iterations)).bind (appends_text " hash=")).bind
      (appends_hex authentication.hash.toList)).bind (appends_text "\n") buffer b hb h
    simpa [authenticationWords, hnone, field, spaced, ascii] using happ

lemma appends_account (account : Account) :
    Appends capacity (serializeAccount capacity · account) (accountLine account ++ [0x0a]) := by
  intro buffer b hb h
  have happ := ((((((((((@appends_text capacity "account uid=").bind
    (appends_u32 account.user.uid)).bind (appends_text " username=")).bind
    (appends_bytes account.user.username)).bind (appends_text " role=")).bind
    (appends_text (roleName account.user.role))).bind (appends_text " home=")).bind
    (appends_bytes account.user.home)).bind (appends_text " flags=")).bind
    (appends_text (flagsName account.user.flags))).bind
    (appends_authentication account.authentication) buffer b hb h
  simpa [accountLine, accountWords, field, spaced, ascii] using happ

lemma serializeDatabase_some
    (h : serializeDatabase registry capacity = some text) :
    registryValid registry = true ∧ text = databaseText registry ∧ text.length ≤ capacity := by
  unfold serializeDatabase at h
  split_ifs at h with hvalid
  obtain ⟨b, hheader, haccounts⟩ := Option.bind_eq_some_iff.mp h
  have happ := (((@appends_text capacity "version=2\n").bind
    (appends_text "next_uid=")).bind (appends_u32 registry.nextUid)).bind (appends_text "\n\n")
    [] b (Nat.zero_le _) hheader
  have hfold (accounts : List Account) : Appends capacity
      (accounts.foldlM (serializeAccount capacity) ·)
      (accounts.flatMap fun account => accountLine account ++ [0x0a]) := by
    induction accounts with
    | nil =>
      intro buffer b hb h
      obtain rfl := Option.some.inj h
      simpa using hb
    | cons account rest ih =>
      simpa [List.foldlM_cons] using (appends_account account).bind ih
  obtain ⟨rfl, hlen⟩ := hfold registry.accounts b text happ.2 haccounts
  refine ⟨by simpa using hvalid, ?_, hlen⟩
  simp [databaseText, databaseLines, field, happ.1, ascii, List.flatMap_map]

def Printable (w : List UInt8) : Prop := ∀ c ∈ w, 0x21 ≤ c.toNat

def SlashFree (w : List UInt8) : Prop := ∀ c ∈ w, c ≠ 0x2f

instance (w : List UInt8) : Decidable (Printable w) :=
  inferInstanceAs (Decidable (∀ c ∈ w, 0x21 ≤ c.toNat))

instance (w : List UInt8) : Decidable (SlashFree w) :=
  inferInstanceAs (Decidable (∀ c ∈ w, c ≠ 0x2f))

variable {v w : List UInt8}

lemma Printable.append (hv : Printable v) (hw : Printable w) :
    Printable (v ++ w) := fun c hc => (List.mem_append.mp hc).elim (hv c) (hw c)

lemma SlashFree.append (hv : SlashFree v) (hw : SlashFree w) :
    SlashFree (v ++ w) := fun c hc => (List.mem_append.mp hc).elim (hv c) (hw c)

variable {c : UInt8}

lemma not_space (h : 0x21 ≤ c.toNat) :
    isSpace c = false ∧ isBlank c = false ∧ c ≠ 0x0a ∧ c ≠ 0 := by
  refine ⟨?_, ?_, ?_, ?_⟩
  · simp only [isSpace, isBlank, Bool.or_eq_false_iff, decide_eq_false_iff_not]
    refine ⟨⟨?_, ?_⟩, ?_⟩ <;> rintro rfl <;> exact absurd h (by decide)
  · simp only [isBlank, Bool.or_eq_false_iff, decide_eq_false_iff_not]
    refine ⟨?_, ?_⟩ <;> rintro rfl <;> exact absurd h (by decide)
  all_goals
    rintro rfl
    exact absurd h (by decide)

lemma u32Digits_mem {v : UInt32} (h : c ∈ u32Digits v) :
    0x30 ≤ c.toNat ∧ c.toNat ≤ 0x39 := by
  unfold u32Digits at h
  split_ifs at h with hz
  · obtain rfl := List.mem_singleton.mp h
    decide
  · exact digitsFrom_mem (List.mem_reverse.mp h)

variable (v : UInt32)

lemma u32Digits_ne_nil : u32Digits v ≠ [] := by
  unfold u32Digits
  split_ifs with hz
  · simp
  · have hv : v.toNat ≠ 0 := fun h => hz (UInt32.toNat_inj.mp h)
    simp [digitsFrom, hv]

lemma u32Digits_printable : Printable (u32Digits v) :=
  fun _ hc => by have := u32Digits_mem hc; omega

lemma u32Digits_slashFree : SlashFree (u32Digits v) := by
  rintro c hc rfl
  exact absurd (u32Digits_mem hc).1 (by decide)

lemma hexPairs_printable : Printable (data.flatMap hexPair) := by
  intro c hc
  obtain ⟨b, -, hc⟩ := List.mem_flatMap.mp hc
  have := hexPair_mem b c hc
  omega

lemma hexPairs_slashFree : SlashFree (data.flatMap hexPair) := by
  rintro c hc rfl
  obtain ⟨b, -, hc⟩ := List.mem_flatMap.mp hc
  exact absurd (hexPair_mem b _ hc) (by decide)

lemma usernameChar_ok : ∀ c : UInt8, usernameChar c = true → 0x21 ≤ c.toNat ∧ c ≠ 0x2f := by
  decide +kernel

lemma username_printable (h : usernameValid username = true) :
    Printable username ∧ SlashFree username :=
  ⟨fun c hc => (usernameChar_ok c ((usernameValid_chars h).2.2 c hc)).1,
    fun c hc => (usernameChar_ok c ((usernameValid_chars h).2.2 c hc)).2⟩

lemma beforeComment_none {quote : Bool} {line : List UInt8}
    (h : line.IsChain fun a b => a ≠ 0x2f ∨ b ≠ 0x2f) : beforeComment quote line = none := by
  induction line generalizing quote with
  | nil => rfl
  | cons c rest ih =>
    cases rest with
    | nil => rfl
    | cons d rest =>
      obtain ⟨hcd, hrest⟩ := List.isChain_cons_cons.mp h
      have hno (q : Bool) : ¬ (q = false ∧ c = 0x2f ∧ d = 0x2f) := by tauto
      simp only [beforeComment, if_neg (hno _), ih hrest, Option.map_none]

variable {w : List UInt8}

lemma isChain_of_slashFree (h : SlashFree w) : w.IsChain fun a b => a ≠ 0x2f ∨ b ≠ 0x2f := by
  induction w with
  | nil => exact .nil
  | cons c rest ih =>
    have hrest := ih fun d hd => h d (List.mem_cons_of_mem c hd)
    cases rest with
    | nil => exact .singleton c
    | cons d rest => exact .cons_cons (.inl (h c List.mem_cons_self)) hrest

lemma trimLine_eq {rest : List UInt8} (hhead : isSpace c = false)
    (hlast : ∀ d ∈ (c :: rest).getLast?, isSpace d = false)
    (hchain : (c :: rest).IsChain fun a b => a ≠ 0x2f ∨ b ≠ 0x2f) :
    trimLine (c :: rest) = some (c :: rest) := by
  have hleft : (c :: rest).dropWhile isSpace = c :: rest :=
    List.dropWhile_cons_of_neg (by simp [hhead])
  have hright : (c :: rest).rdropWhile isSpace = c :: rest := by
    rw [List.rdropWhile_eq_self_iff]
    intro hne
    simp [hlast _ (List.getLast?_eq_some_getLast hne)]
  simp only [trimLine, hleft, hright, beforeComment_none hchain, reduceCtorEq, if_false]

lemma trimLine_printable (hne : w ≠ []) (hw : Printable w) (hs : SlashFree w) :
    trimLine w = some w := by
  cases w with
  | nil => exact absurd rfl hne
  | cons c rest =>
    exact trimLine_eq (not_space (hw c List.mem_cons_self)).1
      (fun d hd => (not_space (hw d (List.mem_of_getLast? hd))).1) (isChain_of_slashFree hs)

lemma lines_of_flatMap {ls : List (List UInt8)} (h : ∀ l ∈ ls, ∀ c ∈ l, c ≠ 0x0a) :
    (ls.flatMap (· ++ [0x0a])).splitOnP (fun c => c = 0x0a) = ls ++ [[]] := by
  induction ls with
  | nil => decide
  | cons l ls ih =>
    have hl : ∀ c ∈ l, decide (c = 0x0a) = false := fun c hc =>
      decide_eq_false (h l List.mem_cons_self c hc)
    rw [List.flatMap_cons, List.append_assoc, List.singleton_append,
      List.splitOnP_append_cons_of_forall_mem hl _ (by decide),
      ih fun l' hl' => h l' (List.mem_cons_of_mem l hl')]
    rfl

def keys : List String :=
  ["uid", "username", "role", "home", "flags", "auth", "salt", "iterations", "hash", "next_uid"]

/-- A key that can be told from its value in a line. -/
structure KeyOk (key : String) : Prop where
  printable : Printable (ascii key)
  slashFree : SlashFree (ascii key)
  ne_nil : ascii key ≠ []
  noSeparator : ∀ c ∈ ascii key, c ≠ 0x3d

variable {key : String}

lemma keyOk (h : key ∈ keys) : KeyOk key := by
  simp only [keys, List.mem_cons, List.not_mem_nil, or_false] at h
  rcases h with rfl | rfl | rfl | rfl | rfl | rfl | rfl | rfl | rfl | rfl <;> constructor <;>
    simp [ascii, Printable, SlashFree]

variable {value : List UInt8}

lemma field_printable (hkey : key ∈ keys)
    (hvalue : Printable value) : Printable (field key value) := by
  apply (keyOk hkey).printable.append
  intro c hc
  rcases List.mem_cons.mp hc with rfl | hc
  · decide
  · exact hvalue c hc

lemma field_slashFree (hkey : key ∈ keys)
    (hvalue : SlashFree value) : SlashFree (field key value) := by
  apply (keyOk hkey).slashFree.append
  intro c hc
  rcases List.mem_cons.mp hc with rfl | hc
  · decide
  · exact hvalue c hc

lemma field_ne_nil (key : String) (value : List UInt8) : field key value ≠ [] := by
  simp [field]

lemma roleName_ok (role : Role) :
    Printable (ascii (roleName role)) ∧ SlashFree (ascii (roleName role)) := by
  unfold roleName
  split_ifs <;> simp [ascii, Printable, SlashFree]

lemma flagsName_ok (flags : UInt32) :
    Printable (ascii (flagsName flags)) ∧ SlashFree (ascii (flagsName flags)) := by
  unfold flagsName
  split_ifs <;> simp [ascii, Printable, SlashFree]

lemma authenticationWords_ok :
    ∀ w ∈ authenticationWords authentication, w ≠ [] ∧ Printable w ∧ SlashFree w := by
  intro w hw
  unfold authenticationWords at hw
  split_ifs at hw with hnone
  · obtain rfl := List.mem_singleton.mp hw
    exact ⟨field_ne_nil _ _, by simp [field, ascii, Printable], by simp [field, ascii, SlashFree]⟩
  · simp only [List.mem_cons, List.not_mem_nil, or_false] at hw
    rcases hw with rfl | rfl | rfl | rfl
    · exact ⟨field_ne_nil _ _, by simp [field, ascii, Printable], by simp [field, ascii, SlashFree]⟩
    · exact ⟨field_ne_nil _ _, field_printable (by simp [keys]) (hexPairs_printable _),
        field_slashFree (by simp [keys]) (hexPairs_slashFree _)⟩
    · exact ⟨field_ne_nil _ _, field_printable (by simp [keys]) (u32Digits_printable _),
        field_slashFree (by simp [keys]) (u32Digits_slashFree _)⟩
    · exact ⟨field_ne_nil _ _, field_printable (by simp [keys]) (hexPairs_printable _),
        field_slashFree (by simp [keys]) (hexPairs_slashFree _)⟩

lemma accountWords_ok (h : userValid account.user = true) :
    ∀ w ∈ accountWords account, w ≠ [] ∧ Printable w := by
  obtain ⟨-, -, -, hname, -, hmatches⟩ := userValid_iff.mp h
  have hhome : Printable account.user.home := by
    rw [home_of_matches hmatches]
    exact Printable.append (by simp [ascii, Printable]) (username_printable hname).1
  intro w hw
  simp only [accountWords, List.mem_cons] at hw
  rcases hw with rfl | rfl | rfl | rfl | rfl | hw
  · exact ⟨field_ne_nil _ _, field_printable (by simp [keys]) (u32Digits_printable _)⟩
  · exact ⟨field_ne_nil _ _, field_printable (by simp [keys]) (username_printable hname).1⟩
  · exact ⟨field_ne_nil _ _, field_printable (by simp [keys]) (roleName_ok _).1⟩
  · exact ⟨field_ne_nil _ _, field_printable (by simp [keys]) hhome⟩
  · exact ⟨field_ne_nil _ _, field_printable (by simp [keys]) (flagsName_ok _).1⟩
  · exact (authenticationWords_ok _ w hw).imp_right And.left

lemma takeWhile_field (hkey : key ∈ keys) :
    (field key value).takeWhile (· ≠ 0x3d) = ascii key := by
  rw [field, List.takeWhile_append_of_pos fun c hc =>
    decide_eq_true ((keyOk hkey).noSeparator c hc)]
  simp

lemma dropWhile_field (hkey : key ∈ keys) :
    (field key value).dropWhile (· ≠ 0x3d) = 0x3d :: value := by
  rw [field, List.dropWhile_append_of_pos fun c hc =>
    decide_eq_true ((keyOk hkey).noSeparator c hc)]
  simp

lemma parseField_field {version : Nat} {fields : Fields}
    (hkey : key ∈ keys) (hvalue : value ≠ []) :
    parseField version fields (field key value) = setField version fields (ascii key) value := by
  simp only [parseField, takeWhile_field hkey, dropWhile_field hkey, List.tail_cons,
    (keyOk hkey).ne_nil, hvalue, reduceCtorEq, or_self, if_false]

lemma parseUid_u32Digits : parseUid (u32Digits v) = some v := by
  unfold parseUid
  rw [if_neg (u32Digits_ne_nil v)]
  unfold u32Digits
  split_ifs with hz
  · subst hz
    decide
  · have hlt := v.toNat_lt
    rw [readDigits_digitsFrom (by omega) (by omega), Option.map_some, UInt32.ofNat_toNat]

lemma parseRole_roleName {role : Role} (h : role = .regular ∨ role = .admin) :
    parseRole (ascii (roleName role)) = some role := by
  rcases h with rfl | rfl <;> simp [parseRole, roleName, ascii]

lemma initial_flags {flags : UInt32} (h : flags &&& ~~~flagInitial = 0) :
    flags = if flags &&& flagInitial ≠ 0 then flagInitial else 0 := by
  have hsplit : flags = (flags &&& flagInitial) ||| (flags &&& ~~~flagInitial) := by
    apply UInt32.toBitVec_inj.mp
    rw [UInt32.toBitVec_or, UInt32.toBitVec_and, UInt32.toBitVec_and, ← BitVec.and_or_distrib_left]
    exact BitVec.and_allOnes.symm
  have hlow : flags = flags &&& flagInitial := by simpa [h] using hsplit
  have hbit : (flags &&& flagInitial).toNat = flags.toNat % 2 := by
    rw [UInt32.toNat_and]
    exact Nat.and_one_is_mod _
  split_ifs with hset
  · apply UInt32.toNat_inj.mp
    have hne : (flags &&& flagInitial).toNat ≠ 0 := fun hz => hset (UInt32.toNat_inj.mp hz)
    have hone : flagInitial.toNat = 1 := rfl
    rw [← hlow] at hbit hne
    omega
  · rw [hlow]
    simpa using hset

lemma parseFlags_flagsName {flags : UInt32} (h : flags &&& ~~~flagInitial = 0) :
    parseFlags (ascii (flagsName flags)) = some flags := by
  have hflags := initial_flags h
  unfold flagsName
  split_ifs with hset
  · rw [if_pos hset] at hflags
    rw [hflags]
    simp [parseFlags, ascii]
  · rw [if_neg hset] at hflags
    rw [hflags]
    simp [parseFlags, ascii]

lemma copySpan_eq {capacity : Nat} (hne : w ≠ []) (hlen : w.length < capacity)
    (hw : Printable w) : copySpan w capacity = some w := by
  unfold copySpan
  rw [if_neg (by simp [hne, hlen])]
  congr 1
  rw [List.takeWhile_eq_self_iff]
  exact fun c hc => decide_eq_true (not_space (hw c hc)).2.2.2

section

variable {fields : Fields} {value : List UInt8}

variable {v : UInt32}

lemma setField_uid (hseen : fields.uid = none) (hv : parseUid value = some v) :
    setField 2 fields (ascii "uid") value = some { fields with uid := some v } := by
  simp [setField, once, ascii, hseen, hv]

lemma setField_username {v : List UInt8} (hseen : fields.username = none)
    (hv : copySpan value usernameCapacity = some v) :
    setField 2 fields (ascii "username") value = some { fields with username := some v } := by
  simp [setField, once, ascii, hseen, hv]

lemma setField_role {v : Role} (hseen : fields.role = none) (hv : parseRole value = some v) :
    setField 2 fields (ascii "role") value = some { fields with role := some v } := by
  simp [setField, once, ascii, hseen, hv]

lemma setField_home {v : List UInt8} (hseen : fields.home = none)
    (hv : copySpan value homeCapacity = some v) :
    setField 2 fields (ascii "home") value = some { fields with home := some v } := by
  simp [setField, once, ascii, hseen, hv]

lemma setField_flags (hseen : fields.flags = none) (hv : parseFlags value = some v) :
    setField 2 fields (ascii "flags") value = some { fields with flags := some v } := by
  simp [setField, once, ascii, hseen, hv]

lemma setField_auth {v : List UInt8} (hseen : fields.auth = none)
    (hv : copySpan value 32 = some v) :
    setField 2 fields (ascii "auth") value = some { fields with auth := some v } := by
  simp [setField, once, ascii, hseen, hv]

lemma setField_salt {v : List.Vector UInt8 16} (hseen : fields.salt = none)
    (hv : readHex 16 value = some v) :
    setField 2 fields (ascii "salt") value = some { fields with salt := some v } := by
  simp [setField, once, ascii, hseen, hv]

lemma setField_iterations (hseen : fields.iterations = none) (hv : parseUid value = some v) :
    setField 2 fields (ascii "iterations") value = some { fields with iterations := some v } := by
  simp [setField, once, ascii, hseen, hv]

lemma setField_hash {v : List.Vector UInt8 32} (hseen : fields.hash = none)
    (hv : readHex 32 value = some v) :
    setField 2 fields (ascii "hash") value = some { fields with hash := some v } := by
  simp [setField, once, ascii, hseen, hv]

end

variable {ws : List (List UInt8)}

lemma foldFields_cons {fields fields' : Fields} (hkey : key ∈ keys)
    (hvalue : value ≠ []) (hset : setField 2 fields (ascii key) value = some fields') :
    (field key value :: ws).foldlM (parseField 2) fields = ws.foldlM (parseField 2) fields' := by
  rw [List.foldlM_cons, parseField_field hkey hvalue, hset]
  rfl

def userFields (user : User) : Fields :=
  { uid := some user.uid, username := some user.username, role := some user.role,
    home := some user.home, flags := some user.flags }

lemma parseFields_user (h : userValid account.user = true) :
    (accountWords account).foldlM (parseField 2) {} =
      (authenticationWords account.authentication).foldlM (parseField 2)
        (userFields account.user) := by
  obtain ⟨-, hrole, hflags, hname, -, hmatches⟩ := userValid_iff.mp h
  have hhome := home_of_matches hmatches
  obtain ⟨hne, hlen, -⟩ := usernameValid_chars hname
  have hspan := copySpan_eq hne hlen (username_printable hname).1
  have hhomeNe : account.user.home ≠ [] := by simp [hhome, homeOf, ascii]
  have hhomeSpan : copySpan account.user.home homeCapacity = some account.user.home := by
    refine copySpan_eq hhomeNe ?_ ?_
    · rw [hhome, homeOf, List.length_append]
      exact Nat.lt_trans (Nat.add_lt_add_left hlen _) (by simp [ascii, usernameCapacity, homeCapacity])
    · rw [hhome]
      exact Printable.append (by simp [ascii, Printable]) (username_printable hname).1
  have hroleNe : ascii (roleName account.user.role) ≠ [] := by
    unfold roleName
    split_ifs <;> simp [ascii]
  have hflagsNe : ascii (flagsName account.user.flags) ≠ [] := by
    unfold flagsName
    split_ifs <;> simp [ascii]
  unfold accountWords
  rw [foldFields_cons (by simp [keys]) (u32Digits_ne_nil _)
      (setField_uid rfl (parseUid_u32Digits _)),
    foldFields_cons (by simp [keys]) hne (setField_username rfl hspan),
    foldFields_cons (by simp [keys]) hroleNe (setField_role rfl (parseRole_roleName hrole)),
    foldFields_cons (by simp [keys]) hhomeNe (setField_home rfl hhomeSpan),
    foldFields_cons (by simp [keys]) hflagsNe (setField_flags rfl (parseFlags_flagsName hflags))]
  rfl

lemma hexPairs_ne_nil {n : Nat} (v : List.Vector UInt8 (n + 1)) :
    v.toList.flatMap hexPair ≠ [] := by
  obtain ⟨b, tail, rfl⟩ := v.exists_eq_cons
  simp [hexPair]

lemma parseFields_authentication {user : User} {authentication : Authentication}
    (huser : userValid user = true) (h : passwordAuthValid authentication = true) :
    ∃ fields, (authenticationWords authentication).foldlM (parseField 2) (userFields user) =
        some fields ∧ fields.user = some user ∧ fields.secret 2 = some authentication := by
  by_cases hnone : authentication.algorithm = authNone
  · obtain rfl := eq_noAuthentication h hnone
    refine ⟨{ userFields user with auth := some (ascii "none") }, ?_, ?_, ?_⟩
    · rw [authenticationWords, if_pos hnone, foldFields_cons (by simp [keys]) (by simp [ascii])
        (setField_auth rfl (copySpan_eq (by simp [ascii]) (by simp [ascii]) (by simp [ascii, Printable])))]
      rfl
    · simp [Fields.user, userFields, huser]
    · rfl
  · have halg : authentication.algorithm = authPbkdf2Sha256 := by
      simp only [passwordAuthValid, if_neg hnone, Bool.and_eq_true, decide_eq_true_eq] at h
      exact h.1.1
    refine ⟨{ userFields user with
        auth := some (ascii "pbkdf2-sha256")
        salt := some authentication.salt
        iterations := some authentication.iterations
        hash := some authentication.hash }, ?_, ?_, ?_⟩
    · rw [authenticationWords, if_neg hnone, foldFields_cons (by simp [keys]) (by simp [ascii])
          (setField_auth rfl (copySpan_eq (by simp [ascii]) (by simp [ascii]) (by simp [ascii, Printable]))),
        foldFields_cons (by simp [keys]) (hexPairs_ne_nil _)
          (setField_salt rfl (readHex_hexPairs _)),
        foldFields_cons (by simp [keys]) (u32Digits_ne_nil _)
          (setField_iterations rfl (parseUid_u32Digits _)),
        foldFields_cons (by simp [keys]) (hexPairs_ne_nil _)
          (setField_hash rfl (readHex_hexPairs _))]
      rfl
    · simp [Fields.user, userFields, huser]
    · have hself : (⟨authPbkdf2Sha256, authentication.iterations, authentication.salt,
          authentication.hash⟩ : Authentication) = authentication := by rw [← halg]
      simp [Fields.secret, Fields.authentication, checked, hself, h, ascii]

variable {account : Account}

lemma parseAccountLine_accountLine (h : accountValid nextUid account = true) :
    parseAccountLine 2 (accountLine account) = some account := by
  obtain ⟨huser, -, hauth⟩ := accountValid_iff.mp h
  obtain ⟨fields, hfold, hfields, hsecret⟩ := parseFields_authentication huser hauth
  have hwords := words_spaced fun w hw => ⟨(accountWords_ok huser w hw).1, fun c hc =>
      (not_space ((accountWords_ok huser w hw).2 c hc)).2.1⟩
  have hdrop : (accountLine account).dropWhile isBlank = accountLine account := by
    simp [accountLine, ascii, isBlank]
  have htake : (accountLine account).take 7 = ascii "account" := by simp [accountLine, ascii]
  have hrest : (accountLine account).drop 7 = spaced (accountWords account) := by
    simp [accountLine, ascii]
  have hhead : isBlank ((spaced (accountWords account)).headD 0) = true := by
    simp [accountWords, spaced, isBlank]
  simp only [parseAccountLine, hdrop, htake, hrest, hhead, Bool.true_eq_false, and_false, ne_eq,
    not_true_eq_false, or_self, if_false, hwords, parseFields_user huser, hfold, hfields, hsecret,
    Option.bind_eq_bind, Option.bind_some, Option.pure_def]

lemma spaced_getLast (h : ∀ w ∈ ws, w ≠ [] ∧ Printable w) :
    ∀ c ∈ (spaced ws).getLast?, 0x21 ≤ c.toNat := by
  induction ws with
  | nil => simp [spaced]
  | cons w ws ih =>
    intro c hc
    rw [spaced_cons, List.getLast?_append, Option.mem_def, Option.or_eq_some_iff] at hc
    rcases hc with hc | ⟨-, hc⟩
    · exact ih (fun v hv => h v (List.mem_cons_of_mem w hv)) c hc
    · obtain ⟨hne, hw⟩ := h w List.mem_cons_self
      rw [List.getLast?_cons, List.getLast?_eq_some_getLast hne] at hc
      obtain rfl := Option.some.inj hc
      exact hw _ (List.getLast_mem hne)

lemma spaced_slashFree (h : ∀ w ∈ ws, SlashFree w) :
    SlashFree (spaced ws) := by
  intro c hc
  obtain ⟨w, hw, hc⟩ := List.mem_flatMap.mp hc
  rcases List.mem_cons.mp hc with rfl | hc
  · decide
  · exact h w hw c hc

section

variable (h : userValid account.user = true)

include h

lemma accountLine_isChain :
    (accountLine account).IsChain fun a b => a ≠ 0x2f ∨ b ≠ 0x2f := by
  obtain ⟨-, -, -, hname, -, hmatches⟩ := userValid_iff.mp h
  have hhead : SlashFree (ascii "account" ++ spaced [field "uid" (u32Digits account.user.uid),
      field "username" account.user.username, field "role" (ascii (roleName account.user.role))] ++
      ascii " home=") := by
    refine SlashFree.append (SlashFree.append (by simp [ascii, SlashFree]) (spaced_slashFree ?_))
      (by simp [ascii, SlashFree])
    intro w hw
    simp only [List.mem_cons, List.not_mem_nil, or_false] at hw
    rcases hw with rfl | rfl | rfl
    · exact field_slashFree (by simp [keys]) (u32Digits_slashFree _)
    · exact field_slashFree (by simp [keys]) (username_printable hname).2
    · exact field_slashFree (by simp [keys]) (roleName_ok _).2
  have htail : SlashFree (account.user.username ++
      spaced (field "flags" (ascii (flagsName account.user.flags)) ::
        authenticationWords account.authentication)) := by
    refine SlashFree.append (username_printable hname).2 (spaced_slashFree ?_)
    intro w hw
    rcases List.mem_cons.mp hw with rfl | hw
    · exact field_slashFree (by simp [keys]) (flagsName_ok _).2
    · exact (authenticationWords_ok _ w hw).2.2
  have hsplit : accountLine account = (ascii "account" ++
      spaced [field "uid" (u32Digits account.user.uid), field "username" account.user.username,
        field "role" (ascii (roleName account.user.role))] ++ ascii " home=") ++
      (ascii "/home/" ++ (account.user.username ++
        spaced (field "flags" (ascii (flagsName account.user.flags)) ::
          authenticationWords account.authentication))) := by
    simp [accountLine, accountWords, home_of_matches hmatches, homeOf, field, spaced, ascii]
  rw [hsplit]
  refine List.isChain_append.mpr ⟨isChain_of_slashFree hhead, List.isChain_append.mpr
    ⟨by simp [ascii], isChain_of_slashFree htail, ?_⟩, ?_⟩
  · exact fun _ _ c hc => .inr (htail c (List.mem_of_head? hc))
  · exact fun c hc _ _ => .inl (hhead c (List.mem_of_getLast? hc))

lemma trimLine_accountLine :
    trimLine (accountLine account) = some (accountLine account) := by
  have hcons : accountLine account =
      0x61 :: (ascii "ccount" ++ spaced (accountWords account)) := by simp [accountLine, ascii]
  have hchain := accountLine_isChain h
  rw [hcons] at hchain ⊢
  refine trimLine_eq (by decide) ?_ hchain
  intro c hc
  rw [← List.cons_append, List.getLast?_append, Option.mem_def, Option.or_eq_some_iff] at hc
  rcases hc with hc | ⟨hnone, -⟩
  · exact (not_space (spaced_getLast (accountWords_ok h) c hc)).1
  · exact absurd (List.getLast?_eq_none_iff.mp hnone) (by simp [accountWords, spaced])

lemma accountLine_no_newline :
    ∀ c ∈ accountLine account, c ≠ 0x0a := by
  intro c hc
  rcases List.mem_append.mp hc with hc | hc
  · have hprintable : Printable (ascii "account") := by simp [ascii, Printable]
    exact (not_space (hprintable c hc)).2.2.1
  · obtain ⟨w, hw, hc⟩ := List.mem_flatMap.mp hc
    rcases List.mem_cons.mp hc with rfl | hc
    · decide
    · exact (not_space ((accountWords_ok h w hw).2 c hc)).2.2.1

end

lemma parseLines_accounts {nextUid : UInt32} {done accounts : List Account}
    (hlen : (done ++ accounts).length ≤ maxRecords)
    (hvalid : ∀ account ∈ accounts, accountValid nextUid account = true)
    (hdistinct : (done ++ accounts).Pairwise Distinct) :
    (accounts.map accountLine).foldlM parseLine ⟨some 2, some nextUid, done⟩ =
      some ⟨some 2, some nextUid, done ++ accounts⟩ := by
  induction accounts generalizing done with
  | nil => simp
  | cons account rest ih =>
    have haccount := hvalid account List.mem_cons_self
    have hroom : ¬ maxRecords ≤ done.length := by
      simp only [List.length_append, List.length_cons] at hlen
      omega
    have hnew : done.all (fun other => Distinct other account) = true := by
      simp only [List.all_eq_true, decide_eq_true_eq]
      exact fun other hother =>
        (List.pairwise_append.mp hdistinct).2.2 other hother account List.mem_cons_self
    have hassoc : done ++ account :: rest = (done ++ [account]) ++ rest := by simp
    rw [hassoc] at hlen hdistinct ⊢
    rw [List.map_cons, List.foldlM_cons]
    have hline : parseLine ⟨some 2, some nextUid, done⟩ (accountLine account) =
        some ⟨some 2, some nextUid, done ++ [account]⟩ := by
      simp only [parseLine, trimLine_accountLine (accountValid_iff.mp haccount).1, if_neg hroom,
        parseAccountLine_accountLine haccount, Option.bind_some, addAccount, hnew, if_true]
    rw [hline]
    exact ih hlen (fun a ha => hvalid a (List.mem_cons_of_mem account ha)) hdistinct

lemma parseNextUid_field (nextUid : UInt32) :
    parseNextUid (field "next_uid" (u32Digits nextUid)) = some nextUid := by
  have hkey : "next_uid" ∈ keys := by simp [keys]
  simp only [parseNextUid, takeWhile_field hkey, dropWhile_field hkey, ne_eq, not_true_eq_false,
    reduceCtorEq, or_self, if_false, List.tail_cons, parseUid_u32Digits]

variable {registry : Registry}

section

variable (h : registryValid registry = true)

include h

lemma parseLines_database :
    (databaseLines registry ++ [[]]).foldlM parseLine {} =
      some ⟨some 2, some registry.nextUid, registry.accounts⟩ := by
  obtain ⟨-, hlen, -, hvalid, hdistinct, -⟩ := registryValid_iff.mp h
  have hversion : parseLine {} (ascii "version=2") = some { version := some 2 } := by
    have htrim : trimLine (ascii "version=2") = some (ascii "version=2") :=
      trimLine_printable (by simp [ascii]) (by simp [ascii, Printable]) (by simp [ascii, SlashFree])
    have hparse : parseVersion (ascii "version=2") = some 2 := by simp [parseVersion, ascii]
    simp only [parseLine, htrim, hparse, Option.map_some]
  have huid : parseLine { version := some 2 } (field "next_uid" (u32Digits registry.nextUid)) =
      some ⟨some 2, some registry.nextUid, []⟩ := by
    have htrim : trimLine (field "next_uid" (u32Digits registry.nextUid)) =
        some (field "next_uid" (u32Digits registry.nextUid)) :=
      trimLine_printable (field_ne_nil _ _)
        (field_printable (by simp [keys]) (u32Digits_printable _))
        (field_slashFree (by simp [keys]) (u32Digits_slashFree _))
    simp only [parseLine, htrim, parseNextUid_field, Option.map_some]
  have hblank (reading : Reading) : parseLine reading [] = some reading := rfl
  have haccounts := @parseLines_accounts _ [] _ hlen hvalid hdistinct
  simp only [List.nil_append] at haccounts
  simp only [databaseLines, List.cons_append, List.foldlM_cons, List.foldlM_append, hversion, huid,
    hblank, haccounts, List.foldlM_nil, Option.bind_eq_bind, Option.bind_some, Option.pure_def]

lemma databaseLines_no_newline :
    ∀ l ∈ databaseLines registry, ∀ c ∈ l, c ≠ 0x0a := by
  obtain ⟨-, -, -, hvalid, -, -⟩ := registryValid_iff.mp h
  intro l hl
  simp only [databaseLines, List.mem_cons, List.mem_map] at hl
  rcases hl with rfl | rfl | rfl | ⟨account, haccount, rfl⟩
  · simp [ascii]
  · exact fun c hc => (not_space
      (field_printable (by simp [keys]) (u32Digits_printable _) c hc)).2.2.1
  · simp
  · exact accountLine_no_newline (accountValid_iff.mp (hvalid account haccount)).1

lemma parseDatabase_databaseText
    (hlen : (databaseText registry).length ≤ dbMaxBytes) :
    parseDatabase (databaseText registry) = some (registry, false) := by
  obtain ⟨hne, -, hfirst, hvalid, -, hinitial⟩ := registryValid_iff.mp h
  have htext : ¬ (databaseText registry = [] ∨ dbMaxBytes < (databaseText registry).length) := by
    rintro (hempty | hlong)
    · simp [databaseText, databaseLines] at hempty
    · exact Nat.not_lt.mpr hlen hlong
  have huids : registry.accounts.any (fun account => registry.nextUid ≤ account.user.uid) = false := by
    simp only [List.any_eq_false, decide_eq_true_eq, UInt32.not_le]
    exact fun account haccount => (accountValid_iff.mp (hvalid account haccount)).2.1
  have hlines := lines_of_flatMap (databaseLines_no_newline h)
  rw [← databaseText] at hlines
  simp only [parseDatabase, if_neg htext, hlines, parseLines_database h, hne, hinitial,
    UInt32.not_lt.mpr hfirst, huids, Option.bind_eq_bind, Option.bind_some, ne_eq,
    not_true_eq_false, Bool.false_eq_true, or_self, if_false]
  rfl

end

/-- What the writer writes, the parser reads back as it was, in the current version. -/
theorem parse_serialize {registry : Registry} {capacity : Nat} {text : List UInt8}
    (hcapacity : capacity ≤ dbMaxBytes) (h : serializeDatabase registry capacity = some text) :
    parseDatabase text = some (registry, false) := by
  obtain ⟨hvalid, rfl, hlen⟩ := serializeDatabase_some h
  exact parseDatabase_databaseText hvalid (hlen.trans hcapacity)

def exampleRegistry : Registry where
  accounts := [
    ⟨⟨1001, ascii "ada", .admin, homeOf (ascii "ada"), flagInitial⟩, noAuthentication⟩,
    ⟨⟨1002, ascii "bob", .regular, homeOf (ascii "bob"), 0⟩,
      ⟨authPbkdf2Sha256, passwordIterations, .replicate 16 0xa5, .replicate 32 0x3c⟩⟩]
  nextUid := 1003

/-- A registry with an administrator and a user. -/
theorem parse_serialize_example : ∃ text, serializeDatabase exampleRegistry dbMaxBytes = some text ∧
      parseDatabase text = some (exampleRegistry, false) := by
  have h : (serializeDatabase exampleRegistry dbMaxBytes).isSome = true := by decide +kernel
  obtain ⟨text, htext⟩ := Option.isSome_iff_exists.mp h
  exact ⟨text, htext, parse_serialize le_rfl htext⟩

end Mangrove.Identity
