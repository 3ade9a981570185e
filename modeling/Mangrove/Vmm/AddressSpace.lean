import Mangrove.Bytes

/-! Page tables, the four-level walk and the check of user pointers; process address spaces, and
one owner for every frame: the kernel, one space, or whoever asked for it. The allocator may answer
with any free frame. -/

namespace Mangrove.Vmm

abbrev Entry := BitVec 64

abbrev Phys := BitVec 64

abbrev Tables := Phys → Nat → Entry

def ptePresent : Entry := 0x1

def pteReadwrite : Entry := 0x2

def pteUser : Entry := 0x4

def pteHuge : Entry := 0x80

def pteNx : Entry := 0x8000000000000000

def pteFrameMask : Entry := 0x000FFFFFFFFFF000

def pageSize : Nat := 0x1000

def userAddressLimit : Nat := 0x0000800000000000

def has (entry bits : Entry) : Prop := entry &&& bits ≠ 0#64

instance (entry bits : Entry) : Decidable (has entry bits) :=
  inferInstanceAs (Decidable (_ ≠ _))

def frameOf (entry : Entry) : Phys := entry &&& pteFrameMask

def index (shift address : Nat) : Nat := address >>> shift &&& 0x1ff

section

variable (tables : Tables) (root : Phys) (address : Nat)

def pml4e : Entry := tables root (index 39 address)

def pdpte : Entry := tables (frameOf (pml4e tables root address)) (index 30 address)

def pde : Entry := tables (frameOf (pdpte tables root address)) (index 21 address)

def pte : Entry := tables (frameOf (pde tables root address)) (index 12 address)

/-- The address lies in a 4 KiB page that is present and open to user mode at
all four levels. -/
structure UserPage : Prop where
  pml4e : has (pml4e tables root address) ptePresent ∧ has (pml4e tables root address) pteUser
  pdpte : has (pdpte tables root address) ptePresent ∧ has (pdpte tables root address) pteUser ∧
    ¬ has (pdpte tables root address) pteHuge
  pde : has (pde tables root address) ptePresent ∧ has (pde tables root address) pteUser ∧
    ¬ has (pde tables root address) pteHuge
  pte : has (pte tables root address) ptePresent ∧ has (pte tables root address) pteUser

instance : Decidable (UserPage tables root address) :=
  decidable_of_iff (_ ∧ _ ∧ _ ∧ _)
    ⟨fun h => ⟨h.1, h.2.1, h.2.2.1, h.2.2.2⟩, fun h => ⟨h.1, h.2, h.3, h.4⟩⟩

end

/-- The loop of `vmm_user_range_valid` from `page` on. -/
def userPagesFrom (tables : Tables) (root : Phys) (last page : Nat) : Bool :=
  if page < last then
    if UserPage tables root page then
      if page > u64Max - pageSize then true
      else userPagesFrom tables root last (page + pageSize)
    else false
  else true
termination_by last - page
decreasing_by
  have : pageSize = 4096 := rfl
  omega

def vmmUserRangeValid (tables : Tables) (active : Option Phys) (address length : UInt64) : Bool :=
  match active with
  | none => false
  | some root =>
    if (address.toNat = 0 ∧ length.toNat ≠ 0) ∨ length.toNat > u64Max - address.toNat then false
    else if length.toNat = 0 then true
    else
      userPagesFrom tables root (address.toNat + length.toNat)
        (address.toNat - address.toNat % pageSize)

lemma index_eq (shift address : Nat) : index shift address = address / 2 ^ shift % 512 := by
  rw [index, show (0x1ff : Nat) = 2 ^ 9 - 1 from rfl, Nat.and_two_pow_sub_one_eq_mod,
    Nat.shiftRight_eq_div_pow]

lemma index_congr {j a b : Nat} (hj : j ≤ 27)
    (h : a / pageSize % 2 ^ 36 = b / pageSize % 2 ^ 36) : index (12 + j) a = index (12 + j) b := by
  have hdvd : 2 ^ j * 512 ∣ 2 ^ 36 := by
    rw [show (512 : Nat) = 2 ^ 9 from rfl, ← Nat.pow_add]
    exact Nat.pow_dvd_pow 2 (by omega)
  have hindex (c : Nat) : index (12 + j) c = c / pageSize % 2 ^ 36 % (2 ^ j * 512) / 2 ^ j := by
    rw [index_eq, Nat.mod_mod_of_dvd _ hdvd, Nat.mod_mul_right_div_self, Nat.pow_add,
      ← Nat.div_div_eq_div_mul]
    rfl
  rw [hindex, hindex, h]

variable {tables : Tables} {root : Phys}

lemma userPage_congr {a b : Nat} (h : a / pageSize % 2 ^ 36 = b / pageSize % 2 ^ 36) :
    UserPage tables root a ↔ UserPage tables root b := by
  have hpml4e : pml4e tables root a = pml4e tables root b :=
    congrArg (tables root) (index_congr (j := 27) (by decide) h)
  have hpdpte : pdpte tables root a = pdpte tables root b := by
    rw [pdpte, pdpte, hpml4e, index_congr (j := 18) (by decide) h]
  have hpde : pde tables root a = pde tables root b := by
    rw [pde, pde, hpdpte, index_congr (j := 9) (by decide) h]
  have hpte : pte tables root a = pte tables root b := by
    rw [pte, pte, hpde, index_congr (j := 0) (by decide) h]
  constructor
  all_goals
    rintro ⟨h1, h2, h3, h4⟩
    exact ⟨hpml4e ▸ h1, hpdpte ▸ h2, hpde ▸ h3, hpte ▸ h4⟩

lemma userPage_page (a : Nat) :
    UserPage tables root (a - a % pageSize) ↔ UserPage tables root a := by
  apply userPage_congr
  simp only [pageSize]
  omega

lemma userPage_low (a : Nat) : UserPage tables root (a % 2 ^ 48) ↔ UserPage tables root a := by
  apply userPage_congr
  simp only [pageSize]
  omega

lemma userPagesFrom_iff {last page : Nat} (hpage : page % pageSize = 0) (hlast : last ≤ u64Max) :
    userPagesFrom tables root last page = true ↔
      ∀ a, page ≤ a → a < last → UserPage tables root a := by
  fun_induction userPagesFrom tables root last page with
  | case1 page hlt huser hend =>
    refine iff_of_true rfl fun a ha ha' => ?_
    rw [← userPage_page a, show a - a % pageSize = page from ?_]
    · exact huser
    · simp only [pageSize, u64Max] at *
      omega
  | case2 page hlt huser hend ih =>
    rw [ih (by simp [hpage])]
    constructor
    · intro h a ha ha'
      by_cases hnext : page + pageSize ≤ a
      · exact h a hnext ha'
      · rw [← userPage_page a, show a - a % pageSize = page from ?_]
        · exact huser
        · simp only [pageSize] at *
          omega
    · intro h a ha ha'
      exact h a (by omega) ha'
  | case3 page hlt huser => exact iff_of_false Bool.false_ne_true fun h => huser (h page le_rfl hlt)
  | case4 page hge => exact iff_of_true rfl fun a ha ha' => absurd ha' (by omega)

/-- The range neither wraps nor starts at the null address with bytes in it. -/
def Ordinary (address length : UInt64) : Prop :=
  (address.toNat = 0 → length.toNat = 0) ∧ address.toNat + length.toNat ≤ u64Max

instance (address length : UInt64) : Decidable (Ordinary address length) :=
  inferInstanceAs (Decidable (_ ∧ _))

variable {address length : UInt64}

lemma vmmUserRangeValid_iff :
    vmmUserRangeValid tables (some root) address length = true ↔
      Ordinary address length ∧
        ∀ a, address.toNat ≤ a → a < address.toNat + length.toNat → UserPage tables root a := by
  have hmax := u64Max_eq
  have ha := address.toNat_lt
  rw [vmmUserRangeValid, Ordinary]
  split
  · next h => exact iff_of_false Bool.false_ne_true (by rintro ⟨⟨h1, h2⟩, -⟩; omega)
  · next h =>
    split
    · next hlen => exact iff_of_true rfl ⟨by omega, fun a ha ha' => absurd ha' (by omega)⟩
    · next hlen =>
      rw [userPagesFrom_iff (by simp only [pageSize]; omega) (by omega)]
      constructor
      · intro hall
        exact ⟨by omega, fun a ha ha' => hall a (by omega) ha'⟩
      · rintro ⟨-, hall⟩ a ha ha'
        by_cases hstart : address.toNat ≤ a
        · exact hall a hstart ha'
        · rw [← userPage_page a, show a - a % pageSize = address.toNat - address.toNat % pageSize
            from ?_, userPage_page]
          · exact hall _ le_rfl (by omega)
          · simp only [pageSize] at *
            omega

def InRange (address length : UInt64) (a : Nat) : Prop :=
  address.toNat ≤ a ∧ a < address.toNat + length.toNat

instance (address length : UInt64) (a : Nat) : Decidable (InRange address length a) :=
  inferInstanceAs (Decidable (_ ∧ _))

def UserRange (tables : Tables) (root : Phys) (address length : UInt64) : Prop :=
  ∀ a, InRange address length a → a < userAddressLimit ∧ UserPage tables root a

/-- The check accepts only user ranges, and every one that is not null. -/
structure ChecksUserRange (tables : Tables) (root : Phys) (address length : UInt64) : Prop where
  sound : vmmUserRangeValid tables (some root) address length = true →
    UserRange tables root address length
  complete : address ≠ 0 → UserRange tables root address length →
    vmmUserRangeValid tables (some root) address length = true

/-- The range is refused for its ends, lies below the limit, or has a byte whose
low 48 bits are not in a user page. -/
def Discerned (tables : Tables) (root : Phys) (address length : UInt64) : Prop :=
  ¬ Ordinary address length ∨ length = 0 ∨ address.toNat + length.toNat ≤ userAddressLimit ∨
    ∃ a, InRange address length a ∧ ¬ UserPage tables root (a % 2 ^ 48)

lemma vmmUserRangeValid_of_userRange {tables : Tables} {root : Phys}
    (hnull : address ≠ 0) (h : UserRange tables root address length) :
    vmmUserRangeValid tables (some root) address length = true := by
  have hmax := u64Max_eq
  have ha := address.toNat_lt
  have hne : address.toNat ≠ 0 := fun h0 => hnull (UInt64.toNat_inj.mp h0)
  refine vmmUserRangeValid_iff.mpr ⟨⟨fun h0 => absurd h0 hne, ?_⟩, fun a h1 h2 => (h a ⟨h1, h2⟩).2⟩
  by_cases hlen : length.toNat = 0
  · omega
  · have hlast := (h (address.toNat + length.toNat - 1) ⟨by omega, by omega⟩).1
    unfold userAddressLimit at hlast
    omega

/-- The check is right about a range exactly if the range is refused for its ends, is empty, lies
below the limit or has a byte whose low 48 bits are in no user page: beyond the limit the check
goes by these bits. -/
theorem checksUserRange_iff {tables : Tables} {root : Phys} {address length : UInt64} :
    ChecksUserRange tables root address length ↔ Discerned tables root address length := by
  constructor
  · intro h
    by_cases hvalid : vmmUserRangeValid tables (some root) address length = true
    · by_cases hlen : length = 0
      · exact .inr (.inl hlen)
      · have hlen' : length.toNat ≠ 0 := fun h0 => hlen (UInt64.toNat_inj.mp h0)
        have hlast := (h.sound hvalid (address.toNat + length.toNat - 1) ⟨by omega, by omega⟩).1
        exact .inr (.inr (.inl (by omega)))
    · rw [vmmUserRangeValid_iff, not_and_or] at hvalid
      rcases hvalid with hends | hpages
      · exact .inl hends
      · push Not at hpages
        obtain ⟨a, h1, h2, huser⟩ := hpages
        exact .inr (.inr (.inr ⟨a, ⟨h1, h2⟩, fun hlow => huser ((userPage_low a).mp hlow)⟩))
  · intro h
    refine ⟨fun hvalid a ha => ?_, vmmUserRangeValid_of_userRange⟩
    obtain ⟨hends, hpages⟩ := vmmUserRangeValid_iff.mp hvalid
    refine ⟨?_, hpages a ha.1 ha.2⟩
    rcases h with h | rfl | h | ⟨b, hb, huser⟩
    · exact absurd hends h
    · exact absurd ha.2 (by simpa using ha.1)
    · exact Nat.lt_of_lt_of_le ha.2 h
    · exact absurd ((userPage_low b).mpr (hpages b hb.1 hb.2)) huser

def onePageTables : Tables := fun frame i =>
  if frame = 0x1000 ∧ i = 0 then 0x2007
  else if frame = 0x2000 ∧ i = 0 then 0x3007
  else if frame = 0x3000 ∧ i = 2 then 0x4007
  else if frame = 0x4000 ∧ i = 0 then 0x5007
  else 0

/-- An address that no user may have is taken for the one with the same low bits. -/
theorem noncanonical_accepted :
    vmmUserRangeValid onePageTables (some 0x1000) 0x1000000400000 1 = true ∧
      ¬ UserRange onePageTables 0x1000 0x1000000400000 1 := by
  constructor
  · refine vmmUserRangeValid_iff.mpr ⟨by decide, fun a h1 h2 => ?_⟩
    obtain rfl : a = 0x1000000400000 := by
      rw [show (0x1000000400000 : UInt64).toNat = 0x1000000400000 from rfl] at h1 h2
      rw [show (1 : UInt64).toNat = 1 from rfl] at h2
      omega
    decide
  · intro h
    have := (h 0x1000000400000 (by decide)).1
    exact absurd this (by decide)

def physMapBase : Nat := 0xffff800000000000

def physMapLimit : Nat := 0x0000400000000000

def kernelHeapBase : Nat := 0xffffc00000000000

def ioremapBase : Nat := 0xffffc08000000000

def kernelVirtBase : Nat := 0xffffffff80000000

def kernelSharedPml4Index (i : Nat) : Prop :=
  (index 39 physMapBase ≤ i ∧ i ≤ index 39 (physMapBase + physMapLimit - 1)) ∨
    i = index 39 kernelHeapBase ∨ i = index 39 ioremapBase ∨ i = index 39 kernelVirtBase

instance (i : Nat) : Decidable (kernelSharedPml4Index i) :=
  inferInstanceAs (Decidable (_ ∨ _ ∨ _ ∨ _))

def physMapContains (phys : Phys) : Prop := phys.toNat < physMapLimit

instance (phys : Phys) : Decidable (physMapContains phys) :=
  inferInstanceAs (Decidable (_ < _))

def Frame (phys : Phys) : Prop := phys ≠ 0 ∧ frameOf phys = phys ∧ physMapContains phys

instance (phys : Phys) : Decidable (Frame phys) := inferInstanceAs (Decidable (_ ∧ _ ∧ _))

/-- An address space, with the frames it records as its own. -/
structure Space where
  root : Phys
  tables : List Phys
  leaves : List Phys

/-- Where the kernel stops. -/
inductive Panic where
  | hierarchyModified
  | ownsSharedTable

/-- `freed` lists the frames given back so far, the latest last. `supply` holds
the allocator's next answers and `chances` those of the heap and of mutexes. -/
structure Vm where
  tables : Tables
  allocated : Phys → Bool
  freed : List Phys
  kernelPml4 : Phys
  metadata : Fin 64 → Option Space
  bootstrapMappingActive : Bool
  supply : Nat → Option Phys
  chances : Nat → Bool

abbrev VmProg := Prog Vm Panic

def Tables.set (tables : Tables) (table : Phys) (i : Nat) (entry : Entry) : Tables :=
  fun t j => if t = table ∧ j = i then entry else tables t j

def Tables.clear (tables : Tables) (table : Phys) : Tables :=
  fun t j => if t = table then 0 else tables t j

/-- A frame that is free and fit to use is allocated and zeroed; any other
answer of the supply is a failure. -/
def pmmAllocFrame : VmProg (Option Phys) := fun s =>
  let next := { s with supply := fun n => s.supply (n + 1) }
  match s.supply 0 with
  | none => (.ok none, next)
  | some f =>
    if Frame f ∧ s.allocated f = false then
      (.ok (some f), { next with
        allocated := fun g => if g = f then true else s.allocated g
        tables := s.tables.clear f })
    else (.ok none, next)

def pmmFreeFrame (f : Phys) : VmProg Unit :=
  Prog.modify fun s => { s with
    allocated := fun g => if g = f then false else s.allocated g
    freed := s.freed ++ [f] }

def pmmFreeFrames : List Phys → VmProg Unit
  | [] => pure ()
  | f :: rest => do
    pmmFreeFrame f
    pmmFreeFrames rest

/-- A `kmalloc` or `mutex_lock` that may fail. -/
def chance : VmProg Bool := fun s =>
  (.ok (s.chances 0), { s with chances := fun n => s.chances (n + 1) })

def metadataFind (s : Vm) (root : Phys) : Option (Fin 64 × Space) :=
  (List.finRange 64).findSome? fun i =>
    (s.metadata i).bind fun space => if space.root = root then some (i, space) else none

def metadataFree (s : Vm) : Option (Fin 64) :=
  (List.finRange 64).find? fun i => (s.metadata i).isNone

def replaceSlot (metadata : Fin 64 → Option Space) (slot : Fin 64) (space : Option Space) :
    Fin 64 → Option Space :=
  fun j => if j = slot then space else metadata j

def setSpace (slot : Fin 64) (space : Option Space) : VmProg Unit :=
  Prog.modify fun s => { s with metadata := replaceSlot s.metadata slot space }

def setEntry (table : Phys) (i : Nat) (entry : Entry) : VmProg Unit :=
  Prog.modify fun s => { s with tables := s.tables.set table i entry }

/-- The entry leads to the table `physical` within `levels` further levels. -/
def kernelReaches (s : Vm) : (levels : Nat) → (table : Phys) → (i : Nat) → Phys → Prop
  | 0, table, i, physical =>
    has (s.tables table i) ptePresent ∧ ¬ has (s.tables table i) pteHuge ∧
      frameOf (s.tables table i) = physical
  | levels + 1, table, i, physical =>
    has (s.tables table i) ptePresent ∧ ¬ has (s.tables table i) pteHuge ∧
      (frameOf (s.tables table i) = physical ∨
        ∃ j < 512, kernelReaches s levels (frameOf (s.tables table i)) j physical)

instance decidableKernelReaches (s : Vm) : (levels : Nat) → (table : Phys) → (i : Nat) →
    (physical : Phys) → Decidable (kernelReaches s levels table i physical)
  | 0, _, _, _ => inferInstanceAs (Decidable (_ ∧ _ ∧ _))
  | levels + 1, table, i, _ =>
    have := decidableKernelReaches s levels (frameOf (s.tables table i))
    inferInstanceAs (Decidable (_ ∧ _ ∧ (_ ∨ ∃ j < 512, _)))

/-- `physical` is the kernel root or a table below one of its shared branches. -/
def kernelReachesTable (s : Vm) (physical : Phys) : Prop :=
  frameOf physical = s.kernelPml4 ∨
    ∃ i < 512, 256 ≤ i ∧ kernelReaches s 2 s.kernelPml4 i (frameOf physical)

instance (s : Vm) (physical : Phys) : Decidable (kernelReachesTable s physical) :=
  inferInstanceAs (Decidable (_ ∨ ∃ i < 512, _))

/-- An entry of the lower half is unused or leads to an owned table. -/
def LowerEntryValid (s : Vm) (space : Space) (i : Nat) : Prop :=
  s.tables space.root i = 0 ∨
    has (s.tables space.root i) ptePresent ∧ has (s.tables space.root i) pteUser ∧
      ¬ has (s.tables space.root i) pteHuge ∧ frameOf (s.tables space.root i) ∈ space.tables ∧
      (has (s.tables s.kernelPml4 i) ptePresent → s.bootstrapMappingActive = true ∧ i = 0)

instance (s : Vm) (space : Space) (i : Nat) : Decidable (LowerEntryValid s space i) :=
  inferInstanceAs (Decidable (_ ∨ _ ∧ _ ∧ _ ∧ _ ∧ (_ → _)))

/-- An entry of the upper half is the kernel's, closed to user mode, or unused. -/
def UpperEntryValid (s : Vm) (space : Space) (i : Nat) : Prop :=
  (kernelSharedPml4Index i →
    s.tables space.root i = s.tables s.kernelPml4 i ∧ ¬ has (s.tables space.root i) pteUser) ∧
  (¬ kernelSharedPml4Index i → s.tables space.root i = 0)

instance (s : Vm) (space : Space) (i : Nat) : Decidable (UpperEntryValid s space i) :=
  inferInstanceAs (Decidable ((_ → _) ∧ (_ → _)))

/-- What `vmm_destroy_address_space` checks before it frees anything. -/
structure AddressSpaceValid (s : Vm) (space : Space) : Prop where
  lower : ∀ i < 256, LowerEntryValid s space i
  upper : ∀ i < 512, 256 ≤ i → UpperEntryValid s space i
  tables : ∀ t ∈ space.tables, ¬ kernelReachesTable s t

@[irreducible] instance decidableAddressSpaceValid (s : Vm) (space : Space) :
    Decidable (AddressSpaceValid s space) :=
  decidable_of_iff (_ ∧ _ ∧ _) ⟨fun h => ⟨h.1, h.2.1, h.2.2⟩, fun h => ⟨h.1, h.2, h.3⟩⟩

/-- One level of `vmm_map_kernel_one_internal`: the table below an entry, which
is created if there is none. -/
def kernelChild (table : Phys) (i : Nat) : VmProg (Option Phys) := do
  let s ← Prog.get
  if has (s.tables table i) ptePresent then
    return if has (s.tables table i) pteUser then none else some (frameOf (s.tables table i))
  else
    match ← pmmAllocFrame with
    | none => return none
    | some child => do
      setEntry table i (child ||| (ptePresent ||| pteReadwrite))
      return some child

def mapKernelOne (virtual : UInt64) (physical : Phys) (flags : Entry) : VmProg Bool := do
  if ¬ physMapContains physical ∨ has flags pteUser ∨ virtual.toNat < userAddressLimit ∨
      ¬ kernelSharedPml4Index (index 39 virtual.toNat) then
    return false
  else
    let s ← Prog.get
    match ← kernelChild s.kernelPml4 (index 39 virtual.toNat) with
    | none => return false
    | some pdpt =>
      match ← kernelChild pdpt (index 30 virtual.toNat) with
      | none => return false
      | some pd =>
        match ← kernelChild pd (index 21 virtual.toNat) with
        | none => return false
        | some pt => do
          setEntry pt (index 12 virtual.toNat) (frameOf physical ||| flags ||| ptePresent)
          return true

def publishKernelMappings : VmProg Unit :=
  Prog.modify fun s => { s with
    tables := fun t i =>
      if (∃ slot, (s.metadata slot).any (·.root = t)) ∧ 256 ≤ i ∧ i < 512 ∧
          kernelSharedPml4Index i then
        s.tables s.kernelPml4 i
      else s.tables t i }

def vmmMap (virtual : UInt64) (physical : Phys) (flags : Entry) : VmProg Bool := do
  let result ← mapKernelOne virtual physical flags
  if result then do
    publishKernelMappings
    return true
  else return false

def userPathAvailable (s : Vm) (space : Space) (virtual : Nat) : Prop :=
  let open₁ (e : Entry) : Prop :=
    has e pteUser ∧ ¬ has e pteHuge ∧ frameOf e ∈ space.tables
  ¬ has (pml4e s.tables space.root virtual) ptePresent ∨
    open₁ (pml4e s.tables space.root virtual) ∧
      (¬ has (pdpte s.tables space.root virtual) ptePresent ∨
        open₁ (pdpte s.tables space.root virtual) ∧
          (¬ has (pde s.tables space.root virtual) ptePresent ∨
            open₁ (pde s.tables space.root virtual) ∧
              ¬ has (pte s.tables space.root virtual) ptePresent))

instance (s : Vm) (space : Space) (virtual : Nat) : Decidable (userPathAvailable s space virtual) :=
  inferInstanceAs (Decidable (_ ∨ (_ ∧ _ ∧ _) ∧ (_ ∨ (_ ∧ _ ∧ _) ∧ (_ ∨ (_ ∧ _ ∧ _) ∧ _))))

/-- `vmm_user_child_reserved`: the child table if there is one, and what is left
of the reserve. -/
def userChildReserved (slot : Fin 64) (parent : Phys) (i : Nat) (reserved : Phys) :
    VmProg (Option Phys × List Phys) := do
  let s ← Prog.get
  match s.metadata slot with
  | none => return (none, [reserved])
  | some space =>
    if has (s.tables parent i) ptePresent then
      if has (s.tables parent i) pteUser ∧ ¬ has (s.tables parent i) pteHuge ∧
          frameOf (s.tables parent i) ∈ space.tables then
        return (some (frameOf (s.tables parent i)), [reserved])
      else return (none, [reserved])
    else do
      setSpace slot (some { space with tables := reserved :: space.tables })
      setEntry parent i (reserved ||| (ptePresent ||| pteReadwrite ||| pteUser))
      return (some reserved, [])

def reserveTable (others : List Phys) (go : Phys → VmProg Bool) : VmProg Bool := do
  match ← pmmAllocFrame with
  | none => do
    pmmFreeFrames others
    return false
  | some table => do
    let node ← chance
    if node then go table
    else do
      pmmFreeFrames (others ++ [table])
      return false

/-- The leaf entry and the checks after it. `left` is the unused reserve. -/
def linkLeaf (slot : Fin 64) (pt : Phys) (virtual : Nat) (physical : Phys) (flags before : Entry)
    (left : List Phys) : VmProg Bool := do
  let s ← Prog.get
  match s.metadata slot with
  | none => return false
  | some space => do
    setSpace slot (some { space with leaves := frameOf physical :: space.leaves })
    setEntry pt (index 12 virtual) (frameOf physical ||| flags ||| pteUser ||| ptePresent)
    let t ← Prog.get
    if t.tables t.kernelPml4 (index 39 virtual) ≠ before ∨
        ¬ AddressSpaceValid t { space with leaves := frameOf physical :: space.leaves } then
      Prog.fail .hierarchyModified
    else do
      pmmFreeFrames left
      return true

/-- The part of `vmm_map_user_page` after its resources are reserved. -/
def mapReserved (root : Phys) (virtual : Nat) (physical : Phys) (flags before : Entry)
    (r₀ r₁ r₂ : Phys) : VmProg Bool := do
  let s ← Prog.get
  match metadataFind s root with
  | none => do
    pmmFreeFrames [r₀, r₁, r₂]
    return false
  | some (slot, space) =>
    if ¬ userPathAvailable s space virtual ∨ frameOf physical ∈ space.leaves then do
      pmmFreeFrames [r₀, r₁, r₂]
      return false
    else do
      let pdpt ← userChildReserved slot root (index 39 virtual) r₀
      match pdpt.1 with
      | none => do
        pmmFreeFrames (pdpt.2 ++ [r₁, r₂])
        return false
      | some table => do
        let pd ← userChildReserved slot table (index 30 virtual) r₁
        match pd.1 with
        | none => do
          pmmFreeFrames (pdpt.2 ++ (pd.2 ++ [r₂]))
          return false
        | some table => do
          let pt ← userChildReserved slot table (index 21 virtual) r₂
          match pt.1 with
          | none => do
            pmmFreeFrames (pdpt.2 ++ (pd.2 ++ pt.2))
            return false
          | some table =>
            linkLeaf slot table virtual physical flags before (pdpt.2 ++ (pd.2 ++ pt.2))

def vmmMapUserPage (root : Phys) (virtual : UInt64) (physical : Phys) (flags : Entry) :
    VmProg Bool := do
  let s ← Prog.get
  if root = s.kernelPml4 ∨ virtual.toNat % pageSize ≠ 0 ∨ physical.toNat % pageSize ≠ 0 ∨
      ¬ physMapContains physical ∨ virtual.toNat ≥ userAddressLimit ∨
      index 39 virtual.toNat ≥ 256 ∨ ¬ has flags pteUser then
    return false
  else
    match metadataFind s root with
    | none => return false
    | some (_, space) =>
      if ¬ userPathAvailable s space virtual.toNat then return false
      else do
        let locked ← chance
        if ¬ locked then return false
        else do
          let node ← chance
          if ¬ node then return false
          else
            reserveTable [] fun r₀ => reserveTable [r₀] fun r₁ => reserveTable [r₀, r₁] fun r₂ =>
              mapReserved root virtual.toNat physical flags
                (s.tables s.kernelPml4 (index 39 virtual.toNat)) r₀ r₁ r₂

/-- An entry of the walk of `vmm_unmap_user_page`: an owned table. -/
def ownedTable (space : Space) (e : Entry) : Prop :=
  has e ptePresent ∧ has e pteUser ∧ ¬ has e pteHuge ∧ frameOf e ∈ space.tables

instance (space : Space) (e : Entry) : Decidable (ownedTable space e) :=
  inferInstanceAs (Decidable (_ ∧ _ ∧ _ ∧ _))

def vmmUnmapUserPage (root : Phys) (virtual : UInt64) : VmProg (Option Phys) := do
  let s ← Prog.get
  if root = s.kernelPml4 ∨ virtual.toNat % pageSize ≠ 0 ∨ virtual.toNat ≥ userAddressLimit ∨
      index 39 virtual.toNat ≥ 256 then
    return none
  else
    match metadataFind s root with
    | none => return none
    | some (slot, space) => do
      let locked ← chance
      if ¬ locked then return none
      else if ¬ ownedTable space (pml4e s.tables root virtual.toNat) ∨
          ¬ ownedTable space (pdpte s.tables root virtual.toNat) ∨
          ¬ ownedTable space (pde s.tables root virtual.toNat) ∨
          ¬ has (pte s.tables root virtual.toNat) ptePresent ∨
          ¬ has (pte s.tables root virtual.toNat) pteUser ∨
          frameOf (pte s.tables root virtual.toNat) ∉ space.leaves then
        return none
      else do
        setSpace slot (some { space with
          leaves := space.leaves.erase (frameOf (pte s.tables root virtual.toNat)) })
        setEntry (frameOf (pde s.tables root virtual.toNat)) (index 12 virtual.toNat) 0
        return some (frameOf (pte s.tables root virtual.toNat))

def sharedBranchOpen (s : Vm) : Prop :=
  ∃ i < 512, 256 ≤ i ∧ kernelSharedPml4Index i ∧ has (s.tables s.kernelPml4 i) pteUser

@[irreducible] instance decidableSharedBranchOpen (s : Vm) : Decidable (sharedBranchOpen s) :=
  inferInstanceAs (Decidable (∃ i < 512, _))

def registerRoot (root : Phys) : VmProg (Option Phys) := do
  let s ← Prog.get
  match metadataFree s with
  | none => do
    pmmFreeFrame root
    return none
  | some slot => do
    setSpace slot (some ⟨root, [], []⟩)
    let t ← Prog.get
    if AddressSpaceValid t ⟨root, [], []⟩ then return some root
    else do
      setSpace slot none
      pmmFreeFrame root
      return none

def vmmCreateAddressSpace : VmProg (Option Phys) := do
  match ← pmmAllocFrame with
  | none => return none
  | some root => do
    let s ← Prog.get
    if sharedBranchOpen s then do
      pmmFreeFrame root
      return none
    else do
      Prog.modify fun t => { t with
        tables := fun f i =>
          if f = root ∧ 256 ≤ i ∧ i < 512 ∧ kernelSharedPml4Index i then t.tables t.kernelPml4 i
          else t.tables f i }
      registerRoot root

def freeTables : List Phys → VmProg Unit
  | [] => pure ()
  | f :: rest => do
    let s ← Prog.get
    if kernelReachesTable s f then Prog.fail .ownsSharedTable
    else do
      pmmFreeFrame f
      freeTables rest

def vmmDestroyAddressSpace (root : Phys) : VmProg Bool := do
  let s ← Prog.get
  if root = s.kernelPml4 then return false
  else
    match metadataFind s root with
    | none => return false
    | some (slot, space) => do
      let locked ← chance
      if ¬ locked then return false
      else do
        setSpace slot none
        pmmFreeFrame root
        pmmFreeFrames space.leaves
        freeTables space.tables
        return true

end Mangrove.Vmm

namespace Mangrove.Vmm

lemma has_or {a b bits : Entry} : has (a ||| b) bits ↔ has a bits ∨ has b bits := by
  rw [has, has, has, BitVec.and_or_distrib_right, ne_eq, BitVec.or_eq_zero_iff, not_and_or]

variable {f : Phys} {bits : Phys}

lemma Frame.not_has (h : Frame f) (hb : pteFrameMask &&& bits = 0#64) : ¬ has f bits := by
  rw [has, not_not, ← h.2.1, frameOf, BitVec.and_assoc, hb, BitVec.and_zero]

lemma frameOf_or (h : Frame f) (hb : bits &&& pteFrameMask = 0#64) :
    frameOf (f ||| bits) = f := by
  rw [frameOf, BitVec.and_or_distrib_right, hb, BitVec.or_zero]
  exact h.2.1

lemma Tables.set_same (tables : Tables) (t : Phys) (i : Nat) (e : Entry) :
    tables.set t i e t i = e := by
  simp [Tables.set]

variable {e : Entry}

lemma Tables.set_of_ne {tables : Tables} {t u : Phys} {i j : Nat} (h : u ≠ t) :
    tables.set t i e u j = tables u j := by
  simp [Tables.set, h]

/-- Whose a frame is. -/
inductive Owner where
  | kernel (level : Nat)
  | root
  | table (root : Phys) (level : Nat)
  | leaf (root : Phys)
  | held
deriving DecidableEq

abbrev Owners := Phys → Option Owner

def Owners.set (owner : Owners) (f : Phys) (o : Option Owner) : Owners :=
  fun g => if g = f then o else owner g

lemma Owners.set_same (owner : Owners) (f : Phys) (o : Option Owner) :
    owner.set f o f = o := if_pos rfl

variable {owner : Owners} {o : Option Owner} {g : Phys}

lemma Owners.set_of_ne (h : g ≠ f) :
    owner.set f o g = owner g := if_neg h

open Owners (set_same set_of_ne)

lemma set_some_iff {p : Owner} (hf : owner f ≠ some p)
    (ho : o ≠ some p) : owner.set f o g = some p ↔ owner g = some p := by
  by_cases hg : g = f
  · subst hg
    rw [set_same]
    exact iff_of_false ho hf
  · rw [set_of_ne hg]

/-- An entry that leads to a table. -/
structure Link (e : Entry) : Prop where
  present : has e ptePresent
  readwrite : has e pteReadwrite
  user : has e pteUser
  not_huge : ¬ has e pteHuge

/-- What an entry of a table of the kernel may be. -/
structure KernelEntry (owner : Owners) (level : Nat) (e : Entry) : Prop where
  supervisor : ¬ has e pteUser
  below : 1 < level → has e ptePresent → owner (frameOf e) = some (.kernel (level - 1))

def UserEntry (owner : Owners) (root : Phys) (level : Nat) (e : Entry) : Prop :=
  e = 0 ∨ Link e ∧ owner (frameOf e) = some (.table root (level - 1))

/-- What an entry in the upper half of a root may be: one of those shared with the kernel. -/
structure BranchEntry (owner : Owners) (i : Nat) (e : Entry) : Prop where
  supervisor : ¬ has e pteUser
  shared : has e ptePresent → kernelSharedPml4Index i ∧ owner (frameOf e) = some (.kernel 3)

/-- What the entries of a frame are, given who owns it. The entries that map pages are the
caller's choice; they have in common what every map so far asked for. -/
def Content (P : Entry → Prop) (owner : Owners) (t : Phys) (entries : Nat → Entry) : Owner → Prop
  | .kernel level => ∀ i, KernelEntry owner level (entries i)
  | .root => (∀ i < 256, UserEntry owner t 4 (entries i)) ∧
      ∀ i, 256 ≤ i → BranchEntry owner i (entries i)
  | .table root level => (1 < level → ∀ i, UserEntry owner root level (entries i)) ∧
      (level = 1 → ∀ i, entries i = 0 ∨ P (entries i))
  | .leaf _ => True
  | .held => True

def Owner.space (f : Phys) : Owner → Option Phys
  | .root => some f
  | .table r _ => some r
  | .leaf r => some r
  | .kernel _ => none
  | .held => none

/-- The frames that a space records are the ones it owns. -/
structure SpaceOwned (owner : Owners) (space : Space) : Prop where
  root : owner space.root = some .root
  tables_nodup : space.tables.Nodup
  mem_tables : ∀ f, f ∈ space.tables ↔ ∃ l, owner f = some (.table space.root l)
  leaves_nodup : space.leaves.Nodup
  mem_leaves : ∀ f, f ∈ space.leaves ↔ owner f = some (.leaf space.root)

/-- Every table and every page has its owner, and the entries lead to nothing else. -/
structure Owned (P : Entry → Prop) (s : Vm) (owner : Owners) : Prop where
  allocated : ∀ f, s.allocated f = true ↔ owner f ≠ none
  frame : ∀ f, owner f ≠ none → Frame f
  kernelPml4 : owner s.kernelPml4 = some (.kernel 4)
  content : ∀ t o, owner t = some o → Content P owner t (s.tables t) o
  spaces : ∀ i space, s.metadata i = some space → SpaceOwned owner space
  slot_unique : ∀ i j space space', s.metadata i = some space → s.metadata j = some space' →
    space.root = space'.root → i = j
  home : ∀ f o r, owner f = some o → o.space f = some r →
    ∃ i space, s.metadata i = some space ∧ space.root = r

def KeepsTables (owner owner' : Owners) : Prop :=
  (∀ f l, owner f = some (.kernel l) → owner' f = some (.kernel l)) ∧
    ∀ f r l, owner f = some (.table r l) → owner' f = some (.table r l)

variable {owner' : Owners} {level : Nat} {P : Entry → Prop}

lemma KernelEntry.keep
    (h : KernelEntry owner level e) (hk : KeepsTables owner owner') : KernelEntry owner' level e :=
  ⟨h.supervisor, fun hl hp => hk.1 _ _ (h.below hl hp)⟩

lemma UserEntry.keep {root : Phys}
    (h : UserEntry owner root level e) (hk : KeepsTables owner owner') :
    UserEntry owner' root level e :=
  h.imp_right fun h => ⟨h.1, hk.2 _ _ _ h.2⟩

lemma BranchEntry.keep {i : Nat}
    (h : BranchEntry owner i e) (hk : KeepsTables owner owner') : BranchEntry owner' i e :=
  ⟨h.supervisor, fun hp => ⟨(h.shared hp).1, hk.1 _ _ (h.shared hp).2⟩⟩

lemma Content.keep {t : Phys} {entries : Nat → Entry} {o : Owner}
    (h : Content P owner t entries o) (hk : KeepsTables owner owner') :
    Content P owner' t entries o := by
  cases o with
  | kernel level => exact fun i => (h i).keep hk
  | root => exact ⟨fun i hi => (h.1 i hi).keep hk, fun i hi => (h.2 i hi).keep hk⟩
  | table root level => exact ⟨fun hl i => (h.1 hl i).keep hk, h.2⟩
  | leaf | held => trivial

lemma keepsTables_set
    (h : owner f = none ∨ owner f = some .held ∨ ∃ r, owner f = some (.leaf r)) :
    KeepsTables owner (owner.set f o) := by
  constructor
  · intro g l hg
    rw [set_of_ne]
    · exact hg
    · rintro rfl
      rcases h with h | h | ⟨r, h⟩ <;> simp [h] at hg
  · intro g r l hg
    rw [set_of_ne]
    · exact hg
    · rintro rfl
      rcases h with h | h | ⟨r, h⟩ <;> simp [h] at hg

section

variable {s : Vm}

lemma Owned.not_allocated (h : Owned P s owner) (hf : s.allocated f = false) : owner f = none := by
  by_contra hne
  have := (h.allocated f).mpr hne
  rw [hf] at this
  exact Bool.false_ne_true this

lemma SpaceOwned.other {space : Space} (h : SpaceOwned owner space)
    (hold : ∀ p, owner f = some p → p.space f ≠ some space.root)
    (hnew : ∀ p, o = some p → p.space f ≠ some space.root) : SpaceOwned (owner.set f o) space := by
  have hsame (g : Phys) (p : Owner) (hp : p.space g = some space.root) :
      owner.set f o g = some p ↔ owner g = some p := by
    by_cases hg : g = f
    · subst hg
      rw [set_same]
      exact iff_of_false (fun ho => hnew p ho hp) (fun ho => hold p ho hp)
    · rw [set_of_ne hg]
  refine ⟨(hsame _ _ rfl).mpr h.root, h.tables_nodup, fun g => ?_, h.leaves_nodup, fun g => ?_⟩
  · simp only [hsame g (.table space.root _) rfl, h.mem_tables]
  · rw [hsame g (.leaf space.root) rfl, h.mem_leaves]

def Loose (o : Option Owner) : Prop := o = none ∨ o = some .held

lemma Loose.space (h : Loose o) {p : Owner} (hp : o = some p) (r : Phys) :
    p.space f ≠ some r := by
  rcases h with rfl | rfl
  · cases hp
  · cases hp
    simp [Owner.space]

lemma set_eq_iff (hf : Loose (owner f)) (ho : Loose o) (g : Phys) (p : Owner)
    (hp : p ≠ .held) : owner.set f o g = some p ↔ owner g = some p := by
  refine set_some_iff ?_ ?_
  · rcases hf with hf | hf <;> simp [hf, hp.symm]
  · rcases ho with rfl | rfl <;> simp [hp.symm]

lemma Owned.loose {s' : Vm} (h : Owned P s owner) (hf : Loose (owner f))
    (ho : Loose o) (hframe : o ≠ none → Frame f)
    (hallocated : ∀ g, s'.allocated g = if g = f then o.isSome else s.allocated g)
    (htables : ∀ t, t ≠ f → s'.tables t = s.tables t) (hkernel : s'.kernelPml4 = s.kernelPml4)
    (hmetadata : s'.metadata = s.metadata) : Owned P s' (owner.set f o) := by
  have hkeep : KeepsTables owner (owner.set f o) :=
    keepsTables_set (hf.imp_right .inl)
  refine ⟨fun g => ?_, fun g hg => ?_, ?_, fun t p ht => ?_, fun i space hi => ?_, ?_, ?_⟩
  · rw [hallocated]
    by_cases hg : g = f
    · subst hg
      rw [if_pos rfl, set_same, Option.isSome_iff_ne_none]
    · rw [if_neg hg, set_of_ne hg, h.allocated]
  · by_cases hgf : g = f
    · subst hgf
      rw [set_same] at hg
      exact hframe hg
    · rw [set_of_ne hgf] at hg
      exact h.frame g hg
  · rw [hkernel]
    exact hkeep.1 _ _ h.kernelPml4
  · by_cases hp : p = .held
    · subst hp
      trivial
    · rw [set_eq_iff hf ho t p hp] at ht
      have htf : t ≠ f := by
        rintro rfl
        rcases hf with hf | hf <;> simp [hf, Ne.symm hp] at ht
      rw [htables t htf]
      exact (h.content t p ht).keep hkeep
  · rw [hmetadata] at hi
    exact (h.spaces i space hi).other (fun p hp => hf.space hp _) (fun p hp => ho.space hp _)
  · rw [hmetadata]
    exact h.slot_unique
  · rw [hmetadata]
    intro g p r hg hr
    have hp : p ≠ .held := by
      rintro rfl
      cases hr
    exact h.home g p r ((set_eq_iff hf ho g p hp).mp hg) hr

end

section

variable {s : Vm} {slot : Fin 64} {space space' : Space} {i : Fin 64} {x : Space}

lemma replaceSlot_cases {metadata : Fin 64 → Option Space} {o : Option Space}
    (h : replaceSlot metadata slot o i = some x) :
    (i = slot ∧ o = some x) ∨ (i ≠ slot ∧ metadata i = some x) := by
  unfold replaceSlot at h
  split at h
  · exact .inl ⟨‹_›, h⟩
  · exact .inr ⟨‹_›, h⟩

lemma Owned.replace_unique (h : Owned P s owner) (hslot : s.metadata slot = some space)
    (hroot : space'.root = space.root) :
    ∀ i j x y, replaceSlot s.metadata slot (some space') i = some x →
      replaceSlot s.metadata slot (some space') j = some y → x.root = y.root → i = j := by
  intro i j x y hi hj hxy
  rcases replaceSlot_cases hi with ⟨rfl, hx⟩ | ⟨-, hi'⟩ <;>
    rcases replaceSlot_cases hj with ⟨rfl, hy⟩ | ⟨-, hj'⟩
  · rfl
  · cases hx
    exact h.slot_unique _ _ _ _ hslot hj' (hroot ▸ hxy)
  · cases hy
    exact h.slot_unique _ _ _ _ hi' hslot (hxy.trans hroot)
  · exact h.slot_unique _ _ _ _ hi' hj' hxy

lemma replace_home (hslot : s.metadata slot = some space) (hroot : space'.root = space.root)
    {r : Phys} (h : ∃ i x, s.metadata i = some x ∧ x.root = r) :
    ∃ i x, replaceSlot s.metadata slot (some space') i = some x ∧ x.root = r := by
  obtain ⟨i, x, hi, rfl⟩ := h
  by_cases his : i = slot
  · subst his
    rw [hslot] at hi
    cases hi
    exact ⟨i, space', if_pos rfl, hroot⟩
  · exact ⟨i, x, (if_neg his).trans hi, rfl⟩

lemma Owned.root_ne (h : Owned P s owner) (hslot : s.metadata slot = some space)
    (hi : s.metadata i = some x) (his : i ≠ slot) : x.root ≠ space.root :=
  fun hr => his (h.slot_unique _ _ _ _ hi hslot hr)

end

section

variable {s s' : Vm} {slot : Fin 64} {space space' : Space} {t : Phys} {l i : Nat} {o : Owner}

/-- The allocated frames and the root of the kernel are as before. -/
structure SameFrames (s s' : Vm) : Prop where
  allocated : s'.allocated = s.allocated
  kernelPml4 : s'.kernelPml4 = s.kernelPml4

lemma Owned.allocated_set (h : Owned P s owner) (hsome : owner f ≠ none) (g : Phys) :
    s.allocated g = true ↔ owner.set f (some o) g ≠ none := by
  rw [h.allocated]
  by_cases hg : g = f
  · subst hg
    exact iff_of_true hsome (by simp [set_same])
  · rw [set_of_ne hg]

lemma Owned.frame_set (h : Owned P s owner) (hsome : owner f ≠ none) {g : Phys}
    (hg : owner.set f (some o) g ≠ none) : Frame g := by
  by_cases hgf : g = f
  · exact hgf ▸ h.frame f hsome
  · rw [set_of_ne hgf] at hg
    exact h.frame g hg

lemma Owned.reassign (h : Owned P s owner) (hslot : s.metadata slot = some space)
    (hf : owner f = some .held ∨ owner f = some (.leaf space.root))
    (ho : o = .held ∨ o.space f = some space.root) (hs : SameFrames s s')
    (hmetadata : s'.metadata = replaceSlot s.metadata slot (some space'))
    (hroot : space'.root = space.root) (hspace : SpaceOwned (owner.set f (some o)) space')
    (hcontent : ∀ u p, owner.set f (some o) u = some p →
      (u ≠ f → Content P (owner.set f (some o)) u (s.tables u) p) →
      Content P (owner.set f (some o)) u (s'.tables u) p) : Owned P s' (owner.set f (some o)) := by
  have hkeep : KeepsTables owner (owner.set f (some o)) :=
    keepsTables_set (.inr (hf.imp_right fun hf => ⟨_, hf⟩))
  have hsome : owner f ≠ none := by rcases hf with hf | hf <;> simp [hf]
  refine ⟨fun g => ?_, fun g hg => ?_, ?_, fun u p hu => ?_, fun j x hj => ?_, ?_,
    fun g p r hg hr => ?_⟩
  · rw [hs.allocated]
    exact h.allocated_set hsome g
  · exact h.frame_set hsome hg
  · rw [hs.kernelPml4]
    exact hkeep.1 _ _ h.kernelPml4
  · refine hcontent u p hu fun huf => ?_
    rw [set_of_ne huf] at hu
    exact (h.content u p hu).keep hkeep
  · rw [hmetadata] at hj
    rcases replaceSlot_cases hj with ⟨rfl, hx⟩ | ⟨hne, hj⟩
    · cases hx
      exact hspace
    · have hrne := h.root_ne hslot hj hne
      refine (h.spaces j x hj).other (fun p hp => ?_) (fun p hp => ?_)
      · rcases hf with hf | hf <;> rw [hf] at hp <;> cases hp
        · simp [Owner.space]
        · simpa [Owner.space] using hrne.symm
      · cases hp
        rcases ho with rfl | ho
        · simp [Owner.space]
        · rw [ho]
          simpa using hrne.symm
  · rw [hmetadata]
    exact h.replace_unique hslot hroot
  · rw [hmetadata]
    apply replace_home hslot hroot
    by_cases hgf : g = f
    · subst hgf
      rw [set_same] at hg
      cases hg
      rcases ho with rfl | ho
      · cases hr
      · rw [ho] at hr
        cases hr
        exact ⟨slot, space, hslot, rfl⟩
    · rw [set_of_ne hgf] at hg
      exact h.home g p r hg hr

def Above (owner : Owners) (root t : Phys) (l i : Nat) : Prop :=
  (t = root ∧ owner t = some .root ∧ l = 4 ∧ i < 256) ∨ (owner t = some (.table root l) ∧ 1 < l)

lemma link_entry (hf : Frame f) : Link (f ||| (ptePresent ||| pteReadwrite ||| pteUser)) ∧
    frameOf (f ||| (ptePresent ||| pteReadwrite ||| pteUser)) = f := by
  refine ⟨⟨?_, ?_, ?_, ?_⟩, frameOf_or hf (by decide)⟩
  · exact has_or.mpr (.inr (by decide))
  · exact has_or.mpr (.inr (by decide))
  · exact has_or.mpr (.inr (by decide))
  · rw [has_or, not_or]
    exact ⟨hf.not_has (by decide), by decide⟩

variable {tables : Tables}

lemma Tables.set_other {t u : Phys} {i : Nat} (h : u ≠ t) : tables.set t i e u = tables u := by
  funext j
  simp [Tables.set, h]

lemma Tables.set_cases (tables : Tables) (t : Phys) (i j : Nat) (e : Entry) :
    tables.set t i e t j = e ∨ j ≠ i ∧ tables.set t i e t j = tables t j := by
  by_cases hj : j = i
  · exact .inl (by simp [Tables.set, hj])
  · exact .inr ⟨hj, by simp [Tables.set, hj]⟩

variable {root : Phys}

lemma Content.set_user
    (h : Content P owner t (tables t) o) (ho : owner t = some o) (ht : Above owner root t l i)
    (he : UserEntry owner root l e) : Content P owner t (tables.set t i e t) o := by
  rcases ht with ⟨rfl, hroot, rfl, hi⟩ | ⟨htable, hl⟩
  · rw [hroot] at ho
    cases ho
    refine ⟨fun j hj => ?_, fun j hj => ?_⟩
    · rcases tables.set_cases t i j e with heq | ⟨-, heq⟩ <;> rw [heq]
      · exact he
      · exact h.1 j hj
    · rcases tables.set_cases t i j e with heq | ⟨-, heq⟩
      · rw [Tables.set, if_neg (by omega)]
        exact h.2 j hj
      · rw [heq]
        exact h.2 j hj
  · rw [htable] at ho
    cases ho
    refine ⟨fun hl j => ?_, fun hone => absurd hl (by omega)⟩
    rcases tables.set_cases t i j e with heq | ⟨-, heq⟩ <;> rw [heq]
    · exact he
    · exact h.1 hl j

lemma Above.ne_held (h : Above owner root t l i) (hf : owner f = some .held) : t ≠ f := by
  rintro rfl
  rcases h with ⟨-, h, -⟩ | ⟨h, -⟩ <;> simp [hf] at h

lemma Above.set {o : Option Owner} (h : Above owner root t l i) (hf : t ≠ f) :
    Above (owner.set f o) root t l i := by
  unfold Above
  rw [set_of_ne hf]
  exact h

lemma Owned.linkTable (h : Owned P s owner) (hslot : s.metadata slot = some space)
    (ht : Above owner space.root t l i) (hf : owner f = some .held)
    (hzero : ∀ j, s.tables f j = 0) (hs : SameFrames s s') (hmetadata : s'.metadata =
      replaceSlot s.metadata slot (some { space with tables := f :: space.tables }))
    (htables : s'.tables = s.tables.set t i (f ||| (ptePresent ||| pteReadwrite ||| pteUser))) :
    Owned P s' (owner.set f (some (.table space.root (l - 1)))) := by
  have htf := ht.ne_held hf
  have hspace := h.spaces slot space hslot
  have hrf : space.root ≠ f := fun hr => by simp [← hr, hspace.root] at hf
  obtain ⟨hlink, hframeOf⟩ := link_entry (h.frame f (by simp [hf]))
  refine h.reassign hslot (.inl hf) (.inr rfl) hs hmetadata rfl ?_ ?_
  · refine ⟨(set_of_ne hrf).trans hspace.root, ?_, fun g => ?_, hspace.leaves_nodup,
      fun g => ?_⟩
    · refine List.nodup_cons.mpr ⟨fun hmem => ?_, hspace.tables_nodup⟩
      obtain ⟨k, hk⟩ := (hspace.mem_tables f).mp hmem
      simp [hf] at hk
    · rw [List.mem_cons]
      by_cases hg : g = f
      · subst hg
        simp [set_same]
      · rw [set_of_ne hg, hspace.mem_tables]
        simp [hg]
    · rw [hspace.mem_leaves, set_some_iff (by simp [hf]) (by simp)]
  · intro u p hu hold
    rw [htables]
    by_cases hut : u = t
    · subst hut
      exact (hold htf).set_user hu (ht.set htf)
        (.inr ⟨hlink, by rw [hframeOf, set_same]⟩)
    · rw [Tables.set_other hut]
      by_cases huf : u = f
      · subst huf
        rw [set_same] at hu
        cases hu
        exact ⟨fun _ j => .inl (hzero j), fun _ j => .inl (hzero j)⟩
      · exact hold huf

lemma content_set_pt {u : Phys} {p : Owner} (ht : owner.set f (some o) t = some (.table root 1))
    (htf : t ≠ f) (he : e = 0 ∨ P e)
    (htables : s'.tables = s.tables.set t i e) (ho : ∀ entries, Content P (owner.set f (some o)) f entries o)
    (hu : owner.set f (some o) u = some p)
    (hold : u ≠ f → Content P (owner.set f (some o)) u (s.tables u) p) :
    Content P (owner.set f (some o)) u (s'.tables u) p := by
  by_cases hut : u = t
  · subst hut
    have hcontent := hold htf
    rw [ht] at hu
    cases hu
    refine ⟨fun hl => absurd hl (by decide), fun hone j => ?_⟩
    rw [htables]
    rcases s.tables.set_cases u i j e with heq | ⟨-, heq⟩ <;> rw [heq]
    · exact he
    · exact hcontent.2 hone j
  · rw [htables, Tables.set_other hut]
    by_cases huf : u = f
    · subst huf
      rw [set_same] at hu
      cases hu
      exact ho _
    · exact hold huf

lemma Owned.linkLeaf (h : Owned P s owner) (hslot : s.metadata slot = some space)
    (ht : owner t = some (.table space.root 1)) (hf : owner f = some .held) (he : P e)
    (hs : SameFrames s s')
    (hmetadata : s'.metadata =
      replaceSlot s.metadata slot (some { space with leaves := f :: space.leaves }))
    (htables : s'.tables = s.tables.set t i e) :
    Owned P s' (owner.set f (some (.leaf space.root))) := by
  have htf : t ≠ f := fun hr => by simp [hr, hf] at ht
  have hspace := h.spaces slot space hslot
  have hrf : space.root ≠ f := fun hr => by simp [← hr, hspace.root] at hf
  refine h.reassign hslot (.inl hf) (.inr rfl) hs hmetadata rfl ?_ ?_
  · refine ⟨(set_of_ne hrf).trans hspace.root, hspace.tables_nodup, fun g => ?_, ?_,
      fun g => ?_⟩
    · rw [hspace.mem_tables]
      exact exists_congr fun k => (set_some_iff (by simp [hf]) (by simp)).symm
    · refine List.nodup_cons.mpr ⟨fun hmem => ?_, hspace.leaves_nodup⟩
      have hk := (hspace.mem_leaves f).mp hmem
      simp [hf] at hk
    · rw [List.mem_cons]
      by_cases hg : g = f
      · subst hg
        simp [set_same]
      · rw [set_of_ne hg, hspace.mem_leaves]
        simp [hg]
  · intro u p hu hold
    exact content_set_pt ((set_of_ne htf).trans ht) htf (.inr he) htables (fun _ => trivial) hu hold

lemma Owned.unlinkLeaf (h : Owned P s owner) (hslot : s.metadata slot = some space)
    (ht : owner t = some (.table space.root 1)) (hf : f ∈ space.leaves)
    (hs : SameFrames s s')
    (hmetadata : s'.metadata =
      replaceSlot s.metadata slot (some { space with leaves := space.leaves.erase f }))
    (htables : s'.tables = s.tables.set t i 0) : Owned P s' (owner.set f (some .held)) := by
  have hspace := h.spaces slot space hslot
  have hleaf := (hspace.mem_leaves f).mp hf
  have htf : t ≠ f := fun hr => by simp [hr, hleaf] at ht
  have hrf : space.root ≠ f := fun hr => by simp [← hr, hspace.root] at hleaf
  refine h.reassign hslot (.inr hleaf) (.inl rfl) hs hmetadata rfl ?_ ?_
  · refine ⟨(set_of_ne hrf).trans hspace.root, hspace.tables_nodup, fun g => ?_,
      hspace.leaves_nodup.erase f, fun g => ?_⟩
    · rw [hspace.mem_tables]
      exact exists_congr fun k => (set_some_iff (by simp [hleaf]) (by simp)).symm
    · rw [hspace.leaves_nodup.mem_erase_iff]
      by_cases hg : g = f
      · subst hg
        simp [set_same]
      · rw [set_of_ne hg, hspace.mem_leaves]
        simp [hg]
  · intro u p hu hold
    exact content_set_pt ((set_of_ne htf).trans ht) htf (.inl rfl) htables (fun _ => trivial) hu hold

end

section

variable {s s' : Vm} {slot : Fin 64} {space : Space} {t : Phys} {l i : Nat}

lemma Owned.recontent (h : Owned P s owner) (hs : SameFrames s s') (hmetadata : s'.metadata = s.metadata)
    (hcontent : ∀ u o, owner u = some o → Content P owner u (s.tables u) o →
      Content P owner u (s'.tables u) o) : Owned P s' owner := by
  refine ⟨?_, h.frame, ?_, fun u o hu => hcontent u o hu (h.content u o hu), ?_, ?_, ?_⟩
  · rw [hs.allocated]
    exact h.allocated
  · rw [hs.kernelPml4]
    exact h.kernelPml4
  · rw [hmetadata]
    exact h.spaces
  · rw [hmetadata]
    exact h.slot_unique
  · rw [hmetadata]
    exact h.home

lemma Content.set_kernel {tables : Tables} {e : Entry} {o : Owner}
    (h : Content P owner t (tables t) o) (ho : owner t = some o) (ht : owner t = some (.kernel l))
    (he : KernelEntry owner l e) : Content P owner t (tables.set t i e t) o := by
  rw [ht] at ho
  cases ho
  intro j
  rcases tables.set_cases t i j e with heq | ⟨-, heq⟩ <;> rw [heq]
  · exact he
  · exact h j

lemma Owned.setKernel (h : Owned P s owner) (ht : owner t = some (.kernel l)) {e : Entry}
    (he : KernelEntry owner l e) (hs : SameFrames s s') (hmetadata : s'.metadata = s.metadata)
    (htables : s'.tables = s.tables.set t i e) : Owned P s' owner := by
  refine h.recontent hs hmetadata fun u o hu hold => ?_
  rw [htables]
  by_cases hut : u = t
  · subst hut
    exact hold.set_kernel hu ht he
  · rw [Tables.set_other hut]
    exact hold

lemma kernelEntry_zero (owner : Owners) (level : Nat) : KernelEntry owner level 0 :=
  ⟨by decide, fun _ hp => absurd hp (by decide)⟩

section

variable (h : Owned P s owner)

include h

lemma Owned.adoptKernel (hf : owner f = some .held)
    (hzero : ∀ j, s.tables f j = 0) : Owned P s (owner.set f (some (.kernel l))) := by
  have hkeep : KeepsTables owner (owner.set f (some (.kernel l))) := keepsTables_set (.inr (.inl hf))
  have hsome : owner f ≠ none := by simp [hf]
  refine ⟨fun g => ?_, fun g hg => ?_, hkeep.1 _ _ h.kernelPml4, fun u o hu => ?_,
    fun j x hj => ?_, h.slot_unique, fun g o r hg hr => ?_⟩
  · exact h.allocated_set hsome g
  · exact h.frame_set hsome hg
  · by_cases huf : u = f
    · subst huf
      rw [set_same] at hu
      cases hu
      intro j
      rw [hzero j]
      exact kernelEntry_zero _ _
    · rw [set_of_ne huf] at hu
      exact (h.content u o hu).keep hkeep
  · refine (h.spaces j x hj).other (fun p hp => ?_) (fun p hp => ?_)
    · rw [hf] at hp
      cases hp
      simp [Owner.space]
    · cases hp
      simp [Owner.space]
  · by_cases hgf : g = f
    · subst hgf
      rw [set_same] at hg
      cases hg
      cases hr
    · rw [set_of_ne hgf] at hg
      exact h.home g o r hg hr

lemma Owned.linkKernel (ht : owner t = some (.kernel l))
    (hf : owner f = some .held) (hzero : ∀ j, s.tables f j = 0) (hs : SameFrames s s')
    (hmetadata : s'.metadata = s.metadata)
    (htables : s'.tables = s.tables.set t i (f ||| (ptePresent ||| pteReadwrite))) :
    Owned P s' (owner.set f (some (.kernel (l - 1)))) := by
  have hframe := h.frame f (by simp [hf])
  have htf : t ≠ f := fun hr => by simp [hr, hf] at ht
  refine (h.adoptKernel hf hzero).setKernel ((set_of_ne htf).trans ht) ⟨?_, fun _ _ => ?_⟩
    hs hmetadata htables
  · rw [has_or, not_or]
    exact ⟨hframe.not_has (by decide), by decide⟩
  · rw [frameOf_or hframe (by decide), set_same]

lemma Owned.publish (hs : SameFrames s s') (hmetadata : s'.metadata = s.metadata)
    (htables : ∀ u j, s'.tables u j = s.tables u j ∨
      owner u = some .root ∧ 256 ≤ j ∧ kernelSharedPml4Index j ∧
        s'.tables u j = s.tables s.kernelPml4 j) : Owned P s' owner := by
  refine h.recontent hs hmetadata fun u o hu hold => ?_
  by_cases hroot : o = .root
  · subst hroot
    refine ⟨fun j hj => ?_, fun j hj => ?_⟩
    · rcases htables u j with heq | ⟨-, hge, -⟩
      · rw [heq]
        exact hold.1 j hj
      · omega
    · rcases htables u j with heq | ⟨-, -, hshared, heq⟩
      · rw [heq]
        exact hold.2 j hj
      · have hentry := h.content _ _ h.kernelPml4 j
        rw [heq]
        exact ⟨hentry.supervisor, fun hp => ⟨hshared, hentry.below (by decide) hp⟩⟩
  · have heq : s'.tables u = s.tables u := by
      funext j
      rcases htables u j with heq | ⟨hr, -⟩
      · exact heq
      · rw [hu] at hr
        cases hr
        exact absurd rfl hroot
    rw [heq]
    exact hold

lemma Owned.root_held (hf : owner f = some .held)
    (hslot : s.metadata slot = some space) : space.root ≠ f := by
  rintro rfl
  simp [(h.spaces slot space hslot).root] at hf

lemma Owned.newRoot (hf : owner f = some .held)
    (hslot : s.metadata slot = none) (hlower : ∀ j < 256, s.tables f j = 0)
    (hupper : ∀ j, 256 ≤ j → BranchEntry owner j (s.tables f j)) (hs : SameFrames s s')
    (hmetadata : s'.metadata = replaceSlot s.metadata slot (some ⟨f, [], []⟩))
    (htables : s'.tables = s.tables) : Owned P s' (owner.set f (some .root)) := by
  have hkeep : KeepsTables owner (owner.set f (some .root)) := keepsTables_set (.inr (.inl hf))
  have hsome : owner f ≠ none := by simp [hf]
  have hnew (g : Phys) (o : Owner) (hg : owner g = some o) : o.space g ≠ some f := by
    intro hs
    obtain ⟨i, x, hi, hx⟩ := h.home g o f hg hs
    exact h.root_held hf hi hx
  refine ⟨fun g => ?_, fun g hg => ?_, ?_, fun u o hu => ?_, fun j x hj => ?_,
    fun i j x y hi hj hxy => ?_, fun g o r hg hr => ?_⟩
  · rw [hs.allocated]
    exact h.allocated_set hsome g
  · exact h.frame_set hsome hg
  · rw [hs.kernelPml4]
    exact hkeep.1 _ _ h.kernelPml4
  · rw [htables]
    by_cases huf : u = f
    · subst huf
      rw [set_same] at hu
      cases hu
      exact ⟨fun j hj => .inl (hlower j hj), fun j hj => (hupper j hj).keep hkeep⟩
    · rw [set_of_ne huf] at hu
      exact (h.content u o hu).keep hkeep
  · rw [hmetadata] at hj
    rcases replaceSlot_cases hj with ⟨rfl, hx⟩ | ⟨hne, hj⟩
    · cases hx
      refine ⟨set_same _ _ _, List.nodup_nil, fun g => ?_, List.nodup_nil, fun g => ?_⟩
      · refine iff_of_false (List.not_mem_nil) ?_
        rintro ⟨l, hl⟩
        exact hnew g _ ((set_some_iff (by simp [hf]) (by simp)).mp hl) rfl
      · refine iff_of_false (List.not_mem_nil) fun hl => ?_
        exact hnew g _ ((set_some_iff (by simp [hf]) (by simp)).mp hl) rfl
    · refine (h.spaces j x hj).other (fun p hp => ?_) (fun p hp => ?_)
      · rw [hf] at hp
        cases hp
        simp [Owner.space]
      · cases hp
        simpa [Owner.space] using (h.root_held hf hj).symm
  · rw [hmetadata] at hi hj
    rcases replaceSlot_cases hi with ⟨rfl, hx⟩ | ⟨-, hi'⟩ <;>
      rcases replaceSlot_cases hj with ⟨rfl, hy⟩ | ⟨-, hj'⟩
    · rfl
    · cases hx
      exact absurd hxy.symm (h.root_held hf hj')
    · cases hy
      exact absurd hxy (h.root_held hf hi')
    · exact h.slot_unique _ _ _ _ hi' hj' hxy
  · rw [hmetadata]
    by_cases hgf : g = f
    · subst hgf
      rw [set_same] at hg
      cases hg
      cases hr
      exact ⟨slot, ⟨g, [], []⟩, if_pos rfl, rfl⟩
    · rw [set_of_ne hgf] at hg
      obtain ⟨i, x, hi, hx⟩ := h.home g o r hg hr
      refine ⟨i, x, (if_neg ?_).trans hi, hx⟩
      rintro rfl
      simp [hslot] at hi

end

def Owners.detach (owner : Owners) (root : Phys) : Owners := fun g =>
  (owner g).map fun o => if o.space g = some root then .held else o

lemma detach_eq_some {root g : Phys} {o : Owner} (ho : o ≠ .held) :
    owner.detach root g = some o ↔ owner g = some o ∧ o.space g ≠ some root := by
  unfold Owners.detach
  cases hg : owner g with
  | none => simp
  | some p =>
    simp only [Option.map_some, Option.some.injEq]
    split
    · next hp =>
      refine iff_of_false (Ne.symm ho) ?_
      rintro ⟨rfl, hne⟩
      exact hne hp
    · next hp =>
      constructor
      · rintro rfl
        exact ⟨rfl, hp⟩
      · exact And.left

lemma Owned.detach (h : Owned P s owner) (hslot : s.metadata slot = some space)
    (hs : SameFrames s s') (hmetadata : s'.metadata = replaceSlot s.metadata slot none)
    (htables : s'.tables = s.tables) : Owned P s' (owner.detach space.root) := by
  have hsome (g : Phys) : owner.detach space.root g ≠ none ↔ owner g ≠ none := by
    unfold Owners.detach
    cases owner g <;> simp
  have hkernelOwner (g : Phys) (l : Nat) (hg : owner g = some (.kernel l)) :
      owner.detach space.root g = some (.kernel l) :=
    (detach_eq_some (by simp)).mpr ⟨hg, by simp [Owner.space]⟩
  have htableOwner (g r : Phys) (l : Nat) (hg : owner g = some (.table r l)) (hr : r ≠ space.root) :
      owner.detach space.root g = some (.table r l) :=
    (detach_eq_some (by simp)).mpr ⟨hg, by simpa [Owner.space] using hr⟩
  refine ⟨fun g => ?_, fun g hg => ?_, ?_, fun u o hu => ?_, fun j x hj => ?_,
    fun i j x y hi hj hxy => ?_, fun g o r hg hr => ?_⟩
  · rw [hs.allocated, h.allocated, hsome]
  · exact h.frame g ((hsome g).mp hg)
  · rw [hs.kernelPml4]
    exact hkernelOwner _ _ h.kernelPml4
  · rw [htables]
    by_cases ho : o = .held
    · subst ho
      trivial
    obtain ⟨howner, hspace⟩ := (detach_eq_some ho).mp hu
    have hold := h.content u o howner
    cases o with
    | kernel l =>
      exact fun i => ⟨(hold i).supervisor, fun hl hp => hkernelOwner _ _ ((hold i).below hl hp)⟩
    | root =>
      have hne : u ≠ space.root := by simpa [Owner.space] using hspace
      refine ⟨fun i hi => ?_, fun i hi => ?_⟩
      · exact (hold.1 i hi).imp_right fun hl => ⟨hl.1, htableOwner _ _ _ hl.2 hne⟩
      · exact ⟨(hold.2 i hi).supervisor, fun hp =>
          ⟨((hold.2 i hi).shared hp).1, hkernelOwner _ _ ((hold.2 i hi).shared hp).2⟩⟩
    | table r l =>
      have hne : r ≠ space.root := by simpa [Owner.space] using hspace
      exact ⟨fun hl i => (hold.1 hl i).imp_right fun hl => ⟨hl.1, htableOwner _ _ _ hl.2 hne⟩, hold.2⟩
    | leaf | held => trivial
  · rw [hmetadata] at hj
    rcases replaceSlot_cases hj with ⟨-, hx⟩ | ⟨hne, hj⟩
    · cases hx
    · have hrne := h.root_ne hslot hj hne
      have hx := h.spaces j x hj
      have hsame (g : Phys) (o : Owner) (ho : o ≠ .held) (hs : o.space g = some x.root) :
          owner.detach space.root g = some o ↔ owner g = some o := by
        rw [detach_eq_some ho, hs]
        simp [hrne]
      refine ⟨(hsame _ _ (by simp) rfl).mpr hx.root, hx.tables_nodup, fun g => ?_,
        hx.leaves_nodup, fun g => ?_⟩
      · simp only [hsame g (.table x.root _) (by simp) rfl, hx.mem_tables]
      · rw [hsame g (.leaf x.root) (by simp) rfl, hx.mem_leaves]
  · rw [hmetadata] at hi hj
    rcases replaceSlot_cases hi with ⟨-, hx⟩ | ⟨-, hi'⟩
    · cases hx
    · rcases replaceSlot_cases hj with ⟨-, hy⟩ | ⟨-, hj'⟩
      · cases hy
      · exact h.slot_unique _ _ _ _ hi' hj' hxy
  · rw [hmetadata]
    have ho : o ≠ .held := by
      rintro rfl
      cases hr
    obtain ⟨howner, hspace⟩ := (detach_eq_some ho).mp hg
    obtain ⟨i, x, hi, rfl⟩ := h.home g o r howner hr
    refine ⟨i, x, (if_neg ?_).trans hi, rfl⟩
    rintro rfl
    rw [hslot] at hi
    cases hi
    exact hspace hr

end

end Mangrove.Vmm
