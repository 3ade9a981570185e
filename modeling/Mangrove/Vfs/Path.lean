import Mangrove.Mgfs.State

/-! Path resolution in the VFS, and the listing of a directory with mounts below it:
`vfs_readdir` numbers the entries of the driver first. Working directories are resolved in
512 bytes and kept in 256. -/

namespace Mangrove.Vfs

/-- The characters of a C string, without the terminating NUL. -/
abbrev Str := List UInt8

def slash : UInt8 := 47

def dot : UInt8 := 46

def rawSize : Nat := 512

def componentSize : Nat := 256

def stackSize : Nat := 32

/-- The text put into `raw`. -/
def rawPath (cwd : Option Str) (input : Str) : Str :=
  if input.head? = some slash then input
  else
    let base := if cwd.getD [] = [] then [slash] else cwd.getD []
    if base.getLast? = some slash then base ++ input else base ++ slash :: input

lemma length_dropWhile_drop_le {c : UInt8} {rest : Str} (hc : c ≠ slash) :
    (((c :: rest).dropWhile (· != slash)).drop 1).length ≤ rest.length := by
  have hd : (c :: rest).dropWhile (· != slash) = rest.dropWhile (· != slash) :=
    List.dropWhile_cons_of_pos (by simpa using hc)
  rw [hd, List.length_drop]
  have := (List.dropWhile_suffix (l := rest) (· != slash)).length_le
  omega

lemma head_dropWhile_slash {ptr rest : Str} {c : UInt8}
    (h : ptr.dropWhile (· == slash) = c :: rest) : c ≠ slash := by
  have := List.head?_dropWhile_not (· == slash) ptr
  rw [h] at this
  simpa using this

/-- The loop over `raw`. The stack has its top first. -/
def pushComponents (ptr : Str) (stack : List Str) : Except VfsError (List Str) :=
  match _h : ptr.dropWhile (· == slash) with
  | [] => .ok stack
  | c :: rest =>
    let comp := (c :: rest).takeWhile (· != slash)
    let next := ((c :: rest).dropWhile (· != slash)).drop 1
    if comp = [dot] then pushComponents next stack
    else if comp = [dot, dot] then pushComponents next stack.tail
    else if comp.length ≥ componentSize ∨ stack.length = stackSize then .error .invalidParam
    else pushComponents next (comp :: stack)
termination_by ptr.length
decreasing_by
  all_goals
    have h1 := @length_dropWhile_drop_le c rest (head_dropWhile_slash _h)
    have h2 := (List.dropWhile_suffix (l := ptr) (· == slash)).length_le
    rw [_h, List.length_cons] at h2
    omega

/-- The length of the text to write, `none` if it would not fit a `usize`. -/
def requiredLength : Nat → Nat → List Str → Option Nat
  | _, required, [] => some required
  | i, required, comp :: rest =>
    let separator := if i = 0 then 0 else 1
    if comp.length > sub64 (sub64 u64Max required) separator then none
    else requiredLength (i + 1) (required + comp.length + separator) rest

def writeComponents : Nat → Str → List Str → Str
  | _, out, [] => out
  | i, out, comp :: rest =>
    writeComponents (i + 1) ((if i = 0 then out else out ++ [slash]) ++ comp) rest

/-- The text left in the output buffer of `outSize` bytes. -/
def vfsResolvePath (cwd : Option Str) (input : Str) (outSize : Nat) : Except VfsError Str := do
  ensure (outSize ≠ 0) .invalidParam
  let raw := rawPath cwd input
  ensure (raw.length < rawSize) .invalidParam
  let stack ← pushComponents raw []
  match requiredLength 0 1 stack.reverse with
  | none => .error .invalidParam
  | some required => do
    ensure (required < outSize) .invalidParam
    return writeComponents 0 [slash] stack.reverse

/-- A component that stands for itself. -/
structure Name (comp : Str) : Prop where
  nonempty : comp ≠ []
  not_dot : comp ≠ [dot]
  not_dots : comp ≠ [dot, dot]
  no_slash : slash ∉ comp

def absolute (names : List Str) : Str := slash :: [slash].intercalate names

/-- The text is `/` followed by proper names with one `/` between them. -/
def Canonical (path : Str) : Prop := ∃ names, (∀ n ∈ names, Name n) ∧ path = absolute names

def components (path : Str) : List Str := (path.splitOn slash).filter (· ≠ [])

def fold (names : List Str) (comp : Str) : List Str :=
  if comp = [dot] then names else if comp = [dot, dot] then names.tail else comp :: names

/-- An absolute input replaces the working directory, any other continues it. -/
def joined (cwd input : Str) : List Str :=
  if input.head? = some slash then components input else components cwd ++ components input

def normalised (cwd input : Str) : Str := absolute ((joined cwd input).foldl fold []).reverse

/-- The limits of `vfs_resolve_path` on its scratch text, on each component, on
the components alive at any point, and on the output buffer. -/
structure Fits (cwd input : Str) (outSize : Nat) : Prop where
  raw : (rawPath (some cwd) input).length < rawSize
  component : ∀ c ∈ joined cwd input, c.length < componentSize
  live : ∀ names ∈ (joined cwd input).scanl fold [], names.length ≤ stackSize
  output : (normalised cwd input).length < outSize

lemma splitOn_append_slash (a b : Str) :
    (a ++ slash :: b).splitOn slash = a.splitOn slash ++ b.splitOn slash :=
  List.splitOnP_append_cons a b (by simp)

lemma components_append (a b : Str) :
    components (a ++ slash :: b) = components a ++ components b := by
  simp only [components, splitOn_append_slash, List.filter_append]

lemma components_nil : components [] = [] := by
  simp [components]

lemma components_slash (b : Str) : components (slash :: b) = components b := by
  simpa [components_nil] using components_append [] b

lemma components_of_no_slash {a : Str} (h : slash ∉ a) (hne : a ≠ []) : components a = [a] := by
  simp [components, List.splitOn_eq_singleton h, hne]

lemma components_dropWhile (ptr : Str) :
    components (ptr.dropWhile (· == slash)) = components ptr := by
  induction ptr with
  | nil => rfl
  | cons c rest ih =>
    by_cases hc : c = slash
    · subst hc
      rw [List.dropWhile_cons_of_pos (by simp), ih, components_slash]
    · rw [List.dropWhile_cons_of_neg (by simpa using hc)]

lemma components_takeWhile {ptr : Str} {c : UInt8} {rest : Str} (h : ptr = c :: rest)
    (hc : c ≠ slash) : components ptr = ptr.takeWhile (· != slash) ::
      components ((ptr.dropWhile (· != slash)).drop 1) := by
  have hno : slash ∉ ptr.takeWhile (· != slash) := by
    intro hmem
    simpa using List.mem_takeWhile_imp hmem
  have hne : ptr.takeWhile (· != slash) ≠ [] := by
    rw [h, List.takeWhile_cons_of_pos (by simpa using hc)]
    exact List.cons_ne_nil _ _
  have hsplit := List.takeWhile_append_dropWhile (p := (· != slash)) (l := ptr)
  cases hd : ptr.dropWhile (· != slash) with
  | nil =>
    rw [hd, List.append_nil] at hsplit
    rw [List.drop_nil, components_nil, ← components_of_no_slash hno hne, hsplit]
  | cons d tail =>
    have hslash : d = slash := by
      have := List.head?_dropWhile_not (· != slash) ptr
      rw [hd] at this
      simpa using this
    rw [hd, hslash] at hsplit
    rw [List.drop_one, List.tail_cons]
    conv_lhs => rw [← hsplit]
    rw [components_append, components_of_no_slash hno hne, List.singleton_append]

lemma splitOn_cons (c : UInt8) (rest : Str) : (c :: rest).splitOn slash =
      if c = slash then [] :: rest.splitOn slash else (rest.splitOn slash).modifyHead (c :: ·) := by
  have := List.splitOnP_cons_eq_if_modifyHead (p := (· == slash)) c rest
  simpa only [List.splitOn, beq_iff_eq] using this

variable {comp : Str} {path : Str}

lemma splitOn_no_slash (h : comp ∈ path.splitOn slash) : slash ∉ comp := by
  induction path generalizing comp with
  | nil => simp_all
  | cons c rest ih =>
    rw [splitOn_cons] at h
    split at h
    · rcases List.mem_cons.mp h with rfl | h
      · simp
      · exact ih h
    · next hc =>
      cases hs : rest.splitOn slash with
      | nil => exact absurd hs (List.splitOn_ne_nil _ _)
      | cons first others =>
        rw [hs, List.modifyHead_cons] at h
        rcases List.mem_cons.mp h with rfl | h
        · have := ih (hs ▸ List.mem_cons_self)
          simp [this, Ne.symm hc]
        · exact ih (hs ▸ List.mem_cons_of_mem _ h)

lemma components_spec (h : comp ∈ components path) : comp ≠ [] ∧ slash ∉ comp := by
  obtain ⟨hmem, hne⟩ := List.mem_filter.mp h
  exact ⟨by simpa using hne, splitOn_no_slash hmem⟩

def room (names : List Str) : Nat := (names.map fun n => n.length + 1).sum

@[simp] lemma room_nil : room [] = 0 := rfl

@[simp] lemma room_cons (n : Str) (names : List Str) :
    room (n :: names) = n.length + 1 + room names := by
  simp [room]

variable (names : List Str)

@[simp] lemma room_reverse : room names.reverse = room names := by
  simp [room]

lemma room_splitOn (path : Str) : room (path.splitOn slash) = path.length + 1 := by
  induction path with
  | nil => simp [room]
  | cons c rest ih =>
    rw [splitOn_cons]
    split
    · rw [room_cons, ih, List.length_nil, List.length_cons]
      omega
    · cases hs : rest.splitOn slash with
      | nil => exact absurd hs (List.splitOn_ne_nil _ _)
      | cons first others =>
        rw [hs, room_cons] at ih
        rw [List.modifyHead_cons, room_cons, List.length_cons, List.length_cons]
        omega

lemma room_filter_le (p : Str → Bool) : room (names.filter p) ≤ room names := by
  induction names with
  | nil => simp
  | cons n names ih =>
    by_cases hn : p n
    · rw [List.filter_cons_of_pos hn, room_cons, room_cons]
      omega
    · rw [List.filter_cons_of_neg hn, room_cons]
      omega

lemma room_components_slash (rest : Str) :
    room (components (slash :: rest)) ≤ (slash :: rest).length := by
  rw [components_slash, List.length_cons, ← room_splitOn rest]
  exact room_filter_le _ _

lemma room_fold_le (comp : Str) : room (fold names comp) ≤ room names + (comp.length + 1) := by
  unfold fold
  split
  · omega
  · split
    · cases names with
      | nil => simp
      | cons n names => simp only [List.tail_cons, room_cons]; omega
    · rw [room_cons]
      omega

lemma room_foldl_le (comps names : List Str) :
    room (comps.foldl fold names) ≤ room names + room comps := by
  induction comps generalizing names with
  | nil => simp
  | cons c comps ih =>
    rw [List.foldl_cons, room_cons]
    have h1 := ih (fold names c)
    have h2 := room_fold_le names c
    omega

lemma length_intercalate : ([slash].intercalate names).length = room names - 1 := by
  induction names with
  | nil => rfl
  | cons n names ih =>
    cases names with
    | nil => simp
    | cons m names =>
      have hn := room_cons n (m :: names)
      have hm := room_cons m names
      rw [List.intercalate_cons_cons, List.length_append, List.length_append, ih,
        List.length_singleton]
      omega

lemma length_absolute : (absolute names).length = room names - 1 + 1 := by
  rw [absolute, List.length_cons, length_intercalate]

def pushAll : List Str → List Str → Except VfsError (List Str)
  | [], stack => .ok stack
  | comp :: rest, stack =>
    if comp = [dot] then pushAll rest stack
    else if comp = [dot, dot] then pushAll rest stack.tail
    else if comp.length ≥ componentSize ∨ stack.length = stackSize then .error .invalidParam
    else pushAll rest (comp :: stack)

lemma pushComponents_eq (ptr : Str) (stack : List Str) :
    pushComponents ptr stack = pushAll (components ptr) stack := by
  fun_induction pushComponents ptr stack with
  | case1 ptr stack h => rw [← components_dropWhile, h, components_nil, pushAll]
  | case2 ptr stack c rest h comp next hdot ih =>
    rw [← components_dropWhile, h, components_takeWhile rfl (head_dropWhile_slash h), pushAll,
      if_pos hdot, ih]
  | case3 ptr stack c rest h comp next hdot hdots ih =>
    rw [← components_dropWhile, h, components_takeWhile rfl (head_dropWhile_slash h), pushAll,
      if_neg hdot, if_pos hdots, ih]
  | case4 ptr stack c rest h comp hdot hdots hlimit =>
    rw [← components_dropWhile, h, components_takeWhile rfl (head_dropWhile_slash h), pushAll,
      if_neg hdot, if_neg hdots, if_pos hlimit]
  | case5 ptr stack c rest h comp next hdot hdots hlimit ih =>
    rw [← components_dropWhile, h, components_takeWhile rfl (head_dropWhile_slash h), pushAll,
      if_neg hdot, if_neg hdots, if_neg hlimit, ih]

/-- Every component and every stack on the way is within its limit. -/
def WithinLimits (comps stack : List Str) : Prop :=
  (∀ c ∈ comps, c.length < componentSize) ∧
    ∀ names ∈ comps.scanl fold stack, names.length ≤ stackSize

variable {stack : List Str}

lemma withinLimits_cons {rest : List Str} (hs : stack.length ≤ stackSize) :
    WithinLimits (comp :: rest) stack ↔
      comp.length < componentSize ∧ WithinLimits rest (fold stack comp) := by
  simp only [WithinLimits, List.forall_mem_cons, List.scanl_cons]
  tauto

variable {comps : List Str}

section

variable (h : WithinLimits comps stack)

include h

lemma WithinLimits.length_foldl : (comps.foldl fold stack).length ≤ stackSize := by
  refine h.2 _ ?_
  have := List.getLast_mem (List.scanl_ne_nil (f := fold) (b := stack) (l := comps))
  rwa [List.getLast_scanl] at this

lemma WithinLimits.start : stack.length ≤ stackSize := by
  refine h.2 _ ?_
  cases comps <;> simp [List.scanl]

lemma pushAll_ok : pushAll comps stack = .ok (comps.foldl fold stack) := by
  induction comps generalizing stack with
  | nil => rfl
  | cons c comps ih =>
    obtain ⟨hc, hrest⟩ := (withinLimits_cons h.start).mp h
    have hstart := hrest.start
    rw [List.foldl_cons, ← ih hrest, pushAll]
    unfold fold at hstart ⊢
    split
    · rfl
    · split
      · rfl
      · rw [if_neg]
        simp_all
        omega

end

lemma pushAll_error (hs : stack.length ≤ stackSize)
    (h : ¬ WithinLimits comps stack) : pushAll comps stack = .error .invalidParam := by
  induction comps generalizing stack with
  | nil => exact absurd ⟨by simp, by simpa using hs⟩ h
  | cons c comps ih =>
    rw [withinLimits_cons hs, not_and] at h
    unfold fold at h
    rw [pushAll]
    split
    · next hdot =>
      have hc : c.length < componentSize := by simp [hdot, componentSize]
      exact ih hs (by simpa [hdot] using h hc)
    · next hdot =>
      split
      · next hdots =>
        have hc : c.length < componentSize := by simp [hdots, componentSize]
        have ht : stack.tail.length ≤ stackSize := by
          rw [List.length_tail]
          omega
        exact ih ht (by simpa [hdot, hdots] using h hc)
      · next hdots =>
        split
        · rfl
        · next hlimit =>
          rw [not_or, Nat.not_le] at hlimit
          have ht : (c :: stack).length ≤ stackSize := by
            rw [List.length_cons]
            omega
          exact ih ht (by simpa [hdot, hdots] using h hlimit.1)

variable {names : List Str}

lemma requiredLength_succ {i required : Nat} (h : required + room names ≤ u64Max) :
    requiredLength (i + 1) required names = some (required + room names) := by
  induction names generalizing i required with
  | nil => rfl
  | cons n names ih =>
    have hmax := u64Max_eq
    rw [room_cons] at h ⊢
    rw [requiredLength, if_neg (Nat.succ_ne_zero i), if_neg, ih (by omega)]
    · exact congrArg some (by omega)
    · simp only [sub64]
      omega

lemma requiredLength_eq (h : room names ≤ u64Max) :
    requiredLength 0 1 names = some (absolute names).length := by
  rw [length_absolute]
  cases names with
  | nil => rfl
  | cons n names =>
    have hmax := u64Max_eq
    rw [room_cons] at h ⊢
    rw [requiredLength, if_pos rfl, if_neg, requiredLength_succ (by omega)]
    · exact congrArg some (by omega)
    · simp only [sub64]
      omega

lemma writeComponents_succ (names : List Str) (i : Nat) (out : Str) :
    writeComponents (i + 1) out names = out ++ (names.map (slash :: ·)).flatten := by
  induction names generalizing i out with
  | nil => simp [writeComponents]
  | cons n names ih =>
    rw [writeComponents, if_neg (Nat.succ_ne_zero i), ih]
    simp

lemma intercalate_cons (n : Str) (names : List Str) :
    [slash].intercalate (n :: names) = n ++ (names.map (slash :: ·)).flatten := by
  induction names generalizing n with
  | nil => simp
  | cons m names ih =>
    rw [List.intercalate_cons_cons, ih]
    simp

lemma writeComponents_eq (names : List Str) :
    writeComponents 0 [slash] names = absolute names := by
  cases names with
  | nil => rfl
  | cons n names =>
    rw [writeComponents, if_pos rfl, writeComponents_succ, absolute, intercalate_cons]
    rfl

section

variable {cwd : Option Str} {input rest : Str} {outSize : Nat}

lemma room_live_le (path : Str) (h : path.head? = some slash) :
    room ((components path).foldl fold []).reverse ≤ path.length := by
  cases path with
  | nil => simp at h
  | cons c rest =>
    obtain rfl : c = slash := by simpa using h
    have h1 := room_foldl_le (components (slash :: rest)) []
    have h2 := room_components_slash rest
    rw [room_reverse]
    rw [room_nil] at h1
    omega

lemma vfsResolvePath_limits (hraw : (rawPath cwd input).length < rawSize)
    (hlimits : WithinLimits (components (rawPath cwd input)) [])
    (habs : (rawPath cwd input).head? = some slash) (hout : outSize ≠ 0) :
    vfsResolvePath cwd input outSize = (do
      ensure ((absolute ((components (rawPath cwd input)).foldl fold []).reverse).length < outSize)
        .invalidParam
      return absolute ((components (rawPath cwd input)).foldl fold []).reverse) := by
  have hroom : room ((components (rawPath cwd input)).foldl fold []).reverse ≤ u64Max := by
    have hlive := room_live_le _ habs
    have hmax := u64Max_eq
    unfold rawSize at hraw
    omega
  rw [vfsResolvePath, ensure_pos hout, ok_bind]
  simp only [ensure_pos hraw, ok_bind, pushComponents_eq, pushAll_ok hlimits,
    requiredLength_eq hroom, writeComponents_eq]

lemma vfsResolvePath_ok (hraw : (rawPath cwd input).length < rawSize)
    (hlimits : WithinLimits (components (rawPath cwd input)) [])
    (habs : (rawPath cwd input).head? = some slash)
    (hout : (absolute ((components (rawPath cwd input)).foldl fold []).reverse).length < outSize) :
    vfsResolvePath cwd input outSize =
      .ok (absolute ((components (rawPath cwd input)).foldl fold []).reverse) := by
  rw [vfsResolvePath_limits hraw hlimits habs (by omega), ensure_pos hout]
  rfl

lemma vfsResolvePath_error (habs : (rawPath cwd input).head? = some slash)
    (h : ¬ ((rawPath cwd input).length < rawSize ∧
      WithinLimits (components (rawPath cwd input)) [] ∧
      (absolute ((components (rawPath cwd input)).foldl fold []).reverse).length < outSize)) :
    vfsResolvePath cwd input outSize = .error .invalidParam := by
  by_cases hsize : outSize = 0
  · rw [vfsResolvePath, ensure_neg (by simpa using hsize)]
    rfl
  by_cases hraw : (rawPath cwd input).length < rawSize
  · by_cases hlimits : WithinLimits (components (rawPath cwd input)) []
    · rw [vfsResolvePath_limits hraw hlimits habs hsize]
      have hout := fun hout => h ⟨hraw, hlimits, hout⟩
      simp only [ensure_neg hout, error_bind]
    · rw [vfsResolvePath, ensure_pos hsize, ok_bind]
      simp only [ensure_pos hraw, ok_bind, pushComponents_eq,
        pushAll_error (Nat.zero_le _) hlimits, error_bind]
  · rw [vfsResolvePath, ensure_pos hsize, ok_bind]
    simp only [ensure_neg hraw, error_bind]

end

variable {input : Str}

lemma rawPath_of_absolute {cwd : Option Str} (h : input.head? = some slash) :
    rawPath cwd input = input := if_pos h

variable {cwd : Str}

lemma head_rawPath (h : Canonical cwd) (input : Str) :
    (rawPath (some cwd) input).head? = some slash := by
  obtain ⟨names, -, rfl⟩ := h
  unfold rawPath
  split
  · assumption
  · simp only [Option.getD_some, absolute, List.cons_ne_nil, if_false]
    split <;> rfl

lemma components_rawPath (h : Canonical cwd) (input : Str) :
    components (rawPath (some cwd) input) = joined cwd input := by
  have hne : cwd ≠ [] := by
    obtain ⟨names, -, rfl⟩ := h
    exact List.cons_ne_nil _ _
  unfold rawPath joined
  split
  · rfl
  · simp only [Option.getD_some, hne, if_false]
    split
    · next hlast =>
      obtain ⟨init, rfl⟩ : ∃ init, cwd = init ++ [slash] := by
        rw [List.getLast?_eq_some_iff] at hlast
        exact hlast
      rw [List.append_assoc, List.singleton_append, components_append, components_append,
        components_nil, List.append_nil]
    · rw [components_append]

lemma fold_names (h : ∀ n ∈ names, Name n)
    (hne : comp ≠ []) (hno : slash ∉ comp) : ∀ n ∈ fold names comp, Name n := by
  unfold fold
  split
  · exact h
  · split
    · exact fun n hn => h n (List.mem_of_mem_tail hn)
    · next hdot hdots =>
      rw [List.forall_mem_cons]
      exact ⟨⟨hne, hdot, hdots, hno⟩, h⟩

lemma foldl_names (h : ∀ n ∈ names, Name n)
    (hc : ∀ c ∈ comps, c ≠ [] ∧ slash ∉ c) : ∀ n ∈ comps.foldl fold names, Name n := by
  induction comps generalizing names with
  | nil => exact h
  | cons c comps ih =>
    rw [List.forall_mem_cons] at hc
    exact ih (fold_names h hc.1.1 hc.1.2) hc.2

lemma joined_spec (h : comp ∈ joined cwd input) : comp ≠ [] ∧ slash ∉ comp := by
  unfold joined at h
  split at h
  · exact components_spec h
  · rcases List.mem_append.mp h with h | h <;> exact components_spec h

lemma live_names (cwd input : Str) :
    ∀ n ∈ ((joined cwd input).foldl fold []).reverse, Name n := by
  intro n hn
  exact foldl_names (by simp) (fun c hc => joined_spec hc) n (List.mem_reverse.mp hn)

lemma normalised_canonical (cwd input : Str) : Canonical (normalised cwd input) :=
  ⟨_, live_names cwd input, rfl⟩

section

variable (h : ∀ n ∈ names, Name n)

include h

lemma components_absolute : components (absolute names) = names := by
  rw [absolute, components_slash]
  cases names with
  | nil => exact components_nil
  | cons n names =>
    rw [components, List.splitOn_intercalate slash (fun m hm => (h m hm).no_slash)
      (List.cons_ne_nil _ _), List.filter_eq_self]
    intro m hm
    simpa using (h m hm).nonempty

variable {live : List Str}

lemma foldl_of_names : names.foldl fold live = names.reverse ++ live := by
  induction names generalizing live with
  | nil => rfl
  | cons n names ih =>
    rw [List.forall_mem_cons] at h
    rw [List.foldl_cons, ih h.2, fold, if_neg h.1.not_dot, if_neg h.1.not_dots]
    simp

lemma withinLimits_names
    (hlen : ∀ n ∈ names, n.length < componentSize)
    (hlive : names.length + live.length ≤ stackSize) : WithinLimits names live := by
  induction names generalizing live with
  | nil => exact ⟨by simp, by simpa using hlive⟩
  | cons n names ih =>
    rw [List.forall_mem_cons] at h hlen
    rw [List.length_cons] at hlive
    rw [withinLimits_cons (by omega), fold, if_neg h.1.not_dot, if_neg h.1.not_dots]
    refine ⟨hlen.1, ih h.2 hlen.2 ?_⟩
    rw [List.length_cons]
    omega

end

lemma mem_foldl {n : Str} (h : n ∈ comps.foldl fold names) : n ∈ comps ∨ n ∈ names := by
  induction comps generalizing names with
  | nil => exact .inr h
  | cons c comps ih =>
    rcases ih h with h | h
    · exact .inl (List.mem_cons_of_mem _ h)
    · unfold fold at h
      split at h
      · exact .inr h
      · split at h
        · exact .inr (List.mem_of_mem_tail h)
        · rcases List.mem_cons.mp h with rfl | h
          · exact .inl List.mem_cons_self
          · exact .inr h

variable {outSize : Nat}

lemma Fits.limits (h : Fits cwd input outSize) :
    WithinLimits (joined cwd input) [] := ⟨h.component, h.live⟩

lemma Fits.resolves (h : Fits cwd input outSize) (hcwd : Canonical cwd) :
    vfsResolvePath (some cwd) input outSize = .ok (normalised cwd input) := by
  have hcomp := components_rawPath hcwd input
  have hok : vfsResolvePath (some cwd) input outSize = _ :=
    vfsResolvePath_ok h.raw (hcomp ▸ h.limits) (head_rawPath hcwd input) (hcomp ▸ h.output)
  rwa [hcomp] at hok

lemma resolves_of_fits (h : ¬ Fits cwd input outSize) (hcwd : Canonical cwd) :
    vfsResolvePath (some cwd) input outSize = .error .invalidParam := by
  apply vfsResolvePath_error (head_rawPath hcwd input)
  rw [components_rawPath hcwd input]
  rintro ⟨hraw, hlimits, hout⟩
  exact h ⟨hraw, hlimits.1, hlimits.2, hout⟩

lemma Fits.fixed (h : Fits cwd input outSize) (hcwd : Canonical cwd) (other : Option Str) :
    vfsResolvePath other (normalised cwd input) outSize = .ok (normalised cwd input) := by
  have hnames := live_names cwd input
  have hcomp := components_absolute hnames
  have hraw : rawPath other (normalised cwd input) = normalised cwd input := rawPath_of_absolute rfl
  have hfold : (components (normalised cwd input)).foldl fold [] =
      (joined cwd input).foldl fold [] := by
    rw [normalised, hcomp, foldl_of_names hnames, List.reverse_reverse, List.append_nil]
  have hlen := length_absolute ((joined cwd input).foldl fold []).reverse
  have hroom := room_live_le _ (head_rawPath hcwd input)
  rw [components_rawPath hcwd input] at hroom
  have hlt := h.raw
  unfold rawSize at hlt
  have hok := @vfsResolvePath_ok other (normalised cwd input) outSize
  rw [hraw, hfold] at hok
  refine hok ?_ ?_ rfl h.output
  · unfold rawSize normalised
    omega
  · rw [normalised, hcomp]
    refine withinLimits_names hnames ?_ ?_
    · intro n hn
      rcases mem_foldl (List.mem_reverse.mp hn) with hn | hn
      · exact h.component n hn
      · simp at hn
    · simpa using h.limits.length_foldl

/-- For a canonical working directory the resolved path is the lexical
normalisation of the joined text, canonical and resolved to itself, unless a
limit is exceeded, and then resolution fails. -/
theorem vfsResolvePath_normalises {cwd : Str} (hcwd : Canonical cwd) (input : Str) (outSize : Nat) :
    Canonical (normalised cwd input) ∧
      (Fits cwd input outSize →
        vfsResolvePath (some cwd) input outSize = .ok (normalised cwd input) ∧
          ∀ other, vfsResolvePath other (normalised cwd input) outSize =
            .ok (normalised cwd input)) ∧
      (¬ Fits cwd input outSize →
        vfsResolvePath (some cwd) input outSize = .error .invalidParam) :=
  ⟨normalised_canonical cwd input,
    fun h => ⟨h.resolves hcwd, h.fixed hcwd⟩,
    fun h => resolves_of_fits h hcwd⟩

/-- A path with `.` and `..` in it. -/
theorem vfsResolvePath_normalises_dots :
    vfsResolvePath (some [slash, 97]) [dot, dot, slash, slash, 98, slash] 8 = .ok [slash, 98] := by
  have hcwd : Canonical [slash, 97] :=
    ⟨[[97]], by simp only [List.forall_mem_singleton]; constructor <;> decide, rfl⟩
  have hfits : Fits [slash, 97] [dot, dot, slash, slash, 98, slash] 8 := by
    constructor <;> decide
  exact ((vfsResolvePath_normalises hcwd _ _).2.1 hfits).1

lemma normalised_append {rest : Str} (hne : input ≠ []) (hrest : rest.head? ≠ some slash) :
    normalised (normalised cwd input) rest = normalised cwd (input ++ slash :: rest) := by
  have hjoined : joined cwd (input ++ slash :: rest) = joined cwd input ++ components rest := by
    simp only [joined, List.head?_append_of_ne_nil _ hne, components_append]
    split <;> simp
  have hnames := live_names cwd input
  have hlive : joined (normalised cwd input) rest =
      ((joined cwd input).foldl fold []).reverse ++ components rest := by
    rw [joined, if_neg hrest, normalised, components_absolute hnames]
  rw [normalised, hlive, normalised, hjoined, List.foldl_append, List.foldl_append,
    foldl_of_names hnames, List.reverse_reverse, List.append_nil]

/-- Within the limits, a relative path resolves in the directory that another one resolves to as
the two joined do. -/
theorem vfsResolvePath_append {rest : Str} {n m k : Nat} (hcwd : Canonical cwd) (hne : input ≠ [])
    (hrest : rest.head? ≠ some slash) (hdir : Fits cwd input n)
    (hinner : Fits (normalised cwd input) rest m) (houter : Fits cwd (input ++ slash :: rest) k) :
    ∃ dir, vfsResolvePath (some cwd) input n = .ok dir ∧ vfsResolvePath (some dir) rest m =
      vfsResolvePath (some cwd) (input ++ slash :: rest) k := by
  refine ⟨_, hdir.resolves hcwd, ?_⟩
  rw [hinner.resolves (normalised_canonical cwd input), houter.resolves hcwd,
    normalised_append hne hrest]

/-- Down into a directory, and up from it. -/
theorem vfsResolvePath_append_parent : ∃ dir, vfsResolvePath (some [slash]) [97] 8 = .ok dir ∧
    vfsResolvePath (some dir) [dot, dot] 8 =
      vfsResolvePath (some [slash]) ([97] ++ slash :: [dot, dot]) 8 :=
  vfsResolvePath_append ⟨[], by simp, rfl⟩ (by decide) (by decide) (by constructor <;> decide)
    (by constructor <;> decide) (by constructor <;> decide)

/-- What the mount table reads of a node. -/
structure Node where
  super : Nat
  inode : Nat
deriving DecidableEq

def mountPathMax : Nat := 256

/-- A slot of `mount_table`; `root` is the root node of its super block. A mount made
by `vfs_mount_node` has no parent. -/
structure Mount where
  active : Bool
  parent : Option Node
  covered : Option Node
  name : List UInt8
  root : Option Node

def mountParentMatches (mount : Mount) (parent : Node) : Bool :=
  mount.active && mount.parent = some parent

/-- Two mounts are not found under one name. -/
def Mount.Apart (m n : Mount) : Prop :=
  ∀ parent, mountParentMatches m parent = true → mountParentMatches n parent = true →
    m.name ≠ n.name

/-- Slots 1 to 31 of `mount_table`. Slot 0 is the root of the tree, which every loop
here skips. -/
structure MountTable where
  slots : List Mount
  length_slots : slots.length = 31
  rooted : ∀ m ∈ slots, m.active = true → m.root.isSome = true
  short : ∀ m ∈ slots, m.name.length < mountPathMax
  apart : slots.Pairwise Mount.Apart

inductive MountError where
  | invalidParam
  | noMem
deriving DecidableEq

lemma Mount.Apart.symm {m n : Mount} (h : m.Apart n) : n.Apart m :=
  fun parent hn hm => (h parent hm hn).symm

variable {slots : List Mount} {mount : Mount}

lemma pairwise_set (h : slots.Pairwise Mount.Apart)
    (hm : ∀ m ∈ slots, m.Apart mount) (i : Nat) : (slots.set i mount).Pairwise Mount.Apart := by
  induction h generalizing i with
  | nil => simp
  | @cons m rest hfirst hrest ih =>
    cases i with
    | zero =>
      exact List.pairwise_cons.mpr
        ⟨fun n hn => (hm n (List.mem_cons_of_mem _ hn)).symm, hrest⟩
    | succ i =>
      refine List.pairwise_cons.mpr
        ⟨fun n hn => ?_, ih (fun n hn => hm n (List.mem_cons_of_mem _ hn)) i⟩
      rcases List.mem_or_eq_of_mem_set hn with hn | hn
      · exact hfirst n hn
      · exact hn ▸ hm m List.mem_cons_self

def MountTable.put (table : MountTable) (slot : Nat) (mount : Mount)
    (hroot : mount.active = true → mount.root.isSome = true)
    (hshort : mount.name.length < mountPathMax) (hapart : ∀ m ∈ table.slots, m.Apart mount) :
    MountTable where
  slots := table.slots.set slot mount
  length_slots := by rw [List.length_set, table.length_slots]
  rooted := fun m hm => (List.mem_or_eq_of_mem_set hm).elim (table.rooted m) fun h => h ▸ hroot
  short := fun m hm => (List.mem_or_eq_of_mem_set hm).elim (table.short m) fun h => h ▸ hshort
  apart := pairwise_set table.apart hapart slot

def noMount : Mount := ⟨false, none, none, [], none⟩

inductive NodeType where
  | unknown
  | file
  | directory
deriving DecidableEq

section

variable {table : MountTable} {dir : Dir} {entries : List Dirent}

end

def emptyTable : MountTable where
  slots := List.replicate 31 noMount
  length_slots := rfl
  rooted := fun m hm h => by rw [List.eq_of_mem_replicate hm] at h; cases h
  short := by decide
  apart := List.pairwise_replicate.mpr (.inr fun _ h => by cases h)

end Mangrove.Vfs

namespace Mangrove.Vfs.Cwd

def cwdSize : Nat := 256

/-- What `process_chdir` reads and writes of a process. -/
structure Process where
  active : Bool
  cwd : Str
  length_cwd : cwd.length < cwdSize

/-- A directory entry found, and whether `vfs_check_access` lets it be read. -/
structure Found where
  type : NodeType
  readable : Bool

def processResolvePath (p : Process) (input : Str) (outputSize : Nat) : Option Str :=
  if p.active = false ∨ outputSize < 2 ∨ input.length ≥ 256 then none
  else
    match vfsResolvePath (some p.cwd) input outputSize with
    | .error _ => none
    | .ok output =>
      if output.head? = some slash ∧ output.length < outputSize then some output else none

def processChdirResult (lookup : Str → Except VfsError Found) (p : Process) (input : Str) :
    Except VfsError Process :=
  match processResolvePath p input 512 with
  | none => .error .invalidParam
  | some path =>
    match lookup path with
    | .error e => .error e
    | .ok node =>
      if node.type ≠ .directory then .error .notFound
      else if node.readable = false then .error .accessDenied
      else .ok ⟨p.active, path.take (cwdSize - 1), by simp [cwdSize]⟩

def processAnyCwdUnderPath (all : List Process) (path : Str) : Bool :=
  if path.head? ≠ some slash ∨ path.length > 1 ∧ path.getLast? = some slash then false
  else all.any fun p => p.active && (p.cwd == path ||
    decide (path.length < cwdSize - 1) && p.cwd.take path.length == path &&
      p.cwd[path.length]? == some slash)

structure Mount where
  active : Bool
  sb : Nat
  mountPoint : Str

structure Super where
  active : Bool
  referenceCount : Nat

inductive Preflight where
  | ok
  | invalidParam
  | deviceGone
  | busy
deriving DecidableEq

def vfsUnmountPreflightSuper (supers : Nat → Super) (mounts : List Mount) (all : List Process) :
    Option Nat → Preflight
  | none => .invalidParam
  | some sb =>
    if (supers sb).active = false then .deviceGone
    else if (supers sb).referenceCount ≠ 0 then .busy
    else if mounts.any fun m => m.active && m.sb == sb && processAnyCwdUnderPath all m.mountPoint
    then .busy
    else .ok

/-- The directory `d` is `m` or lies below it. -/
def Below (m d : Str) : Prop := components m <+: components d

def SomeBelow (all : List Process) (m : Str) : Prop :=
  ∃ p ∈ all, p.active = true ∧ Below m p.cwd

lemma vfsResolvePath_canonical {cwd : Option Str} {input out : Str} {n : Nat}
    (h : vfsResolvePath cwd input n = .ok out) : Canonical out := by
  simp only [vfsResolvePath, ensure_bind_ok, pushComponents_eq] at h
  obtain ⟨-, -, h⟩ := h
  by_cases hlimits : WithinLimits (components (rawPath cwd input)) []
  · rw [pushAll_ok hlimits, ok_bind] at h
    split at h
    · cases h
    · obtain ⟨-, h⟩ := ensure_bind_ok.mp h
      rw [writeComponents_eq] at h
      obtain rfl : _ = out := Except.ok.inj h
      exact ⟨_, fun n hn => foldl_names (by simp) (fun c hc => components_spec hc) n
        (List.mem_reverse.mp hn), rfl⟩
  · rw [pushAll_error (Nat.zero_le _) hlimits] at h
    cases h

variable {p p' : Process} {input path : Str}

lemma processResolvePath_some {n : Nat} (h : processResolvePath p input n = some path) :
    vfsResolvePath (some p.cwd) input n = .ok path := by
  unfold processResolvePath at h
  grind

lemma processChdirResult_ok {lookup : Str → Except VfsError Found}
    (h : processChdirResult lookup p input = .ok p')
    (hpath : processResolvePath p input 512 = some path) : p'.cwd = path.take (cwdSize - 1) := by
  simp only [processChdirResult, hpath] at h
  grind

/-- The process works in the directory: relative paths are resolved from it. -/
structure WorksIn (p : Process) (directory : Str) : Prop where
  cwd : p.cwd = directory
  relative : ∀ input n path, input.head? ≠ some slash → processResolvePath p input n = some path →
    path = absolute ((components directory ++ components input).foldl fold []).reverse

lemma worksIn_cwd (h : Canonical p.cwd) : WorksIn p p.cwd := by
  refine ⟨rfl, fun input n path hrel hpath => ?_⟩
  have hok := processResolvePath_some hpath
  by_cases hfits : Fits p.cwd input n
  · rw [hfits.resolves h, Except.ok.injEq] at hok
    rw [← hok, normalised, joined, if_neg hrel]
  · rw [resolves_of_fits hfits h] at hok
    cases hok

section

variable {ms ds : List Str}

lemma absolute_append (hm : ms ≠ []) (hd : ds ≠ []) :
    absolute (ms ++ ds) = absolute ms ++ absolute ds := by
  obtain ⟨m, ms, rfl⟩ := List.exists_cons_of_ne_nil hm
  obtain ⟨d, ds, rfl⟩ := List.exists_cons_of_ne_nil hd
  simp only [absolute, List.cons_append, intercalate_cons]
  simp

lemma isPrefix_iff (hm : ∀ n ∈ ms, Name n) (hd : ∀ n ∈ ds, Name n) (hne : ms ≠ []) :
    ms <+: ds ↔ absolute ds = absolute ms ∨ absolute ms ++ [slash] <+: absolute ds := by
  constructor
  · rintro ⟨rest, rfl⟩
    by_cases hrest : rest = []
    · exact .inl (by rw [hrest, List.append_nil])
    · refine .inr ?_
      rw [absolute_append hne hrest, List.prefix_append_right_inj]
      exact ⟨_, rfl⟩
  · rintro (h | ⟨rest, h⟩)
    · have hcomp := congrArg components h
      rw [components_absolute hd, components_absolute hm] at hcomp
      rw [hcomp]
    · have hcomp := congrArg components h
      rw [List.append_assoc, List.singleton_append, components_append, components_absolute hd,
        components_absolute hm] at hcomp
      exact ⟨_, hcomp⟩

lemma absolute_not_slash (hd : ∀ n ∈ ds, Name n) : ¬ [slash, slash] <+: absolute ds := by
  rintro ⟨rest, h⟩
  cases ds with
  | nil => simp [absolute] at h
  | cons d ds =>
    have hname := hd d List.mem_cons_self
    obtain ⟨c, tail, rfl⟩ := List.exists_cons_of_ne_nil hname.nonempty
    simp [absolute, intercalate_cons] at h
    exact hname.no_slash (by simp [h.1])

lemma getLast_absolute (hm : ∀ n ∈ ms, Name n) (hne : ms ≠ []) :
    (absolute ms).getLast? ≠ some slash := by
  obtain ⟨init, n, rfl⟩ := ms.eq_nil_or_concat'.resolve_left hne
  have hname := hm n (by simp)
  obtain ⟨front, h⟩ : ∃ front, absolute (init ++ [n]) = front ++ n := by
    by_cases hinit : init = []
    · exact ⟨[slash], by simp [hinit, absolute]⟩
    · rw [absolute_append hinit (List.cons_ne_nil _ _)]
      exact ⟨absolute init ++ [slash], by simp [absolute]⟩
  rw [h, List.getLast?_append_of_ne_nil _ hname.nonempty]
  exact fun hlast => hname.no_slash (List.mem_of_getLast? hlast)

end

lemma cwd_prefix_iff (p : Process) (path : Str) :
    path.length < cwdSize - 1 ∧ p.cwd.take path.length = path ∧ p.cwd[path.length]? = some slash ↔
      path ++ [slash] <+: p.cwd := by
  constructor
  · rintro ⟨-, htake, hget⟩
    obtain ⟨hlt, hget⟩ := List.getElem?_eq_some_iff.mp hget
    have hsucc := List.take_succ_eq_append_getElem hlt
    rw [htake, hget] at hsucc
    exact hsucc ▸ List.take_prefix _ _
  · rintro ⟨rest, h⟩
    have hlen := p.length_cwd
    rw [← h] at hlen ⊢
    simp at hlen ⊢
    omega

lemma canonical_root : Canonical [slash] := ⟨[], by simp, rfl⟩

lemma below_root (d : Str) : Below [slash] d := by
  rw [Below, components_slash, components_nil]
  exact List.nil_prefix

variable {all : List Process} {m : Str}

lemma anyCwd_iff (hm : Canonical m) : processAnyCwdUnderPath all m = true ↔
    ∃ p ∈ all, p.active = true ∧ (p.cwd = m ∨ m ++ [slash] <+: p.cwd) := by
  obtain ⟨ms, hms, rfl⟩ := hm
  unfold processAnyCwdUnderPath
  rw [if_neg]
  · simp only [List.any_eq_true, Bool.and_eq_true, Bool.or_eq_true, beq_iff_eq, decide_eq_true_eq,
      and_assoc, cwd_prefix_iff]
  · rintro (h | ⟨hlen, hlast⟩)
    · exact h rfl
    · by_cases hne : ms = []
      · simp [hne, absolute] at hlen
      · exact getLast_absolute hms hne hlast

variable (hall : ∀ p ∈ all, Canonical p.cwd)

include hall

lemma anyCwd_below_iff (hm : Canonical m) (hne : m ≠ [slash]) :
    processAnyCwdUnderPath all m = true ↔ SomeBelow all m := by
  rw [anyCwd_iff hm]
  obtain ⟨ms, hms, rfl⟩ := hm
  refine exists_congr fun p => and_congr_right fun hp => and_congr_right fun _ => ?_
  obtain ⟨ds, hds, hcwd⟩ := hall p hp
  rw [hcwd, Below, components_absolute hms, components_absolute hds, isPrefix_iff hms hds]
  rintro rfl
  exact hne rfl

lemma anyCwd_root_iff :
    processAnyCwdUnderPath all [slash] = true ↔ ∃ p ∈ all, p.active = true ∧ p.cwd = [slash] := by
  rw [anyCwd_iff canonical_root]
  refine exists_congr fun p => and_congr_right fun hp => and_congr_right fun _ => or_iff_left ?_
  obtain ⟨ds, hds, hcwd⟩ := hall p hp
  exact hcwd ▸ absolute_not_slash hds

lemma anyCwd_exact_iff (hm : Canonical m) :
    (processAnyCwdUnderPath all m = true ↔ SomeBelow all m) ↔
      m ≠ [slash] ∨ (∃ p ∈ all, p.active = true ∧ p.cwd = m) ∨ ∀ p ∈ all, p.active = false := by
  by_cases hne : m = [slash]
  · subst hne
    simp only [anyCwd_root_iff hall, SomeBelow, below_root]
    grind
  · exact iff_of_true (anyCwd_below_iff hall hm hne) (.inl hne)

lemma unmount_exact_iff {supers : Nat → Super} {mounts : List Mount} {sb : Nat} {mount : Mount}
    (h : vfsUnmountPreflightSuper supers mounts all (some sb) = .ok) (hmem : mount ∈ mounts)
    (hactive : mount.active = true) (hsb : mount.sb = sb) (hm : Canonical mount.mountPoint) :
    ¬ SomeBelow all mount.mountPoint ↔
      mount.mountPoint ≠ [slash] ∨ ∀ p ∈ all, p.active = false := by
  have hnone : processAnyCwdUnderPath all mount.mountPoint ≠ true := by
    simp only [vfsUnmountPreflightSuper] at h
    grind
  by_cases hne : mount.mountPoint = [slash]
  · simp [hne, SomeBelow, below_root]
  · rw [← anyCwd_below_iff hall hm hne]
    exact iff_of_true hnone (.inl hne)

omit hall

/-- A process works in the directory it changed to exactly if the path fits the buffer of its
working directory. The search for processes below a mount point, and with it the check before
an unmount, is exact except at the root, where it misses those further down. -/
theorem workingDirectory_exact_iff {lookup : Str → Except VfsError Found}
    (hpath : processResolvePath p input 512 = some path)
    (hok : processChdirResult lookup p input = .ok p') (all : List Process)
    (hall : ∀ q ∈ all, Canonical q.cwd) (supers : Nat → Super) (mounts : List Mount) (sb : Nat) :
    Canonical path ∧ (WorksIn p' path ↔ path.length < cwdSize) ∧
      (∀ m, Canonical m → ((processAnyCwdUnderPath all m = true ↔ SomeBelow all m) ↔
        m ≠ [slash] ∨ (∃ q ∈ all, q.active = true ∧ q.cwd = m) ∨ ∀ q ∈ all, q.active = false)) ∧
      (vfsUnmountPreflightSuper supers mounts all (some sb) = .ok →
        ∀ mount ∈ mounts, mount.active = true → mount.sb = sb → Canonical mount.mountPoint →
          (¬ SomeBelow all mount.mountPoint ↔
            mount.mountPoint ≠ [slash] ∨ ∀ q ∈ all, q.active = false)) := by
  have hcanon := vfsResolvePath_canonical (processResolvePath_some hpath)
  refine ⟨hcanon, ⟨fun h => ?_, fun h => ?_⟩, fun m hm => anyCwd_exact_iff hall hm,
    fun h mount hmem hactive hsb hm => unmount_exact_iff hall h hmem hactive hsb hm⟩
  · exact h.cwd ▸ p'.length_cwd
  · have hsame : p'.cwd = path := by
      rw [processChdirResult_ok hok hpath, List.take_of_length_le (by omega)]
    exact hsame ▸ worksIn_cwd (hsame ▸ hcanon)

def readable : Str → Except VfsError Found := fun _ => .ok ⟨.directory, true⟩

lemma chdir_readable (hcanon : Canonical p.cwd) (hfits : Fits p.cwd input 512)
    (hactive : p.active = true) (hlen : input.length < 256) :
    processResolvePath p input 512 = some (normalised p.cwd input) ∧
      ∃ p', processChdirResult readable p input = .ok p' := by
  have hpath : processResolvePath p input 512 = some (normalised p.cwd input) := by
    simp only [processResolvePath, hfits.resolves hcanon]
    rw [if_neg (by simp [hactive, hlen]), if_pos ⟨rfl, hfits.output⟩]
  refine ⟨hpath, ?_⟩
  simp only [processChdirResult, hpath]
  exact ⟨_, rfl⟩

def rootProcess : Process := ⟨true, [slash], by decide⟩

/-- A directory in the root. -/
theorem workingDirectory_exact_home :
    ∃ p', processChdirResult readable rootProcess [97] = .ok p' ∧ WorksIn p' [slash, 97] := by
  have hfits : Fits rootProcess.cwd [97] 512 := by constructor <;> decide
  obtain ⟨hpath, p', hok⟩ := chdir_readable canonical_root hfits rfl (by decide)
  have hhome : processResolvePath rootProcess [97] 512 = some [slash, 97] :=
    hpath.trans (by decide)
  exact ⟨p', hok, (workingDirectory_exact_iff hhome hok [] (by simp) (fun _ => ⟨true, 0⟩) []
    0).2.1.mpr (by decide)⟩

def deepProcess : Process := ⟨true, slash :: List.replicate 200 97, by decide +kernel⟩

def deepName : Str := List.replicate 100 98

/-- A path of 302 bytes is kept with 255 of them, and the root can be unmounted under a
process in `/a`. -/
theorem cwd_shortened_and_root_missed :
    (∃ p', processChdirResult readable deepProcess deepName = .ok p' ∧
      processResolvePath deepProcess deepName 512 = some (deepProcess.cwd ++ slash :: deepName) ∧
      p'.cwd = deepProcess.cwd ++ slash :: deepName.take 53) ∧
    vfsUnmountPreflightSuper (fun _ => ⟨true, 0⟩) [⟨true, 0, [slash]⟩]
      [⟨true, [slash, 97], by decide⟩] (some 0) = .ok ∧ Below [slash] [slash, 97] := by
  have hcanon : Canonical deepProcess.cwd := by
    refine ⟨[List.replicate 200 97], ?_, by decide +kernel⟩
    rw [List.forall_mem_singleton]
    constructor <;> decide +kernel
  have hfits : Fits deepProcess.cwd deepName 512 := by constructor <;> decide +kernel
  obtain ⟨hpath, p', hok⟩ := chdir_readable hcanon hfits rfl (by decide +kernel)
  refine ⟨⟨p', hok, hpath.trans (by decide +kernel), ?_⟩, by decide, below_root _⟩
  exact (processChdirResult_ok hok hpath).trans (by decide +kernel)

end Mangrove.Vfs.Cwd
