import Mangrove.Block.Cache
import Mangrove.Gpt.Table

/-! The planner finds the lowest aligned range of the wanted size, or the largest one. The
partitions that a scan registers lie apart, and requests through one stay inside it. -/

namespace Mangrove.Gpt

/-- `sectors` free sectors from `a` on, on a 1 MiB boundary of a disk with 512-byte
sectors and within the usable range. -/
structure Fits (t : Table) (entries : Buf) (a sectors : Nat) : Prop where
  aligned : a * 512 % alignmentBytes = 0
  first : t.firstUsable ≤ a
  last : a + sectors ≤ t.lastUsable + 1
  free : ∀ i < t.entryCount, gptEntryUsed entries i = true →
    entryLast entries i < a ∨ a + sectors ≤ entryFirst entries i

/-- Used entries lie inside the usable range and apart, as `gpt_entries_valid` has checked. -/
structure Laid (t : Table) (entries : Buf) : Prop where
  order : t.firstUsable ≤ t.lastUsable
  ranges : ∀ i < t.entryCount, gptEntryUsed entries i = true →
    t.firstUsable ≤ entryFirst entries i ∧ entryFirst entries i ≤ entryLast entries i ∧
      entryLast entries i ≤ t.lastUsable
  disjoint : ∀ i < t.entryCount, ∀ j < t.entryCount, gptEntryUsed entries i = true →
    gptEntryUsed entries j = true → i ≠ j →
    entryLast entries j < entryFirst entries i ∨ entryLast entries i < entryFirst entries j

variable {t : Table} {entries : Buf}

lemma laid_of_valid {used : Nat}
    (h : gptEntriesValid entries t.entryCount t.firstUsable t.lastUsable = some used) :
    Laid t entries := by
  obtain ⟨hvalid, -⟩ := gptEntriesValid_iff.mp h
  exact ⟨hvalid.order, hvalid.ranges, hvalid.disjoint⟩

/-- What the inner loop finds: the first used entry from the cursor on, or the limit. -/
structure NextIs (entries : Buf) (cursor limit n : Nat) (next : Nat × Nat) : Prop where
  le : next.1 ≤ limit
  least : ∀ i < n, gptEntryUsed entries i = true → cursor ≤ entryFirst entries i →
    next.1 ≤ entryFirst entries i ∨ limit ≤ entryFirst entries i
  entry : next.1 ≠ limit → ∃ i < n, gptEntryUsed entries i = true ∧
    cursor ≤ entryFirst entries i ∧ next = (entryFirst entries i, entryLast entries i)

lemma nextUsed_spec (entries : Buf) (cursor limit n : Nat) :
    NextIs entries cursor limit n (nextUsed entries cursor limit n) := by
  induction n with
  | zero => exact ⟨le_rfl, nofun, fun h => absurd rfl h⟩
  | succ n ih =>
    rw [nextUsed]
    split
    · rename_i h
      refine ⟨by have := ih.le; dsimp only; omega, fun i hi hu hc => ?_, fun _ =>
        ⟨n, by omega, h.1, h.2.1, rfl⟩⟩
      rcases Nat.lt_succ_iff_lt_or_eq.mp hi with hlt | rfl
      · have := ih.least i hlt hu hc
        omega
      · exact .inl le_rfl
    · rename_i h
      refine ⟨ih.le, fun i hi hu hc => ?_, fun hne => ?_⟩
      · rcases Nat.lt_succ_iff_lt_or_eq.mp hi with hlt | rfl
        · exact ih.least i hlt hu hc
        · left
          by_contra hlt
          exact h ⟨hu, hc, by omega⟩
      · obtain ⟨i, hi, hrest⟩ := ih.entry hne
        exact ⟨i, by omega, hrest⟩

def roundUp (v : Nat) : Nat := (v + 2047) / 2048 * 2048

lemma le_roundUp (v : Nat) : v ≤ roundUp v := by
  simp only [roundUp]
  omega

lemma alignUp_eq {v : Nat} (hv : v ≤ u64Max) :
    alignUp v 2048 = if roundUp v ≤ u64Max then some (roundUp v) else none := by
  rw [alignUp, if_neg (by decide)]
  by_cases h : v % 2048 = 0
  · have he : roundUp v = v := by
      simp only [roundUp]
      omega
    rw [if_pos h, he, if_pos hv]
  · have he : roundUp v = v + (2048 - v % 2048) := by
      simp only [roundUp]
      omega
    rw [if_neg h, addU64, he]
    by_cases hlt : v > u64Max - (2048 - v % 2048)
    · rw [if_pos hlt, if_neg (by omega)]
    · rw [if_neg hlt, if_pos (by omega)]

lemma candidate_spec {cursor gapEnd : Nat} (hc : cursor ≤ gapEnd) (he : gapEnd ≤ u64Max) :
    match candidate 2048 cursor (sub64 gapEnd 1) with
    | some (first, size) => first = roundUp cursor ∧ size = gapEnd - roundUp cursor
    | none => gapEnd ≤ roundUp cursor := by
  unfold candidate
  rw [alignUp_eq (hc.trans he)]
  simp only [u64Max] at he
  by_cases hr : roundUp cursor ≤ u64Max
  · rw [if_pos hr]
    dsimp only
    split
    · rename_i first size h
      split at h
      · rename_i hlast
        obtain ⟨rfl, rfl⟩ := h
        refine ⟨rfl, ?_⟩
        simp only [sub64, add64] at hlast ⊢
        -- a gap that ends before sector 0 wraps round to an empty candidate
        by_cases h0 : gapEnd = 0
        · subst h0
          have hz : roundUp cursor = 0 := by
            simp only [roundUp]
            omega
          simp [hz]
        · omega
      · cases h
    · rename_i h
      split at h
      · cases h
      · rename_i hlast
        simp only [sub64] at hlast
        omega
  · rw [if_neg hr]
    simp only [u64Max] at hr
    omega

/-- Where the search stands: every used entry lies before the cursor or starts at
it or later. -/
structure Cursor (t : Table) (entries : Buf) (cursor : Nat) : Prop where
  first : t.firstUsable ≤ cursor
  last : cursor ≤ t.lastUsable
  split : ∀ i < t.entryCount, gptEntryUsed entries i = true →
    entryLast entries i < cursor ∨ cursor ≤ entryFirst entries i

def remaining (t : Table) (entries : Buf) (cursor : Nat) : Finset Nat :=
  (Finset.range t.entryCount).filter fun i =>
    gptEntryUsed entries i = true ∧ cursor ≤ entryFirst entries i

section

variable {cursor : Nat} (hl : Laid t entries) (hlast : t.lastUsable < u64Max)
  (hc : Cursor t entries cursor)

lemma add64_lastUsable (hlast : t.lastUsable < u64Max) :
    add64 t.lastUsable 1 = t.lastUsable + 1 := by
  simp only [u64Max] at hlast
  simp only [add64]
  omega

variable {a : Nat}

lemma sub64_of_ge {b : Nat} (h : b ≤ a) (ha : a ≤ u64Max) : sub64 a b = a - b := by
  simp only [u64Max] at ha
  simp only [sub64]
  omega

/-- A round of the planner: the free sectors from the cursor up to the next used entry. -/
structure GapAt (t : Table) (entries : Buf) (cursor : Nat) (next : Nat × Nat) : Prop where
  start : cursor ≤ next.1
  le : next.1 ≤ t.lastUsable + 1
  free : ∀ i < t.entryCount, gptEntryUsed entries i = true →
    entryLast entries i < cursor ∨ next.1 ≤ entryFirst entries i
  entry : next.1 ≠ t.lastUsable + 1 → ∃ i < t.entryCount, gptEntryUsed entries i = true ∧
    cursor ≤ entryFirst entries i ∧ next = (entryFirst entries i, entryLast entries i)

include hl hc in
lemma gapAt_nextUsed :
    GapAt t entries cursor (nextUsed entries cursor (t.lastUsable + 1) t.entryCount) := by
  have hn := nextUsed_spec entries cursor (t.lastUsable + 1) t.entryCount
  refine ⟨?_, hn.le, fun i hi hu => ?_, hn.entry⟩
  · by_cases h : (nextUsed entries cursor (t.lastUsable + 1) t.entryCount).1 = t.lastUsable + 1
    · have := hc.last
      omega
    · obtain ⟨i, -, -, hi, he⟩ := hn.entry h
      rw [he]
      exact hi
  · rcases hc.split i hi hu with h | h
    · exact .inl h
    · right
      have hr := hl.ranges i hi hu
      rcases hn.least i hi hu h with h | h
      · exact h
      · omega

variable {next : Nat × Nat} (hg : GapAt t entries cursor next) {sectors : Nat}

include hc hg in
lemma GapAt.fits (h : roundUp cursor + sectors ≤ next.1) :
    Fits t entries (roundUp cursor) sectors := by
  have h1 := hc.first
  have h2 := hg.le
  have h3 : cursor ≤ roundUp cursor := by
    simp only [roundUp]
    omega
  refine ⟨?_, by omega, by omega, fun i hi hu => ?_⟩
  · simp only [roundUp, alignmentBytes]
    omega
  · have := hg.free i hi hu
    omega

lemma Fits.roundUp_le (h : Fits t entries a sectors) (ha : cursor ≤ a) : roundUp cursor ≤ a := by
  have := h.aligned
  simp only [alignmentBytes] at this
  simp only [roundUp]
  omega

include hl hg in
lemma GapAt.advance (hne : next.1 ≠ t.lastUsable + 1) (hlt : next.2 < t.lastUsable) :
    Cursor t entries (next.2 + 1) := by
  obtain ⟨j, hj, huj, hcj, rfl⟩ := hg.entry hne
  have hrj := hl.ranges j hj huj
  dsimp only at hlt hne
  refine ⟨?_, ?_, fun i hi hu => ?_⟩
  · dsimp only
    omega
  · exact hlt
  · dsimp only
    by_cases hij : i = j
    · subst hij
      omega
    · have := hl.disjoint i hi j hj hu huj hij
      have := hg.free i hi hu
      have := hl.ranges i hi hu
      omega

include hl hg in
lemma GapAt.remaining_lt (hne : next.1 ≠ t.lastUsable + 1) :
    (remaining t entries (next.2 + 1)).card < (remaining t entries cursor).card := by
  obtain ⟨j, hj, huj, hcj, rfl⟩ := hg.entry hne
  have hrj := hl.ranges j hj huj
  refine Finset.card_lt_card ⟨fun i hi => ?_, fun hsub => ?_⟩
  · simp only [remaining, Finset.mem_filter, Finset.mem_range] at hi ⊢
    exact ⟨hi.1, hi.2.1, by omega⟩
  · have hmem : j ∈ remaining t entries cursor := by
      simp only [remaining, Finset.mem_filter, Finset.mem_range]
      exact ⟨hj, huj, hcj⟩
    have := hsub hmem
    simp only [remaining, Finset.mem_filter, Finset.mem_range] at this
    omega

lemma planLoop_round (hlast : t.lastUsable < u64Max) {request : Option Nat} {fuel : Nat}
    {best : Best} (he : nextUsed entries cursor (t.lastUsable + 1) t.entryCount = next) :
    planLoop t entries 2048 request (fuel + 1) cursor best =
      match candidate 2048 cursor (sub64 next.1 1), request with
      | some (first, size), some sectors =>
        if size ≥ sectors then some ⟨first, sub64 (add64 first sectors) 1, sectors⟩
        else if next.1 = t.lastUsable + 1 ∨ next.2 ≥ t.lastUsable then some best
        else planLoop t entries 2048 request fuel (add64 next.2 1) best
      | some (first, size), none =>
        let best := if size > best.size then ⟨first, sub64 next.1 1, size⟩ else best
        if next.1 = t.lastUsable + 1 ∨ next.2 ≥ t.lastUsable then some best
        else planLoop t entries 2048 request fuel (add64 next.2 1) best
      | none, _ =>
        if next.1 = t.lastUsable + 1 ∨ next.2 ≥ t.lastUsable then some best
        else planLoop t entries 2048 request fuel (add64 next.2 1) best := by
  have hgap : (if next.1 = t.lastUsable + 1 then t.lastUsable else sub64 next.1 1) =
      sub64 next.1 1 := by
    split
    · rename_i h
      rw [h, sub64_of_ge (by omega) (by omega)]
      rfl
    · rfl
  rcases hc : candidate 2048 cursor (sub64 next.1 1) with _ | ⟨first, size⟩ <;> cases request <;>
    simp [planLoop, add64_lastUsable hlast, he, hgap, hc]

include hg in
lemma GapAt.behind (h : Fits t entries a sectors)
    (hnot : ¬ a + sectors ≤ next.1) : next.1 ≠ t.lastUsable + 1 ∧ next.2 < a := by
  have hne : next.1 ≠ t.lastUsable + 1 := by
    intro he
    exact hnot (he ▸ h.last)
  obtain ⟨j, hj, huj, -, rfl⟩ := hg.entry hne
  have := h.free j hj huj
  dsimp only at hnot ⊢
  exact ⟨hne, by omega⟩

end

section

variable {t : Table} {entries : Buf} (hl : Laid t entries) (hlast : t.lastUsable < u64Max)

include hl hlast

lemma planLoop_bytes {sectors fuel cursor : Nat} {best : Best} (hs : 1 ≤ sectors)
    (hc : Cursor t entries cursor) (hbelow : ∀ a, Fits t entries a sectors → cursor ≤ a)
    (hfuel : (remaining t entries cursor).card < fuel) :
    ∃ out, planLoop t entries 2048 (some sectors) fuel cursor best = some out ∧
      ((∃ a, Fits t entries a sectors ∧ (∀ b, Fits t entries b sectors → a ≤ b) ∧
          out = ⟨a, a + sectors - 1, sectors⟩) ∨
        out = best ∧ ∀ a, ¬ Fits t entries a sectors) := by
  induction fuel generalizing cursor with
  | zero => omega
  | succ fuel ih =>
    obtain ⟨next, he⟩ : ∃ next, nextUsed entries cursor (t.lastUsable + 1) t.entryCount = next :=
      ⟨_, rfl⟩
    have hg := gapAt_nextUsed hl hc
    rw [he] at hg
    have hcand := candidate_spec hg.start (hg.le.trans hlast)
    -- what the rest of the search does once this gap turns out too small
    have hrest : next.1 < roundUp cursor + sectors → ∃ out,
        (if next.1 = t.lastUsable + 1 ∨ next.2 ≥ t.lastUsable then some best
          else planLoop t entries 2048 (some sectors) fuel (add64 next.2 1) best) = some out ∧
        ((∃ a, Fits t entries a sectors ∧ (∀ b, Fits t entries b sectors → a ≤ b) ∧
            out = ⟨a, a + sectors - 1, sectors⟩) ∨
          out = best ∧ ∀ a, ¬ Fits t entries a sectors) := by
      intro hsmall
      have hbehind : ∀ a, Fits t entries a sectors → next.1 ≠ t.lastUsable + 1 ∧ next.2 < a := by
        intro a ha
        refine hg.behind ha fun hle => ?_
        have := ha.roundUp_le (hbelow a ha)
        omega
      by_cases hstop : next.1 = t.lastUsable + 1 ∨ next.2 ≥ t.lastUsable
      · refine ⟨best, by rw [if_pos hstop], .inr ⟨rfl, fun a ha => ?_⟩⟩
        have h1 := hbehind a ha
        have h2 := ha.last
        omega
      · rw [not_or] at hstop
        rw [if_neg (not_or.mpr hstop), show add64 next.2 1 = next.2 + 1 by
          simp only [u64Max] at hlast
          simp only [add64]
          omega]
        refine ih (hg.advance hl hstop.1 (by omega)) (fun a ha => ?_) ?_
        · exact (hbehind a ha).2
        · have := hg.remaining_lt hl hstop.1
          omega
    rw [planLoop_round hlast he]
    split
    · rename_i first size n hfirst hn
      rw [hfirst] at hcand
      obtain ⟨rfl, rfl⟩ := hcand
      obtain rfl := Option.some.inj hn
      split
      · rename_i hsize
        have hfit : roundUp cursor + sectors ≤ next.1 := by omega
        have hle := hg.le
        have hend : sub64 (add64 (roundUp cursor) sectors) 1 = roundUp cursor + sectors - 1 := by
          simp only [u64Max] at hlast
          simp only [add64, sub64]
          omega
        rw [hend]
        exact ⟨_, rfl, .inl ⟨roundUp cursor, hg.fits hc hfit, fun b hb =>
          hb.roundUp_le (hbelow b hb), rfl⟩⟩
      · rename_i hsize
        exact hrest (by omega)
    · rename_i hn
      cases hn
    · rename_i hnone
      rw [hnone] at hcand
      exact hrest (by omega)

omit hl hlast in
def Best.IsRange (t : Table) (entries : Buf) (best : Best) : Prop :=
  best.size = 0 ∨ (Fits t entries best.first best.size ∧ best.last + 1 = best.first + best.size)

omit hl hlast in
def Best.Beats (best : Best) (a m : Nat) : Prop :=
  m < best.size ∨ (m = best.size ∧ best.first ≤ a)

lemma planLoop_rest {fuel cursor : Nat} {best : Best} (hc : Cursor t entries cursor)
    (hrange : best.IsRange t entries) (hfirst : best.size = 0 ∨ best.first ≤ cursor)
    (hbelow : ∀ a m, Fits t entries a m → 1 ≤ m → cursor ≤ a ∨ best.Beats a m)
    (hfuel : (remaining t entries cursor).card < fuel) :
    ∃ out, planLoop t entries 2048 none fuel cursor best = some out ∧ out.IsRange t entries ∧
      ∀ a m, Fits t entries a m → 1 ≤ m → out.Beats a m := by
  induction fuel generalizing cursor best with
  | zero => omega
  | succ fuel ih =>
    obtain ⟨next, he⟩ : ∃ next, nextUsed entries cursor (t.lastUsable + 1) t.entryCount = next :=
      ⟨_, rfl⟩
    have hg := gapAt_nextUsed hl hc
    rw [he] at hg
    have hcand := candidate_spec hg.start (hg.le.trans hlast)
    have hround := le_roundUp cursor
    have hrest : ∀ best1 : Best, best1.IsRange t entries →
        (∀ a m, best.Beats a m → best1.Beats a m) →
        (best1.size = 0 ∨ best1.first ≤ roundUp cursor ∧ best1.first ≤ next.1) →
        next.1 - roundUp cursor ≤ best1.size → ∃ out,
        (if next.1 = t.lastUsable + 1 ∨ next.2 ≥ t.lastUsable then some best1
          else planLoop t entries 2048 none fuel (add64 next.2 1) best1) = some out ∧
        out.IsRange t entries ∧ ∀ a m, Fits t entries a m → 1 ≤ m → out.Beats a m := by
      intro best1 hrange1 hgrow hfirst1 hgap
      have hbehind : ∀ a m, Fits t entries a m → 1 ≤ m →
          (next.1 ≠ t.lastUsable + 1 ∧ next.2 < a) ∨ best1.Beats a m := by
        intro a m ha hm
        rcases hbelow a m ha hm with hca | hsmall
        · by_cases hle : a + m ≤ next.1
          · have := ha.roundUp_le hca
            unfold Best.Beats
            omega
          · exact .inl (hg.behind ha hle)
        · exact .inr (hgrow a m hsmall)
      by_cases hstop : next.1 = t.lastUsable + 1 ∨ next.2 ≥ t.lastUsable
      · refine ⟨best1, by rw [if_pos hstop], hrange1, fun a m ha hm => ?_⟩
        have h2 := ha.last
        rcases hbehind a m ha hm with h1 | h1
        · omega
        · exact h1
      · rw [not_or] at hstop
        rw [if_neg (not_or.mpr hstop), show add64 next.2 1 = next.2 + 1 by
          simp only [u64Max] at hlast
          simp only [add64]
          omega]
        have hadvance := hg.advance hl hstop.1 (by omega)
        refine ih hadvance hrange1 ?_ (fun a m ha hm => ?_) ?_
        · obtain ⟨j, hj, huj, -, rfl⟩ := hg.entry hstop.1
          have := (hl.ranges j hj huj).2.1
          omega
        · exact (hbehind a m ha hm).imp_left fun h => h.2
        · have := hg.remaining_lt hl hstop.1
          omega
    rw [planLoop_round hlast he]
    split
    · rename_i hn
      cases hn
    · rename_i first size hfound _
      rw [hfound] at hcand
      obtain ⟨rfl, rfl⟩ := hcand
      by_cases hsize : next.1 - roundUp cursor > best.size
      · rw [if_pos hsize]
        refine hrest _ ?_ (fun a m hbeats => ?_) ?_ le_rfl
        · refine .inr ⟨hg.fits hc (by dsimp only; omega), ?_⟩
          have hle := hg.le
          dsimp only
          rw [sub64_of_ge (by omega) (by omega)]
          omega
        · unfold Best.Beats at hbeats ⊢
          dsimp only
          omega
        · dsimp only
          omega
      · rw [if_neg hsize]
        have := hg.start
        exact hrest best hrange (fun _ _ h => h) (by omega) (Nat.le_of_not_lt hsize)
    · rename_i hnone
      rw [hnone] at hcand
      have := hg.start
      exact hrest best hrange (fun _ _ h => h) (by omega) (by omega)

end

def LowestUnused (t : Table) (entries : Buf) (number : Nat) : Prop :=
  1 ≤ number ∧ number ≤ t.entryCount ∧ gptEntryUsed entries (number - 1) = false ∧
    ∀ i < number - 1, gptEntryUsed entries i = true

/-- What a plan must be: free, aligned, numbered with the lowest unused entry, and the first range
of the size or the largest one of all. -/
structure Planned (t : Table) (entries : Buf) (request : Request) (plan : Plan) : Prop where
  order : plan.firstLba ≤ plan.lastLba
  fits : Fits t entries plan.firstLba (plan.lastLba + 1 - plan.firstLba)
  number : LowestUnused t entries plan.partitionNumber
  size : plan.sizeBytes = (plan.lastLba + 1 - plan.firstLba) * 512
  choice : match request with
    | .bytes n => plan.lastLba + 1 - plan.firstLba = n / 512 ∧
        ∀ a, Fits t entries a (n / 512) → plan.firstLba ≤ a
    | .rest => ∀ a sectors, Fits t entries a sectors → 1 ≤ sectors →
        sectors ≤ plan.lastLba + 1 - plan.firstLba

def NoPlan (t : Table) (entries : Buf) (request : Request) : Prop :=
  (∀ i < t.entryCount, gptEntryUsed entries i = true) ∨
    match request with
    | .bytes n => n / 512 = 0 ∨ u64Max < n + 511 ∨ ∀ a, ¬ Fits t entries a (n / 512)
    | .rest => (∀ a sectors, 1 ≤ sectors → ¬ Fits t entries a sectors) ∨
        ∃ a sectors, Fits t entries a sectors ∧ u64Max < sectors * 512 ∧
          ∀ b m, Fits t entries b m → 1 ≤ m → m ≤ sectors

lemma find_unused (t : Table) (entries : Buf) :
    match (List.range t.entryCount).find? fun index => !gptEntryUsed entries index with
    | some i => LowestUnused t entries (i + 1)
    | none => ∀ i < t.entryCount, gptEntryUsed entries i = true := by
  split
  · rename_i i h
    rw [List.find?_range_eq_some] at h
    obtain ⟨h1, h2, h3⟩ := h
    refine ⟨by omega, List.mem_range.mp h2, by simpa using h1, fun j hj => ?_⟩
    simpa using h3 j hj
  · rename_i h
    intro i hi
    have := List.find?_eq_none.mp h i (List.mem_range.mpr hi)
    simpa using this

lemma multiplyU64_eq (left : Nat) :
    multiplyU64 left 512 = if left * 512 ≤ u64Max then some (left * 512) else none := by
  rw [multiplyU64]
  by_cases h0 : left = 0
  · subst h0
    rw [if_neg (by omega), if_pos (by omega)]
  · have hdiv : 512 > u64Max / left ↔ ¬ left * 512 ≤ u64Max := by
      rw [gt_iff_lt, Nat.div_lt_iff_lt_mul (by omega), Nat.mul_comm]
      omega
    by_cases hle : left * 512 ≤ u64Max
    · rw [if_neg (fun h => hdiv.mp h.2 hle), if_pos hle]
    · rw [if_pos ⟨h0, hdiv.mpr hle⟩, if_neg hle]

lemma finishPlan_spec {t : Table} {entries : Buf} (hlast : t.lastUsable < u64Max) {best : Best}
    (hs : 1 ≤ best.size) (hfits : Fits t entries best.first best.size)
    (he : best.last + 1 = best.first + best.size) : match finishPlan t entries 512 best with
    | some plan => plan.firstLba = best.first ∧ plan.lastLba = best.last ∧
        LowestUnused t entries plan.partitionNumber ∧ plan.sizeBytes = best.size * 512
    | none => (∀ i < t.entryCount, gptEntryUsed entries i = true) ∨ u64Max < best.size * 512 := by
  have hle := hfits.last
  have hlen : add64 (sub64 best.last best.first) 1 = best.size := by
    rw [sub64_of_ge (by omega) (by omega)]
    simp only [u64Max] at hlast
    simp only [add64]
    omega
  have hfind := find_unused t entries
  rw [finishPlan, if_neg (by omega), hlen, multiplyU64_eq]
  split at hfind
  · rename_i i hi
    rw [hi]
    by_cases hfit : best.size * 512 ≤ u64Max
    · rw [if_pos hfit]
      exact ⟨rfl, rfl, hfind, rfl⟩
    · rw [if_neg hfit]
      exact .inr (by omega)
  · rename_i hi
    rw [hi]
    exact .inl hfind

lemma finishPlan_empty {best : Best} (h : best.size = 0) :
    finishPlan t entries 512 best = none := by
  rw [finishPlan, if_pos (.inl h)]

lemma card_remaining_lt (t : Table) (entries : Buf) (cursor : Nat) :
    (remaining t entries cursor).card < t.entryCount + 1 := by
  have h := Finset.card_filter_le (Finset.range t.entryCount) fun i =>
    gptEntryUsed entries i = true ∧ cursor ≤ entryFirst entries i
  rw [Finset.card_range] at h
  exact Nat.lt_succ_of_le h

lemma Laid.cursor (h : Laid t entries) : Cursor t entries t.firstUsable :=
  ⟨le_rfl, h.order, fun i hi hu => .inr (h.ranges i hi hu).1⟩

lemma finishPlan_some {best : Best} {plan : Plan}
    (h : finishPlan t entries 512 best = some plan) :
    plan.firstLba = best.first ∧ plan.lastLba = best.last ∧ best.size ≠ 0 ∧
      multiplyU64 (add64 (sub64 plan.lastLba plan.firstLba) 1) 512 = some plan.sizeBytes := by
  unfold finishPlan at h
  split at h
  · cases h
  · split at h
    · cases h
    · obtain ⟨bytes, hbytes, rfl⟩ := Option.map_eq_some_iff.mp h
      exact ⟨rfl, rfl, by omega, hbytes⟩

lemma planFromEntries_again {request : Request} {plan : Plan}
    (hl : Laid t entries) (hlast : t.lastUsable < u64Max)
    (h : planFromEntries t entries 512 request = some (some plan)) :
    planFromEntries t entries 512 (.bytes plan.sizeBytes) = some (some plan) ∧
      Fits t entries plan.firstLba (plan.lastLba + 1 - plan.firstLba) ∧
      plan.firstLba ≤ plan.lastLba ∧ LowestUnused t entries plan.partitionNumber ∧
      multiplyU64 (add64 (sub64 plan.lastLba plan.firstLba) 1) 512 = some plan.sizeBytes := by
  have hmax := u64Max_eq
  have halign : alignmentSectors 512 = 2048 := by decide
  have hfuel := card_remaining_lt t entries t.firstUsable
  -- either search ends with a range whose own size, searched for, leads to it
  obtain ⟨best, hfinish, hsize, hfits, hend, hbest⟩ : ∃ best : Best,
      finishPlan t entries 512 best = some plan ∧ 1 ≤ best.size ∧
        Fits t entries best.first best.size ∧ best.last + 1 = best.first + best.size ∧
        planLoop t entries 2048 (some best.size) (t.entryCount + 1) t.firstUsable ⟨0, 0, 0⟩ =
          some best := by
    rw [planFromEntries, if_neg (by decide), halign] at h
    cases request with
    | bytes n =>
      by_cases hn : n = 0 ∨ n > u64Max - (512 - 1) ∨ n / 512 = 0
      · rw [requestedSectors, if_pos hn] at h
        cases h
      · rw [requestedSectors, if_neg hn] at h
        obtain ⟨best, hbest, hfinish⟩ := Option.map_eq_some_iff.mp h
        obtain ⟨out, hout, hcase⟩ := @planLoop_bytes t entries hl hlast (n / 512) _ _ ⟨0, 0, 0⟩
          (by omega) hl.cursor (fun a ha => ha.first) hfuel
        obtain rfl := Option.some.inj (hbest.symm.trans hout)
        rcases hcase with ⟨a, ha, -, rfl⟩ | ⟨rfl, -⟩
        · exact ⟨_, hfinish, by dsimp only; omega, ha, by dsimp only; omega, hbest⟩
        · rw [finishPlan_empty rfl] at hfinish
          cases hfinish
    | rest =>
      obtain ⟨best, hbest, hfinish⟩ := Option.map_eq_some_iff.mp h
      obtain ⟨out, hout, hrange, hbeats⟩ := @planLoop_rest t entries hl hlast _ _ ⟨0, 0, 0⟩
        hl.cursor (.inl rfl) (.inl rfl) (fun a m ha _ => .inl ha.first) hfuel
      obtain rfl := Option.some.inj (hbest.symm.trans hout)
      have hne := (finishPlan_some hfinish).2.2.1
      obtain ⟨hfits, hend⟩ := hrange.resolve_left hne
      obtain ⟨again, hagain, hcase⟩ := @planLoop_bytes t entries hl hlast best.size _ _ ⟨0, 0, 0⟩
        (by omega) hl.cursor (fun a ha => ha.first) hfuel
      refine ⟨best, hfinish, by omega, hfits, hend, ?_⟩
      rw [hagain]
      rcases hcase with ⟨a, ha, hleast, rfl⟩ | ⟨-, hnone⟩
      · have h1 := hleast best.first hfits
        have h2 := hbeats a best.size ha (by omega)
        unfold Best.Beats at h2
        obtain rfl : a = best.first := by omega
        have hlastLba : best.first + best.size - 1 = best.last := by omega
        rw [hlastLba]
      · exact absurd hfits (hnone _)
  have hspec := finishPlan_spec hlast hsize hfits hend
  rw [hfinish] at hspec
  obtain ⟨hfirst, hlastLba, hnumber, hbytes⟩ := hspec
  have hmul := (finishPlan_some hfinish).2.2.2
  have hle : best.size * 512 ≤ u64Max := by
    rw [multiplyU64_eq, hbytes] at hmul
    split at hmul
    · next hle => exact Option.some.inj hmul ▸ hle
    · cases hmul
  refine ⟨?_, ?_, by omega, hnumber, hmul⟩
  · rw [planFromEntries, if_neg (by decide), halign, requestedSectors, if_neg (by omega),
      hbytes, Nat.mul_div_cancel _ (by decide)]
    dsimp only
    rw [hbest, Option.map_some, hfinish]
  · rw [hfirst, hlastLba, show best.last + 1 - best.first = best.size by omega]
    exact hfits

/-- Planning ends, a plan is the right one, and there is none only where there can
be none. -/
theorem planFromEntries_correct (t : Table) (entries : Buf) (request : Request) {used : Nat}
    (hvalid : gptEntriesValid entries t.entryCount t.firstUsable t.lastUsable = some used)
    (hlast : t.lastUsable < u64Max) :
    ∃ result, planFromEntries t entries 512 request = some result ∧
      (∀ plan, result = some plan → Planned t entries request plan) ∧
      (result = none → NoPlan t entries request) := by
  have hl := laid_of_valid hvalid
  have halign : alignmentSectors 512 = 2048 := by decide
  have hfuel := card_remaining_lt t entries t.firstUsable
  rw [planFromEntries, if_neg (by decide), halign]
  cases request with
  | bytes n =>
    by_cases hn : n = 0 ∨ n > u64Max - (512 - 1) ∨ n / 512 = 0
    · rw [requestedSectors, if_pos hn]
      refine ⟨none, rfl, nofun, fun _ => .inr ?_⟩
      omega
    · rw [requestedSectors, if_neg hn]
      dsimp only
      have hs : 1 ≤ n / 512 := by omega
      obtain ⟨out, hout, hcase⟩ := @planLoop_bytes t entries hl hlast (n / 512) _ _ ⟨0, 0, 0⟩ hs
        hl.cursor (fun a ha => ha.first) hfuel
      rw [hout]
      refine ⟨_, rfl, ?_⟩
      rcases hcase with ⟨a, ha, hleast, rfl⟩ | ⟨rfl, hnone⟩
      · have hend : a + n / 512 - 1 + 1 - a = n / 512 := by omega
        have hfin := @finishPlan_spec t entries hlast ⟨a, a + n / 512 - 1, n / 512⟩ hs ha
          (by dsimp only; omega)
        split at hfin
        · rename_i plan hplan
          obtain ⟨hfirst, hlast', hnumber, hsize⟩ := hfin
          dsimp only at hfirst hlast' hsize
          rw [hplan]
          refine ⟨fun p hp => ?_, nofun⟩
          obtain rfl := Option.some.inj hp
          refine ⟨by omega, ?_, hnumber, ?_, ?_⟩
          · rw [hfirst, hlast', hend]
            exact ha
          · rw [hfirst, hlast', hend, hsize]
          · rw [hfirst, hlast', hend]
            exact ⟨rfl, hleast⟩
        · rename_i hnone
          rw [hnone]
          exact ⟨nofun, fun _ => hfin.imp_right fun h => .inr (.inl (by dsimp only at h; omega))⟩
      · rw [finishPlan_empty rfl]
        exact ⟨nofun, fun _ => .inr (.inr (.inr hnone))⟩
  | rest =>
    rw [requestedSectors]
    dsimp only
    obtain ⟨out, hout, hrange, hbeats⟩ := @planLoop_rest t entries hl hlast _ _ ⟨0, 0, 0⟩ hl.cursor
      (.inl rfl) (.inl rfl) (fun a m ha _ => .inl ha.first) hfuel
    have hmost (a m : Nat) (ha : Fits t entries a m) (hm : 1 ≤ m) : m ≤ out.size :=
      (hbeats a m ha hm).elim Nat.le_of_lt fun h => Nat.le_of_eq h.1
    rw [hout]
    refine ⟨_, rfl, ?_⟩
    by_cases h0 : out.size = 0
    · rw [finishPlan_empty h0]
      refine ⟨nofun, fun _ => .inr (.inl fun a m hm ha => ?_)⟩
      have := hmost a m ha hm
      omega
    · obtain ⟨hfits, hend⟩ := hrange.resolve_left h0
      have hlen : out.last + 1 - out.first = out.size := by omega
      have hfin := finishPlan_spec hlast (by omega) hfits hend
      split at hfin
      · rename_i plan hplan
        obtain ⟨hfirst, hlast', hnumber, hsize⟩ := hfin
        rw [hplan]
        refine ⟨fun p hp => ?_, nofun⟩
        obtain rfl := Option.some.inj hp
        refine ⟨by omega, ?_, hnumber, ?_, ?_⟩
        · rw [hfirst, hlast', hlen]
          exact hfits
        · rw [hfirst, hlast', hlen, hsize]
        · rw [hfirst, hlast', hlen]
          exact hmost
      · rename_i hnone
        rw [hnone]
        exact ⟨nofun, fun _ => hfin.imp_right fun h => .inr ⟨out.first, out.size, hfits, h, hmost⟩⟩

def topTable : Table := ⟨2, 34, u64Max, by decide, by decide⟩

def topEntries : Buf := fun i =>
  if i = 0 ∨ i = 16 then 1 else if i = 33 then 8 else if i = 41 then 16 else 0

/-- The usable range of a disk of `2 ^ 56` sectors. -/
def wideTable : Table := ⟨2, 34, 2 ^ 56 - 34, by decide, by decide⟩

/-- With the last sector of all usable, which no header may say, the end of the range wraps
round and the used entry is not seen. On a disk of `2 ^ 56` sectors a size of `2 ^ 64 - 1` bytes
is refused, although an entry is unused and the whole sectors in that size fit. -/
theorem planFromEntries_overlaps_at_top :
    (gptEntriesValid topEntries topTable.entryCount topTable.firstUsable topTable.lastUsable =
        some 1 ∧
      planFromEntries topTable topEntries 512 (.bytes 512) = some (some ⟨2048, 2048, 512, 2⟩) ∧
      ¬ Planned topTable topEntries (.bytes 512) ⟨2048, 2048, 512, 2⟩) ∧
    gptEntriesValid topEntries wideTable.entryCount wideTable.firstUsable wideTable.lastUsable =
        some 1 ∧
      planFromEntries wideTable topEntries 512 (.bytes u64Max) = some none ∧
      Fits wideTable topEntries 6144 (u64Max / 512) ∧ LowestUnused wideTable topEntries 2 := by
  have hfirst : entryFirst topEntries 0 = 2048 := by decide +kernel
  have hlast : entryLast topEntries 0 = 4096 := by decide +kernel
  have hsecond : gptEntryUsed topEntries 1 = false := by decide +kernel
  refine ⟨⟨by decide +kernel, by decide +kernel, fun h => ?_⟩, by decide +kernel, by decide +kernel,
    ⟨by decide, by decide, by decide, fun i hi hu => ?_⟩, ?_⟩
  · have := h.fits.free 0 (by decide) (by decide +kernel)
    rw [hlast, hfirst] at this
    dsimp only at this
    omega
  · rcases (by simp only [wideTable] at hi; omega : i = 0 ∨ i = 1) with rfl | rfl
    · left
      rw [hlast]
      decide
    · rw [hsecond] at hu
      cases hu
  · refine ⟨by decide, by decide, hsecond, fun i hi => ?_⟩
    obtain rfl : i = 0 := by omega
    decide +kernel

/-- The planner at work on a disk of 8192 sectors. -/
theorem planFromEntries_after_entry :
    ∃ result, planFromEntries ⟨2, 34, 8191, by decide, by decide⟩ topEntries 512 (.bytes 1024) =
        some result ∧
      (∀ plan, result = some plan →
        Planned ⟨2, 34, 8191, by decide, by decide⟩ topEntries (.bytes 1024) plan) ∧
      (result = none → NoPlan ⟨2, 34, 8191, by decide, by decide⟩ topEntries (.bytes 1024)) :=
  planFromEntries_correct _ topEntries (.bytes 1024) (show gptEntriesValid topEntries 2 34 8191 = some 1 by
    decide +kernel) (by decide)

def registeredMax : Nat := 16

def blockMaxDevices : Nat := 32

/-- What a scan registers for a used entry. -/
structure Scanned where
  number : Nat
  firstLba : Nat
  lastLba : Nat
  typeGuid : List UInt8
  uniqueGuid : List UInt8
deriving DecidableEq

def scannedEntry (entries : Buf) (index : Nat) : Scanned where
  number := index + 1
  firstLba := entryFirst entries index
  lastLba := entryLast entries index
  typeGuid := (entries.skip (index * partitionEntryBytes)).bytes guidBytes
  uniqueGuid := (entries.skip (index * partitionEntryBytes + 16)).bytes guidBytes

lemma SameEntry.scanned {a b : Buf} {index : Nat} (h : SameEntry a b index) :
    scannedEntry a index = scannedEntry b index := by
  have htype : (a.skip (index * partitionEntryBytes)).bytes guidBytes =
      (b.skip (index * partitionEntryBytes)).bytes guidBytes :=
    Buf.bytes_congr fun k hk =>
      h k (by simp only [guidBytes] at hk; simp only [partitionEntryBytes]; omega)
  have hunique : (a.skip (index * partitionEntryBytes + 16)).bytes guidBytes =
      (b.skip (index * partitionEntryBytes + 16)).bytes guidBytes :=
    Buf.bytes_congr fun k hk => h.uniqueGuid hk
  unfold scannedEntry
  rw [h.first, h.last, htype, hunique]

def scanFrom (entries : Buf) (devices : Nat) : Nat → Nat → List Nat → Option (List Scanned)
  | _, _, [] => some []
  | free, discovered, index :: rest =>
    if gptEntryUsed entries index = false then scanFrom entries devices free discovered rest
    else if registeredMax ≤ discovered ∨ blockMaxDevices ≤ devices + discovered ∨ free = 0 then none
    else
      (scanFrom entries devices (free - 1) (discovered + 1) rest).map
        (scannedEntry entries index :: ·)

/-- The partitions registered. A failed `block_register` discards them all. -/
def gptScanDevice (device : Device) (disk : Nat → Buf) (devices free : Nat)
    (registers : Nat → Bool) : Option (List Scanned) :=
  match gptLoad device disk with
  | .error _ => none
  | .ok (table, entries) =>
    match scanFrom entries devices free 0 (List.range table.entryCount) with
    | none => none
    | some found => if (List.range found.length).all registers then some found else none

variable {entries : Buf} {found : List Scanned}

lemma scanFrom_some {devices free discovered : Nat} {indices : List Nat}
    (h : scanFrom entries devices free discovered indices = some found) :
    found = (indices.filter (gptEntryUsed entries)).map (scannedEntry entries) := by
  induction indices generalizing free discovered found with
  | nil =>
    cases h
    rfl
  | cons index rest ih =>
    rw [scanFrom] at h
    split at h
    · next hu =>
      rw [List.filter_cons_of_neg (by simp [hu])]
      exact ih h
    · next hu =>
      split at h
      · cases h
      · obtain ⟨tail, htail, rfl⟩ := Option.map_eq_some_iff.mp h
        rw [List.filter_cons_of_pos (by simpa using hu), ih htail]
        rfl

variable {device : Device} {disk : Nat → Buf} {table : GptTable}

lemma gptScanDevice_of_load {devices free : Nat} {registers : Nat → Bool}
    (hload : gptLoad device disk = .ok (table, entries))
    (hscan : scanFrom entries devices free 0 (List.range table.entryCount) = some found)
    (hregisters : (List.range found.length).all registers = true) :
    gptScanDevice device disk devices free registers = some found := by
  unfold gptScanDevice
  rw [hload]
  dsimp only
  rw [hscan]
  dsimp only
  rw [if_pos hregisters]

lemma gptLoad_entries (h : gptLoad device disk = .ok (table, entries)) :
    gptEntriesValid entries table.entryCount table.firstUsable table.lastUsable =
      some table.partitionCount := by
  obtain ⟨-, h⟩ := ensure_bind_ok.mp h
  obtain ⟨mbr, -, h⟩ := except_bind_ok.mp h
  obtain ⟨primary, -, h⟩ := except_bind_ok.mp h
  obtain ⟨backup, -, h⟩ := except_bind_ok.mp h
  obtain ⟨-, h⟩ := ensure_bind_ok.mp h
  obtain ⟨-, h⟩ := ensure_bind_ok.mp h
  obtain ⟨-, h⟩ := ensure_bind_ok.mp h
  obtain ⟨p, -, h⟩ := except_bind_ok.mp h
  obtain ⟨b, -, h⟩ := except_bind_ok.mp h
  obtain ⟨-, h⟩ := ensure_bind_ok.mp h
  obtain ⟨primaryEntries, -, h⟩ := except_bind_ok.mp h
  obtain ⟨backupEntries, -, h⟩ := except_bind_ok.mp h
  obtain ⟨-, h⟩ := ensure_bind_ok.mp h
  obtain ⟨used, hused, h⟩ := except_bind_ok.mp h
  cases h
  exact orBadFormat_ok.mp hused

def GptTable.usable (table : GptTable) {total : Nat} (h : table.Sound total) : Table where
  entryCount := table.entryCount
  firstUsable := table.firstUsable
  lastUsable := table.lastUsable
  firstUsable_le := by
    have := h.first_le
    have := h.last_lt
    have := h.backup_end
    have := h.total_le
    omega
  lastUsable_le := by
    have := h.last_lt
    have := h.backup_end
    have := h.total_le
    omega

def Metadata (device : Device) (table : GptTable) (x : Nat) : Prop :=
  x = 0 ∨ x = primaryHeaderLba ∨ x = device.sectorCount - 1 ∨
    (table.primaryEntriesLba ≤ x ∧ x < table.primaryEntriesLba + table.arraySectors) ∨
    (table.backupEntriesLba ≤ x ∧ x < table.backupEntriesLba + table.arraySectors)

/-- Where the partitions of a disk lie. -/
structure Isolated (device : Device) (table : GptTable) (found : List Scanned) : Prop where
  disjoint : found.Pairwise fun p q => p.lastLba < q.firstLba ∨ q.lastLba < p.firstLba
  inside : ∀ p ∈ found, p.firstLba ≤ p.lastLba ∧ p.lastLba < device.sectorCount
  apart : ∀ p ∈ found, ∀ x, p.firstLba ≤ x → x ≤ p.lastLba → ¬ Metadata device table x

/-- A request through the partition fails, or it is a request to the parent for the same
number of sectors, all of them the partition's. -/
def Confined (p : Scanned) : Prop :=
  ∀ (devices : Block.Devices) (part : Block.Partition), part.firstLba = p.firstLba →
    part.lastLba = p.lastLba → ∀ lba ≤ u64Max, ∀ count ≤ 0xffffffff, ∀ s buffer,
      (Block.partitionRead devices part lba count s = (none, s) ∨
        (p.firstLba + lba + count ≤ p.lastLba + 1 ∧
          Block.partitionRead devices part lba count s =
            Block.readOn devices (.disk part.parent) (p.firstLba + lba) count s)) ∧
      (Block.partitionWrite devices part lba count buffer s = (false, s) ∨
        (p.firstLba + lba + count ≤ p.lastLba + 1 ∧
          Block.partitionWrite devices part lba count buffer s =
            Block.writeOn devices (.disk part.parent) (p.firstLba + lba) count buffer s))

lemma confined_of_lt {p : Scanned} (horder : p.firstLba ≤ p.lastLba) (hlast : p.lastLba < u64Max) :
    Confined p := by
  intro devices part hfirst hlastLba lba _ count _ s buffer
  have hmax := u64Max_eq
  unfold Block.partitionRead Block.partitionWrite
  by_cases hin : Block.inPartition part lba count = true
  · have hrange := hin
    simp only [Block.inPartition, Bool.and_eq_true, decide_eq_true_eq, hfirst, hlastLba] at hrange
    have hstart : add64 part.firstLba lba = p.firstLba + lba := by
      rw [add64, hfirst, Nat.mod_eq_of_lt (by omega)]
    rw [if_pos hin, if_pos hin, hstart]
    exact ⟨.inr ⟨by omega, rfl⟩, .inr ⟨by omega, rfl⟩⟩
  · rw [if_neg hin, if_neg hin]
    exact ⟨.inl rfl, .inl rfl⟩

lemma Isolated.of_load (h : gptLoad device disk = .ok (table, entries)) :
    Isolated device table (((List.range table.entryCount).filter (gptEntryUsed entries)).map
      (scannedEntry entries)) := by
  obtain ⟨hsound, -, -⟩ := gptLoad_spec h
  have hlaid : Laid (table.usable hsound) entries := laid_of_valid (gptLoad_entries h)
  have hge := hsound.primary_ge
  have hle := hsound.primary_le
  have hlt := hsound.last_lt
  have hend := hsound.backup_end
  have hrange {p : Scanned} (hp : p ∈ ((List.range table.entryCount).filter
      (gptEntryUsed entries)).map (scannedEntry entries)) :
      table.firstUsable ≤ p.firstLba ∧ p.firstLba ≤ p.lastLba ∧ p.lastLba ≤ table.lastUsable := by
    obtain ⟨i, hi, rfl⟩ := List.mem_map.mp hp
    obtain ⟨hi, hu⟩ := List.mem_filter.mp hi
    exact hlaid.ranges i (List.mem_range.mp hi) hu
  refine ⟨?_, fun p hp => ?_, fun p hp x hfirst hlast hmeta => ?_⟩
  · refine List.pairwise_map.mpr ((List.pairwise_lt_range.filter _).imp_of_mem ?_)
    intro i j hi hj hij
    obtain ⟨hi, hui⟩ := List.mem_filter.mp hi
    obtain ⟨hj, huj⟩ := List.mem_filter.mp hj
    exact (hlaid.disjoint i (List.mem_range.mp hi) j (List.mem_range.mp hj) hui huj
      (Nat.ne_of_lt hij)).symm
  · have := hrange hp
    omega
  · have := hrange hp
    simp only [primaryEntriesLba] at hge
    simp only [Metadata, primaryHeaderLba] at hmeta
    omega

/-- Whatever is on the disk: the partitions a scan registers lie inside the disk, apart
from each other and from the table, and requests through them stay inside them. -/
theorem scanned_partitions_isolated (device : Device) (disk : Nat → Buf) (devices free : Nat)
    (registers : Nat → Bool) (found : List Scanned)
    (h : gptScanDevice device disk devices free registers = some found) :
    ∃ table entries, gptLoad device disk = .ok (table, entries) ∧
      Isolated device table found ∧ ∀ p ∈ found, Confined p := by
  unfold gptScanDevice at h
  split at h
  · cases h
  · next table entries hload =>
    split at h
    · cases h
    · next all hscan =>
      split at h
      · cases h
        have hisolated := Isolated.of_load hload
        rw [← scanFrom_some hscan] at hisolated
        refine ⟨table, entries, hload, hisolated, fun p hp => ?_⟩
        obtain ⟨horder, hlast⟩ := hisolated.inside p hp
        exact confined_of_lt horder (lt_of_lt_of_le hlast device.sectorCount_le)
      · cases h

/-- Two partitions, the second before the first: sectors 40 to 65 and 3 to 30. -/
def twoEntries : Buf :=
  let first := storeLe64 (storeLe64 (Buf.zero.fill 0 32 1) 32 40) 40 65
  storeLe64 (storeLe64 (first.fill 128 32 2) (128 + 32) 3) (128 + 40) 30

def twoTable : GptTable := { emptyTable with entryCount := 2 }

def twoDisk (s : Nat) : Buf :=
  if s = 0 then emptyDisk 0
  else if s = 1 then sectorOf (updatedHeader twoTable false twoEntries) 0
  else if s = 67 then sectorOf (updatedHeader twoTable true twoEntries) 0
  else if s = 2 ∨ s = 66 then sectorOf twoEntries 0
  else Buf.zero

def twoFound : List Scanned :=
  [⟨1, 40, 65, List.replicate 16 1, List.replicate 16 1⟩,
    ⟨2, 3, 30, List.replicate 16 2, List.replicate 16 2⟩]

lemma twoTable_sound : twoTable.Sound smallDevice.sectorCount := by
  refine ⟨by decide, ⟨7, by decide, by decide⟩, ?_, ?_, ?_, ?_, ?_, ?_, ?_, ?_, ?_, ?_⟩ <;> decide

lemma gptScanDevice_twoDisk :
    gptScanDevice smallDevice twoDisk 1 16 (fun _ => true) = some twoFound := by
  have hp : NewCopy twoTable twoEntries false 1 2 ⟨twoDisk, []⟩ := by
    refine ⟨fun k hk => ?_, rfl, by simp⟩
    obtain rfl : k = 0 := by simpa [twoTable, emptyTable] using hk
    exact ⟨rfl, by simp⟩
  have hb : NewCopy twoTable twoEntries true 67 66 ⟨twoDisk, []⟩ := by
    refine ⟨fun k hk => ?_, rfl, by simp⟩
    obtain rfl : k = 0 := by simpa [twoTable, emptyTable] using hk
    exact ⟨rfl, by simp⟩
  have hload : gptLoad smallDevice twoDisk =
      .ok ({ twoTable with partitionCount := 2 }, sectorsFrom twoDisk 2) :=
    (gptLoad_of_new (by decide) (by decide) twoTable_sound hp hb (by decide +kernel)).1
  have hscan : scanFrom (sectorsFrom twoDisk 2) 1 16 0 (List.range 2) = some twoFound := by
    decide +kernel
  exact gptScanDevice_of_load hload hscan rfl

/-- Two partitions in the table of one disk. -/
theorem two_partitions_isolated :
    ∃ table entries, gptLoad smallDevice twoDisk = .ok (table, entries) ∧
      Isolated smallDevice table twoFound ∧ ∀ p ∈ twoFound, Confined p :=
  scanned_partitions_isolated smallDevice twoDisk 1 16 (fun _ => true) _ gptScanDevice_twoDisk

end Mangrove.Gpt
