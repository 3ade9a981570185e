import Mathlib

/-! The conversion between seconds since the epoch and dates. The 64-bit arithmetic of the
source is checked at every step; below it, years begin in March. The clock
starts from the date in the RTC registers. -/

namespace Mangrove.Time

/-- An `mg_calendar_time_t`. -/
structure Calendar where
  year : Int
  month : Nat
  day : Nat
  hour : Nat
  minute : Nat
  second : Nat
  nanoseconds : Nat
deriving DecidableEq

/-- An `mg_mangrove_time_t`. -/
structure Instant where
  seconds : Int
  nanoseconds : Nat
deriving DecidableEq

def InI32 (x : Int) : Prop := -2 ^ 31 ≤ x ∧ x < 2 ^ 31

def InI64 (x : Int) : Prop := -2 ^ 63 ≤ x ∧ x < 2 ^ 63

instance (x : Int) : Decidable (InI32 x) := inferInstanceAs (Decidable (_ ∧ _))

instance (x : Int) : Decidable (InI64 x) := inferInstanceAs (Decidable (_ ∧ _))

/-- A signed result, if it does not overflow. -/
def checked (x : Int) : Option Int := if InI64 x then some x else none

def add (x y : Int) : Option Int := checked (x + y)

def sub (x y : Int) : Option Int := checked (x - y)

def mul (x y : Int) : Option Int := checked (x * y)

/-- `(x >= 0 ? x : x - (k - 1)) / k`. -/
def floorDiv (x k : Int) : Option Int :=
  (if x ≥ 0 then some x else sub x (k - 1)).map fun n => n.tdiv k

def epochSerial : Int := 730425

def secondsPerDay : Int := 86400

def civilSerial (year : Int) (month day : Nat) : Option Int := do
  let adjustedYear ← sub year (if month ≤ 2 then 1 else 0)
  let era ← floorDiv adjustedYear 400
  let yearOfEra ← sub adjustedYear (← mul era 400)
  let monthPrime ← add month (if month > 2 then -3 else 9)
  let dayOfYear ← sub (← add (Int.tdiv (← add (← mul 153 monthPrime) 2) 5) day) 1
  let dayOfEra ← add (← sub (← add (← mul yearOfEra 365) (yearOfEra.tdiv 4)) (yearOfEra.tdiv 100))
    dayOfYear
  add (← mul era 146097) dayOfEra

def leapYear (year : Int) : Bool :=
  year.tmod 4 = 0 && (year.tmod 100 ≠ 0 || year.tmod 400 = 0)

def daysInMonth (year : Int) (month : Nat) : Nat :=
  if month = 2 && leapYear year then 29
  else [31, 28, 31, 30, 31, 30, 31, 31, 30, 31, 30, 31].getD (month - 1) 0

def calendarValid (c : Calendar) : Bool :=
  1 ≤ c.month && c.month ≤ 12 && 1 ≤ c.day && c.day ≤ daysInMonth c.year c.month &&
    c.hour ≤ 23 && c.minute ≤ 59 && c.second ≤ 59 && c.nanoseconds < 10 ^ 9

/-- `serial_to_calendar`: the year, month and day, if the year has 32 bits. -/
def serialToCalendar (z : Int) : Option (Option (Int × Int × Int)) := do
  let era ← floorDiv z 146097
  let dayOfEra ← sub z (← mul era 146097)
  let yearOfEra := Int.tdiv (← sub (← add (← sub dayOfEra (dayOfEra.tdiv 1460))
    (dayOfEra.tdiv 36524)) (dayOfEra.tdiv 146096)) 365
  let year ← add yearOfEra (← mul era 400)
  let dayOfYear ← sub dayOfEra (← sub (← add (← mul 365 yearOfEra) (yearOfEra.tdiv 4))
    (yearOfEra.tdiv 100))
  let monthPrime := Int.tdiv (← add (← mul 5 dayOfYear) 2) 153
  let day ← add (← sub dayOfYear (Int.tdiv (← add (← mul 153 monthPrime) 2) 5)) 1
  let month ← add monthPrime (if monthPrime < 10 then 3 else -9)
  let year ← add year (if month ≤ 2 then 1 else 0)
  return if year < -0x80000000 ∨ year > 0x7fffffff then none else some (year, month, day)

/-- `mangrove_time_from_calendar`. The outer option is empty if an operation overflowed. -/
def fromCalendar (c : Calendar) : Option (Option Instant) :=
  if calendarValid c = false then some none
  else do
    let days ← sub (← civilSerial c.year c.month c.day) epochSerial
    if days > Int.tdiv (2 ^ 63 - 1) secondsPerDay ∨ days < Int.tdiv (-2 ^ 63) secondsPerDay then
      return none
    let seconds ← add (← add (← add (← mul days secondsPerDay) (← mul c.hour 3600))
      (← mul c.minute 60)) c.second
    return some ⟨seconds, c.nanoseconds⟩

def toCalendar (t : Instant) : Option (Option Calendar) :=
  if t.nanoseconds ≥ 10 ^ 9 then some none
  else do
    let remainder := t.seconds.tmod secondsPerDay
    let days := t.seconds.tdiv secondsPerDay
    let days ← (if remainder < 0 then sub days 1 else some days : Option Int)
    let remainder ← (if remainder < 0 then add remainder secondsPerDay else some remainder :
      Option Int)
    match ← serialToCalendar (← add days epochSerial) with
    | none => return none
    | some (year, month, day) =>
      return some ⟨year, month.toNat, day.toNat, (remainder.tdiv 3600).toNat,
        ((remainder.tmod 3600).tdiv 60).toNat, ((remainder.tmod 3600).tmod 60).toNat,
        t.nanoseconds⟩

def start (a : Int) : Int := 365 * a + a / 4 - a / 100 + a / 400

lemma exists_year {z : Int} (h0 : 0 ≤ z) (n : Nat) (h : z < start n) :
    ∃ y : Nat, y < n ∧ start y ≤ z ∧ z < start (y + 1) := by
  induction n with
  | zero =>
    simp only [start] at h
    omega
  | succ n ih =>
    by_cases hz : z < start n
    · obtain ⟨y, hy, hrest⟩ := ih hz
      exact ⟨y, by omega, hrest⟩
    · exact ⟨n, by omega, by omega, by exact_mod_cast h⟩

lemma start_era (e y : Int) : start (400 * e + y) = 146097 * e + start y := by
  simp only [start]
  omega

lemma exists_day (z : Int) :
    ∃ a doy, z = start a + doy ∧ 0 ≤ doy ∧ doy < start (a + 1) - start a := by
  obtain ⟨y, -, hlow, hhigh⟩ := @exists_year (z % 146097) (by omega) 400
    (by simp only [start]; omega)
  refine ⟨400 * (z / 146097) + y, z % 146097 - start y, ?_, by omega, ?_⟩
  · rw [start_era]
    omega
  · rw [add_assoc, start_era, start_era]
    omega

lemma start_in_era {y : Int} (h0 : 0 ≤ y) (h : y < 400) :
    start y = 365 * y + y / 4 - y / 100 ∧ 0 ≤ start y ∧ start y < start (y + 1) ∧
      start (y + 1) ≤ 146097 := by
  simp only [start]
  omega

lemma start_lt {a b : Int} (h : a < b) : start (a + 1) ≤ start b := by
  simp only [start]
  omega

lemma yearOfEra_eq {y doy : Int} (hy : 0 ≤ y) (hy' : y < 400) (h0 : 0 ≤ doy)
    (h : doy < start (y + 1) - start y) :
    (start y + doy - (start y + doy) / 1460 + (start y + doy) / 36524 -
      (start y + doy) / 146096) / 365 = y := by
  have hdoy : doy ≤ 365 ∧ (doy = 365 → (y + 1) % 4 = 0 ∧ ((y + 1) % 100 ≠ 0 ∨ y = 399)) := by
    simp only [start] at h
    omega
  obtain ⟨hle, hleap⟩ := hdoy
  clear h
  obtain ⟨hstart, -⟩ := start_in_era hy hy'
  have hlow : 36524 * (y / 100) ≤ start y + doy := by omega
  have hhigh : start y + doy < 36524 * (y / 100 + 1) ∨ (y / 100 = 3 ∧ start y + doy = 146096) := by
    omega
  have hcentury : (start y + doy) / 36524 - (start y + doy) / 146096 = y / 100 := by
    clear hstart hleap
    generalize start y + doy = z at hlow hhigh ⊢
    omega
  have hfour : 0 ≤ doy + y / 4 - (start y + doy) / 1460 ∧
      doy + y / 4 - (start y + doy) / 1460 ≤ 364 := by
    rw [hstart]
    omega
  omega

lemma day_of_start {a doy : Int} (h0 : 0 ≤ doy) (h : doy < start (a + 1) - start a) :
    (start a + doy) / 146097 = a / 400 ∧ (start a + doy) % 146097 = start (a % 400) + doy := by
  have hstart := start_era (a / 400) (a % 400)
  have hnext := start_era (a / 400) (a % 400 + 1)
  have heq : 400 * (a / 400) + a % 400 = a := by omega
  have hbounds := @start_in_era (a % 400) (by omega) (by omega)
  rw [← add_assoc, heq] at hnext
  rw [heq] at hstart
  omega

def marchYear (year : Int) (month : Nat) : Int := year - if month ≤ 2 then 1 else 0

def monthPrime (month : Nat) : Int := month + if month > 2 then -3 else 9

def dayOfYear (month day : Nat) : Int := (153 * monthPrime month + 2) / 5 + day - 1

def serial (year : Int) (month day : Nat) : Int := start (marchYear year month) + dayOfYear month day

def IsLeap (year : Int) : Prop := 4 ∣ year ∧ (¬ 100 ∣ year ∨ 400 ∣ year)

instance (year : Int) : Decidable (IsLeap year) := inferInstanceAs (Decidable (_ ∧ _))

def monthLength (year : Int) (month : Nat) : Nat :=
  if month = 2 then if IsLeap year then 29 else 28
  else if month = 4 ∨ month = 6 ∨ month = 9 ∨ month = 11 then 30
  else 31

def ValidDate (year : Int) (month day : Nat) : Prop :=
  1 ≤ month ∧ month ≤ 12 ∧ 1 ≤ day ∧ day ≤ monthLength year month

lemma monthLength_bounds (year : Int) (month : Nat) :
    28 ≤ monthLength year month ∧ monthLength year month ≤ 31 := by
  unfold monthLength
  split_ifs <;> omega

variable {year : Int} {month : Nat}

lemma daysInMonth_eq (h1 : 1 ≤ month) (h12 : month ≤ 12) :
    daysInMonth year month = monthLength year month := by
  have htmod (k : Int) : year.tmod k = 0 ↔ k ∣ year := (Int.dvd_iff_tmod_eq_zero ..).symm
  have hleap : leapYear year = true ↔ IsLeap year := by
    simp [leapYear, htmod, IsLeap]
  unfold daysInMonth monthLength
  by_cases hfeb : month = 2
  · by_cases hl : IsLeap year
    · simp [hfeb, hl, hleap.mpr hl]
    · simp [hfeb, hl, hleap]
  · interval_cases month <;> simp at hfeb ⊢

lemma start_succ (a : Int) : start (a + 1) = start a + if IsLeap (a + 1) then 366 else 365 := by
  simp only [start, IsLeap]
  split_ifs <;> omega

variable {day : Nat}

lemma ValidDate.dayOfYear (h : ValidDate year month day) : 0 ≤ dayOfYear month day ∧
      dayOfYear month day < start (marchYear year month + 1) - start (marchYear year month) ∧
      (5 * dayOfYear month day + 2) / 153 = monthPrime month := by
  obtain ⟨h1, h12, hday, hle⟩ := h
  rw [start_succ, add_sub_cancel_left]
  by_cases hfeb : month = 2
  · subst hfeb
    rw [show marchYear year 2 + 1 = year by simp [marchYear]]
    simp only [monthLength, if_true] at hle
    simp only [Time.dayOfYear, monthPrime]
    split_ifs at hle ⊢ <;> omega
  · have hyear : (365 : Int) ≤ if IsLeap (marchYear year month + 1) then 366 else 365 := by
      split <;> decide
    generalize (if IsLeap (marchYear year month + 1) then 366 else 365 : Int) = n at *
    simp only [monthLength, hfeb, if_false] at hle
    simp only [Time.dayOfYear, monthPrime]
    interval_cases month <;> simp at hle hfeb ⊢ <;> omega

lemma exists_date (z : Int) : ∃ year month day, ValidDate year month day ∧
    serial year month day = z := by
  obtain ⟨a, doy, rfl, h0, h⟩ := exists_day z
  rw [start_succ, add_sub_cancel_left] at h
  have hle : doy ≤ 365 := by split_ifs at h <;> omega
  obtain ⟨k, hk⟩ : ∃ k : Nat, (5 * doy + 2) / 153 = k := ⟨_, (Int.toNat_of_nonneg (by omega)).symm⟩
  obtain ⟨day, hday⟩ : ∃ day : Nat, doy - (153 * k + 2) / 5 + 1 = day :=
    ⟨_, (Int.toNat_of_nonneg (by omega)).symm⟩
  have hk11 : k ≤ 11 := by omega
  refine ⟨a + if k < 10 then 0 else 1, if k < 10 then k + 3 else k - 9, day, ⟨?_, ?_, ?_, ?_⟩, ?_⟩
  · split <;> omega
  · split <;> omega
  · omega
  · by_cases hfeb : k = 11
    · subst hfeb
      simp only [monthLength]
      simp
      split_ifs at h ⊢ <;> omega
    · clear h
      interval_cases k <;> simp [monthLength] at hfeb ⊢ <;> omega
  · clear h
    simp only [serial, marchYear, Time.dayOfYear, monthPrime]
    by_cases h10 : k < 10
    · simp only [h10, if_true]
      rw [if_neg (by omega), if_pos (by omega)]
      simp
      omega
    · simp only [h10, if_false]
      rw [if_pos (by omega), if_neg (by omega)]
      simp
      omega

lemma serial_lt {y y' : Int} {m m' d d' : Nat} (h : ValidDate y m d) (h' : ValidDate y' m' d')
    (hlt : y < y' ∨ (y = y' ∧ (m < m' ∨ (m = m' ∧ d < d')))) : serial y m d < serial y' m' d' := by
  obtain ⟨h0, hnext, hmonth⟩ := h.dayOfYear
  obtain ⟨h0', hnext', hmonth'⟩ := h'.dayOfYear
  obtain ⟨h1, h12, hday, -⟩ := h
  obtain ⟨h1', h12', hday', -⟩ := h'
  unfold serial
  by_cases hyear : marchYear y m < marchYear y' m'
  · have := start_lt hyear
    omega
  · have heq : marchYear y m = marchYear y' m' := by
      simp only [marchYear] at hyear ⊢
      split_ifs at hyear ⊢ <;> omega
    have hprime : monthPrime m < monthPrime m' ∨ (m = m' ∧ d < d') := by
      simp only [marchYear] at heq
      simp only [monthPrime]
      split_ifs at heq ⊢ <;> omega
    rw [heq]
    rcases hprime with hprime | ⟨rfl, hd⟩
    · omega
    · simp only [Time.dayOfYear]
      omega

section

variable {α : Type} {x k : Int} {f : Int → Option α}

lemma bind_checked (h : -2 ^ 63 ≤ x ∧ x < 2 ^ 63) : (checked x >>= f) = f x := by
  rw [checked, if_pos (show InI64 x from h)]
  rfl

lemma tdiv_nonneg (h : 0 ≤ x) : x.tdiv k = x / k := Int.tdiv_eq_ediv_of_nonneg h

lemma floorDiv_eq (hk : 0 < k) (h : InI64 (x - (k - 1))) : floorDiv x k = some (x / k) := by
  unfold floorDiv
  by_cases hx : x ≥ 0
  · rw [if_pos hx, Option.map_some, tdiv_nonneg hx]
  · have hneg : x - (k - 1) = -(-x + (k - 1)) := by ring
    rw [if_neg hx, sub, checked, if_pos h, Option.map_some, hneg, Int.neg_tdiv,
      tdiv_nonneg (by omega), Option.some_inj, eq_comm, Int.ediv_eq_iff_of_pos hk]
    have hmul := Int.mul_ediv_add_emod (-x + (k - 1)) k
    have hlow := Int.emod_nonneg (-x + (k - 1)) hk.ne'
    have hhigh := Int.emod_lt_of_pos (-x + (k - 1)) hk
    constructor <;> nlinarith

lemma bind_floorDiv (hk : 0 < k) (h : InI64 (x - (k - 1))) : (floorDiv x k >>= f) = f (x / k) := by
  rw [floorDiv_eq hk h]
  rfl

end

lemma civilSerial_eq (hy : InI32 year) (h12 : month ≤ 12)
    (hday : day ≤ 31) : civilSerial year month day = some (serial year month day) := by
  obtain ⟨hlow, hhigh⟩ := hy
  have ha : -2 ^ 31 - 1 ≤ marchYear year month ∧ marchYear year month < 2 ^ 31 := by
    simp only [marchYear]
    split <;> omega
  have hp : 0 ≤ monthPrime month ∧ monthPrime month ≤ 11 := by
    simp only [monthPrime]
    split <;> omega
  unfold civilSerial serial dayOfYear
  change (checked (marchYear year month) >>= _) = _
  rw [bind_checked (by omega)]
  generalize marchYear year month = a at *
  have hstart : start a = a / 400 * 146097 + (a % 400 * 365 + a % 400 / 4 - a % 400 / 100) := by
    simp only [start]
    omega
  have hyoe : a - a / 400 * 400 = a % 400 := by omega
  have hy0 : 0 ≤ a % 400 := by omega
  rw [hstart, bind_floorDiv (by decide) ⟨by omega, by omega⟩]
  simp only [mul, sub, add]
  rw [bind_checked (by omega), bind_checked (by omega), hyoe]
  change (checked (monthPrime month) >>= _) = _
  generalize monthPrime month = p at *
  have hdays : Int.tdiv (153 * p + 2) 5 = (153 * p + 2) / 5 := tdiv_nonneg (by omega)
  rw [bind_checked (by omega), bind_checked (by omega),
    bind_checked (by omega), hdays, tdiv_nonneg hy0, tdiv_nonneg hy0]
  iterate 7 rw [bind_checked (by omega)]
  rw [checked, if_pos ⟨by omega, by omega⟩]
  exact congrArg some (by ring)

lemma serialToCalendar_eq (h : ValidDate year month day)
    (hlow : -2 ^ 50 ≤ serial year month day) (hhigh : serial year month day ≤ 2 ^ 50) :
    serialToCalendar (serial year month day) =
      some (if InI32 year then some (year, (month : Int), (day : Int)) else none) := by
  obtain ⟨h0, hnext, hprime⟩ := h.dayOfYear
  obtain ⟨h1, h12, hday, -⟩ := h
  obtain ⟨hera, hday'⟩ := day_of_start h0 hnext
  have hdays : dayOfYear month day = (153 * monthPrime month + 2) / 5 + day - 1 := rfl
  have hyear : (if monthPrime month + (if monthPrime month < 10 then 3 else -9) ≤ 2 then 1 else 0) =
      year - marchYear year month ∧
      monthPrime month + (if monthPrime month < 10 then 3 else -9) = month := by
    simp only [monthPrime, marchYear]
    split_ifs <;> omega
  obtain ⟨hyear, hmonth⟩ := hyear
  unfold serial at *
  generalize marchYear year month = a at *
  generalize dayOfYear month day = doy at *
  obtain ⟨hstart, hpos, -, hlast⟩ := @start_in_era (a % 400) (by omega) (by omega)
  have hera400 := start_era (a / 400) (a % 400)
  have hnext400 := start_era (a / 400) (a % 400 + 1)
  have ha : 400 * (a / 400) + a % 400 = a := by omega
  rw [← add_assoc, ha] at hnext400
  rw [ha] at hera400
  have hyoe := @yearOfEra_eq (a % 400) doy (by omega) (by omega) h0 (by omega)
  have hdoe : start a + doy - a / 400 * 146097 = start (a % 400) + doy := by omega
  have hdoe0 : 0 ≤ start (a % 400) + doy := by omega
  unfold serialToCalendar
  rw [bind_floorDiv (by decide) ⟨by omega, by omega⟩, hera]
  simp only [mul, sub, add]
  rw [bind_checked (by omega), bind_checked (by omega), hdoe,
    tdiv_nonneg hdoe0, tdiv_nonneg hdoe0, tdiv_nonneg hdoe0]
  generalize start (a % 400) = st at *
  iterate 3 rw [bind_checked (by omega)]
  have hyear0 : Int.tdiv (st + doy - (st + doy) / 1460 + (st + doy) / 36524 -
      (st + doy) / 146096) 365 = a % 400 := by rw [tdiv_nonneg (by omega), hyoe]
  have hy0 : 0 ≤ a % 400 := by omega
  have hdoy : st + doy - (365 * (a % 400) + a % 400 / 4 - a % 400 / 100) = doy := by omega
  rw [hyear0, tdiv_nonneg hy0, tdiv_nonneg hy0]
  iterate 6 rw [bind_checked (by omega)]
  rw [hdoy]
  iterate 2 rw [bind_checked (by omega)]
  have hprime' : Int.tdiv (5 * doy + 2) 153 = monthPrime month := by
    rw [tdiv_nonneg (by omega), hprime]
  have hfive : Int.tdiv (153 * monthPrime month + 2) 5 = (153 * monthPrime month + 2) / 5 :=
    tdiv_nonneg (by omega)
  have hday0 : doy - (153 * monthPrime month + 2) / 5 + 1 = day := by omega
  rw [hmonth] at hyear
  rw [hprime', bind_checked (by omega), bind_checked (by omega), hfive,
    bind_checked (by omega), bind_checked (by omega), hday0, hmonth,
    bind_checked (by omega), hyear]
  have hyears : a % 400 + a / 400 * 400 + (year - a) = year := by omega
  rw [hyears, bind_checked (by omega)]
  by_cases hy : InI32 year
  · rw [if_pos hy, if_neg (by obtain ⟨h, h'⟩ := hy; omega)]
    rfl
  · rw [if_neg hy, if_pos (by
      by_contra h
      exact hy ⟨by omega, by omega⟩)]
    rfl

def secondsOf (c : Calendar) : Int :=
  (serial c.year c.month c.day - epochSerial) * secondsPerDay + c.hour * 3600 + c.minute * 60 + c.second

/-- A date and time that the Gregorian calendar has. -/
structure Gregorian (c : Calendar) : Prop where
  date : ValidDate c.year c.month c.day
  hour : c.hour ≤ 23
  minute : c.minute ≤ 59
  second : c.second ≤ 59
  nanoseconds : c.nanoseconds < 10 ^ 9

def Calendar.instant (c : Calendar) : Instant := ⟨secondsOf c, c.nanoseconds⟩

variable {c : Calendar}

lemma calendarValid_iff : calendarValid c = true ↔ Gregorian c := by
  simp only [calendarValid, Bool.and_eq_true, decide_eq_true_eq]
  constructor
  · rintro ⟨⟨⟨⟨⟨⟨⟨h1, h12⟩, hday⟩, hle⟩, hhour⟩, hminute⟩, hsecond⟩, hnano⟩
    exact ⟨⟨h1, h12, hday, daysInMonth_eq h1 h12 ▸ hle⟩, hhour, hminute, hsecond, hnano⟩
  · rintro ⟨⟨h1, h12, hday, hle⟩, hhour, hminute, hsecond, hnano⟩
    exact ⟨⟨⟨⟨⟨⟨⟨h1, h12⟩, hday⟩, daysInMonth_eq h1 h12 ▸ hle⟩, hhour⟩, hminute⟩, hsecond⟩, hnano⟩

lemma fromCalendar_eq (h : Gregorian c) (hy : InI32 c.year) :
    fromCalendar c = some (some c.instant) ∧ InI64 c.instant.seconds := by
  obtain ⟨hdate, hhour, hminute, hsecond, -⟩ := id h
  obtain ⟨h0, hnext, -⟩ := hdate.dayOfYear
  have hmonth := hdate.2.1
  have hday : c.day ≤ 31 := hdate.2.2.2.trans (monthLength_bounds _ _).2
  have hserial : -2 ^ 40 ≤ serial c.year c.month c.day ∧ serial c.year c.month c.day ≤ 2 ^ 40 := by
    obtain ⟨hlow, hhigh⟩ := hy
    have ha : -2 ^ 31 - 1 ≤ marchYear c.year c.month ∧ marchYear c.year c.month < 2 ^ 31 := by
      simp only [marchYear]
      split <;> omega
    simp only [serial, start] at hnext ⊢
    omega
  have htop : Int.tdiv (2 ^ 63 - 1) secondsPerDay = 106751991167300 := by decide
  have hbottom : Int.tdiv (-2 ^ 63) secondsPerDay = -106751991167300 := by decide
  have hday : secondsPerDay = 86400 := rfl
  have hepoch : epochSerial = 730425 := rfl
  unfold fromCalendar Calendar.instant secondsOf
  rw [if_neg (by simp [calendarValid_iff.mpr h]), civilSerial_eq hy hmonth ‹_›, htop, hbottom]
  generalize serial c.year c.month c.day = z at *
  clear h0 hnext hmonth hdate h hy htop hbottom
  simp only [sub, add, mul, hday, hepoch]
  refine ⟨?_, by omega, by omega⟩
  change (checked (z - 730425) >>= _) = _
  rw [bind_checked (by omega), if_neg (by omega)]
  iterate 6 rw [bind_checked (by omega)]
  rfl

lemma floor_day {x : Int} (h : InI64 x) :
    (if x.tmod secondsPerDay < 0 then sub (x.tdiv secondsPerDay) 1
      else some (x.tdiv secondsPerDay)) = some (x / 86400) ∧
    (if x.tmod secondsPerDay < 0 then add (x.tmod secondsPerDay) secondsPerDay
      else some (x.tmod secondsPerDay)) = some (x % 86400) := by
  obtain ⟨hlow, hhigh⟩ := h
  have hsplit := Int.mul_tdiv_add_tmod x 86400
  have hlt := Int.tmod_lt_of_pos x (show (0 : Int) < 86400 by decide)
  have hgt := Int.lt_tmod_of_pos x (show (0 : Int) < 86400 by decide)
  unfold secondsPerDay sub add
  generalize x.tdiv 86400 = q at *
  generalize x.tmod 86400 = r at *
  split_ifs with hr
  · rw [checked, if_pos ⟨by omega, by omega⟩, checked, if_pos ⟨by omega, by omega⟩]
    exact ⟨congrArg some (by omega), congrArg some (by omega)⟩
  · exact ⟨congrArg some (by omega), congrArg some (by omega)⟩

lemma toCalendar_eq (h : Gregorian c) (ht : InI64 c.instant.seconds) :
    toCalendar c.instant = some (if InI32 c.year then some c else none) := by
  obtain ⟨t, hinstant⟩ : ∃ t, c.instant = t := ⟨_, rfl⟩
  obtain ⟨hdate, hhour, hminute, hsecond, hnano⟩ := h
  have hns : c.nanoseconds = t.nanoseconds := by rw [← hinstant, Calendar.instant]
  have hclock : t.seconds = (serial c.year c.month c.day - 730425) * 86400 +
      (c.hour * 3600 + c.minute * 60 + c.second) := by
    rw [← hinstant]
    simp only [Calendar.instant, secondsOf, secondsPerDay, epochSerial]
    ring
  rw [hinstant] at ht ⊢
  have hfloor := floor_day ht
  have hdays : t.seconds / 86400 = serial c.year c.month c.day - 730425 := by omega
  have hrest : t.seconds % 86400 = c.hour * 3600 + c.minute * 60 + c.second := by omega
  rw [hdays, hrest] at hfloor
  obtain ⟨hlow, hhigh⟩ := ht
  have hserial := serialToCalendar_eq hdate (by omega) (by omega)
  unfold toCalendar
  rw [if_neg (by omega)]
  dsimp only
  rw [hfloor.1, hfloor.2]
  change (checked (serial c.year c.month c.day - 730425 + 730425) >>= _) = _
  rw [bind_checked (by omega), Int.sub_add_cancel, hserial]
  have hhours : Int.tdiv (c.hour * 3600 + c.minute * 60 + c.second) 3600 = c.hour := by
    rw [tdiv_nonneg (by omega)]
    omega
  have hmod : Int.tmod (c.hour * 3600 + c.minute * 60 + c.second) 3600 =
      c.minute * 60 + c.second := by
    rw [Int.tmod_eq_emod_of_nonneg (by omega)]
    omega
  have hminutes : Int.tdiv (c.minute * 60 + c.second) 60 = c.minute := by
    rw [tdiv_nonneg (by omega)]
    omega
  have hseconds : Int.tmod (c.minute * 60 + c.second) 60 = c.second := by
    rw [Int.tmod_eq_emod_of_nonneg (by omega)]
    omega
  by_cases hy : InI32 c.year
  · rw [if_pos hy, if_pos hy]
    simp [hhours, hmod, hminutes, hseconds, ← hns]
  · rw [if_neg hy, if_neg hy]
    rfl

def DateBefore (c d : Calendar) : Prop :=
  c.year < d.year ∨ (c.year = d.year ∧ (c.month < d.month ∨ (c.month = d.month ∧ c.day < d.day)))

def ClockBefore (c d : Calendar) : Prop :=
  c.hour < d.hour ∨ (c.hour = d.hour ∧ (c.minute < d.minute ∨
    (c.minute = d.minute ∧ (c.second < d.second ∨
      (c.second = d.second ∧ c.nanoseconds < d.nanoseconds)))))

def Before (c d : Calendar) : Prop :=
  DateBefore c d ∨ ((c.year = d.year ∧ c.month = d.month ∧ c.day = d.day) ∧ ClockBefore c d)

def Instant.Before (s t : Instant) : Prop :=
  s.seconds < t.seconds ∨ (s.seconds = t.seconds ∧ s.nanoseconds < t.nanoseconds)

variable {d : Calendar}

lemma instant_before (hc : Gregorian c) (hd : Gregorian d) (h : Before c d) :
    c.instant.Before d.instant := by
  obtain ⟨hdate, hhour, hminute, hsecond, -⟩ := hc
  obtain ⟨hdate', hhour', hminute', hsecond', -⟩ := hd
  simp only [Instant.Before, Calendar.instant, secondsOf, secondsPerDay]
  rcases h with h | ⟨⟨hy, hm, hday⟩, h⟩
  · have := serial_lt hdate hdate' h
    omega
  · rw [hy, hm, hday]
    simp only [ClockBefore] at h
    omega

lemma before_total (c d : Calendar) : Before c d ∨ c = d ∨ Before d c := by
  obtain ⟨y, mo, day, ho, mi, s, n⟩ := c
  obtain ⟨y', mo', day', ho', mi', s', n'⟩ := d
  simp only [Before, DateBefore, ClockBefore, Calendar.mk.injEq]
  by_cases hdate : y = y' ∧ mo = mo' ∧ day = day'
  · obtain ⟨rfl, rfl, rfl⟩ := hdate
    omega
  · simp only [hdate, false_and, or_false]
    omega

lemma instant_before_iff (hc : Gregorian c) (hd : Gregorian d) :
    c.instant.Before d.instant ↔ Before c d := by
  refine ⟨fun h => ?_, instant_before hc hd⟩
  rcases before_total c d with hb | rfl | hb
  · exact hb
  · simp only [Instant.Before] at h
    omega
  · have := instant_before hd hc hb
    simp only [Instant.Before] at h this
    omega

lemma instant_inj (hc : Gregorian c) (hd : Gregorian d) (h : c.instant = d.instant) : c = d := by
  have hnot : ¬ d.instant.Before d.instant := by simp [Instant.Before]
  rcases before_total c d with hb | rfl | hb
  · have hlt := instant_before hc hd hb
    rw [h] at hlt
    exact absurd hlt hnot
  · rfl
  · have hlt := instant_before hd hc hb
    rw [h] at hlt
    exact absurd hlt hnot

variable {t : Instant}

lemma exists_calendar (h : t.nanoseconds < 10 ^ 9) : ∃ c, Gregorian c ∧ c.instant = t := by
  obtain ⟨y, m, d, hdate, hserial⟩ := exists_date (t.seconds / 86400 + 730425)
  refine ⟨⟨y, m, d, (t.seconds % 86400 / 3600).toNat, (t.seconds % 3600 / 60).toNat,
    (t.seconds % 60).toNat, t.nanoseconds⟩, ⟨hdate, ?_, ?_, ?_, h⟩, ?_⟩
  · simp only
    omega
  · simp only
    omega
  · simp only
    omega
  · have hseconds : t.seconds = (t.seconds / 86400 + 730425 - 730425) * 86400 +
        (t.seconds % 86400 / 3600).toNat * 3600 + (t.seconds % 3600 / 60).toNat * 60 +
        (t.seconds % 60).toNat := by omega
    simp only [Calendar.instant, secondsOf, hserial, secondsPerDay, epochSerial, ← hseconds]

def Calendar.next (c : Calendar) : Calendar :=
  if c.second < 59 then { c with second := c.second + 1 }
  else if c.minute < 59 then { c with minute := c.minute + 1, second := 0 }
  else if c.hour < 23 then { c with hour := c.hour + 1, minute := 0, second := 0 }
  else if c.day < monthLength c.year c.month then
    { c with day := c.day + 1, hour := 0, minute := 0, second := 0 }
  else if c.month < 12 then
    { c with month := c.month + 1, day := 1, hour := 0, minute := 0, second := 0 }
  else { c with year := c.year + 1, month := 1, day := 1, hour := 0, minute := 0, second := 0 }

lemma serial_next_month (h1 : 1 ≤ month) (h12 : month < 12) :
    serial year (month + 1) 1 = serial year month (monthLength year month) + 1 := by
  unfold serial
  by_cases hfeb : month = 2
  · subst hfeb
    have hstart := start_succ (year - 1)
    rw [sub_add_cancel] at hstart
    simp only [marchYear, Time.dayOfYear, monthPrime, monthLength]
    simp
    split_ifs at hstart ⊢ <;> omega
  · have hyear : marchYear year (month + 1) = marchYear year month := by
      simp only [marchYear]
      split_ifs <;> omega
    rw [hyear]
    generalize start (marchYear year month) = s
    simp only [Time.dayOfYear, monthPrime]
    interval_cases month <;> simp [monthLength] at hfeb ⊢ <;> omega

lemma serial_next_year (year : Int) : serial (year + 1) 1 1 = serial year 12 31 + 1 := by
  simp [serial, marchYear, Time.dayOfYear, monthPrime]
  omega

lemma gregorian_next (h : Gregorian c) : Gregorian c.next := by
  obtain ⟨⟨h1, h12, hday, hle⟩, hhour, hminute, hsecond, hnano⟩ := h
  have hpos (y m) : 1 ≤ monthLength y m := le_trans (by decide) (monthLength_bounds y m).1
  unfold Calendar.next
  split_ifs
  · exact ⟨⟨h1, h12, hday, hle⟩, hhour, hminute, by simp only; omega, hnano⟩
  · exact ⟨⟨h1, h12, hday, hle⟩, hhour, by simp only; omega, by simp, hnano⟩
  · exact ⟨⟨h1, h12, hday, hle⟩, by simp only; omega, by simp, by simp, hnano⟩
  · exact ⟨⟨h1, h12, by simp, by simp only; omega⟩, by simp, by simp, by simp, hnano⟩
  · exact ⟨⟨by simp, by simp only; omega, le_rfl, hpos _ _⟩, by simp, by simp, by simp, hnano⟩
  · exact ⟨⟨le_rfl, by simp, le_rfl, hpos _ _⟩, by simp, by simp, by simp, hnano⟩

lemma instant_next (h : Gregorian c) : c.next.instant = ⟨secondsOf c + 1, c.nanoseconds⟩ := by
  obtain ⟨⟨h1, h12, hday, hle⟩, hhour, hminute, hsecond, -⟩ := h
  have hserial : ∀ d : Nat, serial c.year c.month (d + 1) = serial c.year c.month d + 1 := by
    intro d
    simp only [serial, Time.dayOfYear]
    omega
  unfold Calendar.next
  split_ifs with hs hm hh hd hmo
  all_goals simp only [Calendar.instant, secondsOf, secondsPerDay, Instant.mk.injEq, and_true]
  · omega
  · omega
  · omega
  · rw [hserial]
    omega
  · have hlast : c.day = monthLength c.year c.month := by omega
    rw [serial_next_month h1 hmo, ← hlast]
    omega
  · have hmonth : c.month = 12 := by omega
    have hlast : c.day = 31 := by
      have : monthLength c.year 12 = 31 := rfl
      rw [hmonth] at hle hd
      omega
    rw [serial_next_year, hmonth, hlast]
    omega

lemma fromCalendar_invalid (h : ¬ Gregorian c) : fromCalendar c = some none := by
  rw [← calendarValid_iff, Bool.not_eq_true] at h
  rw [fromCalendar, if_pos h]

lemma toCalendar_cases (h : InI64 t.seconds) : toCalendar t = some none ∨
      ∃ c, Gregorian c ∧ InI32 c.year ∧ c.instant = t ∧ toCalendar t = some (some c) := by
  by_cases hnano : t.nanoseconds < 10 ^ 9
  · obtain ⟨c, hc, rfl⟩ := exists_calendar hnano
    have heq := toCalendar_eq hc h
    by_cases hy : InI32 c.year
    · rw [if_pos hy] at heq
      exact Or.inr ⟨c, hc, hy, rfl, heq⟩
    · rw [if_neg hy] at heq
      exact Or.inl heq
  · rw [toCalendar, if_pos (by omega)]
    exact Or.inl rfl

lemma toCalendar_some (h : InI64 t.seconds)
    (heq : toCalendar t = some (some c)) : Gregorian c ∧ InI32 c.year ∧ c.instant = t := by
  rcases toCalendar_cases h with hnone | ⟨d, hd, hy, ht, hsome⟩
  · rw [hnone] at heq
    cases heq
  · rw [hsome] at heq
    cases heq
    exact ⟨hd, hy, ht⟩

/-- The two conversions are inverse to each other and keep the order of time, seconds that
follow each other are dates that follow each other, what is no date is refused, and no
operation overflows. -/
theorem calendar_conversion :
    (∀ c, InI32 c.year → Gregorian c → ∃ t, fromCalendar c = some (some t) ∧ InI64 t.seconds ∧
      toCalendar t = some (some c)) ∧ (∀ c, ¬ Gregorian c → fromCalendar c = some none) ∧
    (∀ t c, InI64 t.seconds → toCalendar t = some (some c) →
      InI32 c.year ∧ Gregorian c ∧ fromCalendar c = some (some t)) ∧
    (∀ s t c d, InI64 s.seconds → InI64 t.seconds → toCalendar s = some (some c) →
      toCalendar t = some (some d) → (s.Before t ↔ Before c d)) ∧
    (∀ s t c d, InI64 s.seconds → InI64 t.seconds → toCalendar s = some (some c) →
      toCalendar t = some (some d) → t = ⟨s.seconds + 1, s.nanoseconds⟩ → d = c.next) ∧
    (∀ c, InI32 c.year → fromCalendar c ≠ none) ∧ (∀ t, InI64 t.seconds → toCalendar t ≠ none) := by
  refine ⟨fun c hy hc => ?_, fun c hc => fromCalendar_invalid hc, fun t c ht heq => ?_,
    fun s t c d hs ht hsc htd => ?_, fun s t c d hs ht hsc htd hnext => ?_, fun c hy => ?_,
    fun t ht => ?_⟩
  · obtain ⟨hfrom, hin⟩ := fromCalendar_eq hc hy
    exact ⟨c.instant, hfrom, hin, by rw [toCalendar_eq hc hin, if_pos hy]⟩
  · obtain ⟨hc, hy, rfl⟩ := toCalendar_some ht heq
    exact ⟨hy, hc, (fromCalendar_eq hc hy).1⟩
  · obtain ⟨hc, -, rfl⟩ := toCalendar_some hs hsc
    obtain ⟨hd, -, rfl⟩ := toCalendar_some ht htd
    exact instant_before_iff hc hd
  · obtain ⟨hc, -, rfl⟩ := toCalendar_some hs hsc
    obtain ⟨hd, -, rfl⟩ := toCalendar_some ht htd
    exact instant_inj hd (gregorian_next hc) (hnext.trans (instant_next hc).symm)
  · by_cases hc : Gregorian c
    · simp [(fromCalendar_eq hc hy).1]
    · simp [fromCalendar_invalid hc]
  · rcases toCalendar_cases ht with h | ⟨c, -, -, -, h⟩
    · simp [h]
    · simp [h]

/-- The last second of the year 2000, and the first of the year after. -/
theorem calendar_conversion_century :
    toCalendar ⟨31622399, 0⟩ = some (some ⟨2000, 12, 31, 23, 59, 59, 0⟩) ∧
    toCalendar ⟨31622400, 0⟩ = some (some (Calendar.next ⟨2000, 12, 31, 23, 59, 59, 0⟩)) := by
  have hlast : toCalendar ⟨31622399, 0⟩ = some (some ⟨2000, 12, 31, 23, 59, 59, 0⟩) := by decide
  have hfirst : toCalendar ⟨31622400, 0⟩ = some (some ⟨2001, 1, 1, 0, 0, 0, 0⟩) := by decide
  have hnext := calendar_conversion.2.2.2.2.1 _ _ _ _ (by decide) (by decide) hlast hfirst rfl
  exact ⟨hlast, by rw [← hnext, hfirst]⟩

/-- The registers of the clock, as they were read. -/
structure RtcSample where
  (seconds minutes hours day month year century statusB : UInt8)
  centuryValid : Bool

def rtcDecodeBcd (value : UInt8) : Option Nat :=
  let low := value.toNat % 16
  let high := value.toNat / 16
  if low > 9 ∨ high > 9 then none else some (high * 10 + low)

def rtcDecodeValue (value : UInt8) (binary : Bool) : Option Nat :=
  if binary then some value.toNat else rtcDecodeBcd value

def rtcDecodeSample (sample : RtcSample) : Option Calendar := do
  let binary := sample.statusB &&& 4 ≠ 0
  let twentyFourHour := sample.statusB &&& 2 ≠ 0
  let seconds ← rtcDecodeValue sample.seconds binary
  let minutes ← rtcDecodeValue sample.minutes binary
  let hours ← rtcDecodeValue (sample.hours &&& if twentyFourHour then 0xff else 0x7f) binary
  let day ← rtcDecodeValue sample.day binary
  let month ← rtcDecodeValue sample.month binary
  let year ← rtcDecodeValue sample.year binary
  let hours ← (if twentyFourHour then some hours
    else if hours < 1 ∨ hours > 12 then none
    else some ((if hours = 12 then 0 else hours) + if sample.hours &&& 0x80 ≠ 0 then 12 else 0))
  let fullYear ← (if sample.centuryValid then
      (rtcDecodeValue sample.century binary).map fun century => century * 100 + year
    else some ((if year < 70 then 2000 else 1900) + year))
  if fullYear < 1 ∨ month < 1 ∨ month > 12 ∨ day < 1 ∨ day > daysInMonth fullYear month ∨
    hours > 23 ∨ minutes > 59 ∨ seconds > 59 then none
  else some ⟨fullYear, month, day, hours, minutes, seconds, 0⟩

/-- The time the system's clock starts from, if it has one. -/
def timekeepingInit (sample : RtcSample) : Option Instant := do
  (← fromCalendar (← rtcDecodeSample sample))

lemma rtcDecodeValue_lt {value : UInt8} {binary : Bool} {n : Nat}
    (h : rtcDecodeValue value binary = some n) : n < 256 := by
  have := value.toNat_lt
  simp only [rtcDecodeValue, rtcDecodeBcd] at h
  split_ifs at h <;> simp only [Option.some.injEq] at h <;> omega

lemma rtcDecodeSample_some {sample : RtcSample} (h : rtcDecodeSample sample = some c) :
    Gregorian c ∧ InI32 c.year := by
  simp only [rtcDecodeSample, Option.bind_eq_bind, Option.bind_eq_some_iff] at h
  obtain ⟨_, -, _, -, _, -, _, -, _, -, year, hyear, _, -, fullYear, hfull, h⟩ := h
  have hlt : fullYear < 2 ^ 31 := by
    have := rtcDecodeValue_lt hyear
    split at hfull
    · obtain ⟨century, hcentury, rfl⟩ := Option.map_eq_some_iff.mp hfull
      have := rtcDecodeValue_lt hcentury
      omega
    · split at hfull <;> cases hfull <;> omega
  split at h
  · cases h
  · cases h
    refine ⟨calendarValid_iff.mp ?_, ?_⟩
    · simp only [calendarValid, Bool.and_eq_true, decide_eq_true_eq]
      omega
    · simp only [InI32]
      omega

/-- The clock starts exactly if the sample is accepted, and then at its date. -/
theorem timekeepingInit_date (sample : RtcSample) :
    match rtcDecodeSample sample with
    | none => timekeepingInit sample = none
    | some c => Gregorian c ∧ ∃ t, timekeepingInit sample = some t ∧
      toCalendar t = some (some c) := by
  split
  · next h => simp [timekeepingInit, h]
  · next c h =>
    obtain ⟨hc, hy⟩ := rtcDecodeSample_some h
    obtain ⟨hfrom, hin⟩ := fromCalendar_eq hc hy
    exact ⟨hc, c.instant, by simp [timekeepingInit, h, hfrom],
      by rw [toCalendar_eq hc hin, if_pos hy]⟩

example : rtcDecodeSample ⟨0, 0, 0x92, 1, 1, 0, 0x20, 0, true⟩ = some ⟨2000, 1, 1, 12, 0, 0, 0⟩ := rfl

end Mangrove.Time
