import Mathlib.Data.List.Basic
import Mathlib.Order.Basic
import Mathlib.Tactic.IntervalCases
import NestGateway.Core.GoTime

/-! # Time values of ECMAScript

The UTC fields of a `Date` and the time value `Date.UTC` makes of fields. A time
value is the distance from the epoch in milliseconds.
-/

namespace NestGateway.JsDate

def msPerSecond : Int := 1000

def msPerMinute : Int := 60000

def msPerHour : Int := 3600000

def msPerDay : Int := 86400000

/-- The largest distance from the epoch that a time value has. -/
def maxTime : Int := 8640000000000000

/-- `new Date(time)`, none for an invalid date. -/
def timeClip (time : Int) : Option Int :=
  if time < -maxTime ∨ maxTime < time then none else some time

def day (t : Int) : Int := t / msPerDay

def timeWithinDay (t : Int) : Int := t % msPerDay

def dayFromYear (y : Int) : Int :=
  365 * (y - 1970) + (y - 1969) / 4 - (y - 1901) / 100 + (y - 1601) / 400

/-- The days of a leap year more than 365. -/
def leapDays (y : Int) : Int := if GoTime.isLeap y then 1 else 0

/-- The year of a day: the one that a year of average length leads to, or a neighbour. -/
def yearOfDay (d : Int) : Int :=
  let y := 1970 + d * 400 / 146097
  if d < dayFromYear y then y - 1
  else if dayFromYear (y + 1) ≤ d then y + 1
  else y

/-- `getUTCFullYear` -/
def yearFromTime (t : Int) : Int := yearOfDay (day t)

def dayWithinYear (t : Int) : Int := day t - dayFromYear (yearFromTime t)

/-- The days of a year before its month, counted from 0. -/
def daysBefore (leap : Int) : Nat → Int
  | 0 => 0
  | 1 => 31
  | 2 => 59 + leap
  | 3 => 90 + leap
  | 4 => 120 + leap
  | 5 => 151 + leap
  | 6 => 181 + leap
  | 7 => 212 + leap
  | 8 => 243 + leap
  | 9 => 273 + leap
  | 10 => 304 + leap
  | 11 => 334 + leap
  | _ => 365 + leap

/-- The last month up to `m` that has begun by a day. -/
def monthUpTo (leap d : Int) : Nat → Nat
  | 0 => 0
  | m + 1 => if daysBefore leap (m + 1) ≤ d then m + 1 else monthUpTo leap d m

/-- `getUTCMonth` -/
def monthFromTime (t : Int) : Nat := monthUpTo (leapDays (yearFromTime t)) (dayWithinYear t) 11

/-- `getUTCDate` -/
def dateFromTime (t : Int) : Nat :=
  (dayWithinYear t - daysBefore (leapDays (yearFromTime t)) (monthFromTime t)).toNat + 1

/-- `getUTCHours` -/
def hourFromTime (t : Int) : Nat := (t / msPerHour % 24).toNat

/-- `getUTCMinutes` -/
def minFromTime (t : Int) : Nat := (t / msPerMinute % 60).toNat

/-- `getUTCSeconds` -/
def secFromTime (t : Int) : Nat := (t / msPerSecond % 60).toNat

/-- `getUTCMilliseconds` -/
def msFromTime (t : Int) : Nat := (t % msPerSecond).toNat

def makeTime (hour min sec ms : Int) : Int :=
  hour * msPerHour + min * msPerMinute + sec * msPerSecond + ms

/-- The number of a day; a month outside of the year counts on into other years. -/
def makeDay (year month date : Int) : Int :=
  let y := year + month / 12
  dayFromYear y + daysBefore (leapDays y) (month % 12).toNat + date - 1

def makeDate (day time : Int) : Int := day * msPerDay + time

/-- A year of two digits is one of the twentieth century. -/
def makeFullYear (year : Int) : Int := if 0 ≤ year ∧ year ≤ 99 then 1900 + year else year

/-- `Date.UTC`, none for `NaN`. -/
def utc (year month date hours minutes seconds ms : Int) : Option Int :=
  timeClip (makeDate (makeDay (makeFullYear year) month date) (makeTime hours minutes seconds ms))

/-! ## The fields of a time value -/

theorem dayFromYear_succ (y : Int) : dayFromYear (y + 1) = dayFromYear y + 365 + leapDays y := by
  have hleap : GoTime.isLeap y = true ↔ y % 4 = 0 ∧ (y % 100 ≠ 0 ∨ y % 400 = 0) := by
    simp [GoTime.isLeap]
  rw [dayFromYear, dayFromYear, leapDays]
  split
  next h =>
    rw [hleap] at h
    omega
  next h =>
    rw [hleap] at h
    omega

theorem dayFromYear_mono {y z : Int} (h : y ≤ z) : dayFromYear y ≤ dayFromYear z := by
  rw [dayFromYear, dayFromYear]
  omega

theorem leapDays_eq (y : Int) : leapDays y = 0 ∨ leapDays y = 1 := by
  rw [leapDays]
  split
  · exact Or.inr rfl
  · exact Or.inl rfl

theorem yearOfDay_spec (d : Int) :
    dayFromYear (yearOfDay d) ≤ d ∧ d < dayFromYear (yearOfDay d + 1) := by
  have hbelow : dayFromYear (1970 + d * 400 / 146097 - 1) ≤ d := by
    rw [dayFromYear]
    omega
  have habove : d < dayFromYear (1970 + d * 400 / 146097 + 2) := by
    rw [dayFromYear]
    omega
  rw [yearOfDay]
  split
  next h => exact ⟨hbelow, by rwa [Int.sub_add_cancel]⟩
  next hlow =>
    split
    next h => exact ⟨h, by rwa [Int.add_assoc]⟩
    next hhigh => exact ⟨not_lt.mp hlow, not_le.mp hhigh⟩

theorem dayWithinYear_spec (t : Int) :
    0 ≤ dayWithinYear t ∧ dayWithinYear t < 365 + leapDays (yearFromTime t) := by
  have hspec := yearOfDay_spec (day t)
  rw [dayFromYear_succ] at hspec
  rw [dayWithinYear, yearFromTime]
  omega

theorem monthUpTo_spec {leap d : Int} (hd : 0 ≤ d) {m : Nat} (hlt : d < daysBefore leap (m + 1)) :
    monthUpTo leap d m ≤ m ∧ daysBefore leap (monthUpTo leap d m) ≤ d ∧
      d < daysBefore leap (monthUpTo leap d m + 1) := by
  induction m with
  | zero => exact ⟨Nat.le_refl 0, hd, hlt⟩
  | succ m ih =>
      rw [monthUpTo]
      split
      next h => exact ⟨Nat.le_refl _, h, hlt⟩
      next h =>
        obtain ⟨hle, hspec⟩ := ih (not_le.mp h)
        exact ⟨Nat.le_succ_of_le hle, hspec⟩

theorem monthFromTime_spec (t : Int) :
    monthFromTime t ≤ 11 ∧
      daysBefore (leapDays (yearFromTime t)) (monthFromTime t) ≤ dayWithinYear t ∧
      dayWithinYear t < daysBefore (leapDays (yearFromTime t)) (monthFromTime t + 1) :=
  monthUpTo_spec (dayWithinYear_spec t).1 (dayWithinYear_spec t).2

theorem daysBefore_succ {leap : Int} (hleap : leap = 0 ∨ leap = 1) (m : Nat) :
    daysBefore leap m ≤ daysBefore leap (m + 1) ∧
      daysBefore leap (m + 1) ≤ daysBefore leap m + 31 := by
  rcases Nat.lt_or_ge m 12 with h | h
  · interval_cases m
    all_goals
      simp only [daysBefore]
      omega
  · obtain ⟨k, rfl⟩ := Nat.exists_eq_add_of_le' h
    simp only [daysBefore]
    omega

theorem dateFromTime_le (t : Int) : dateFromTime t ≤ 31 := by
  have hspec := monthFromTime_spec t
  have hmonth := daysBefore_succ (leapDays_eq (yearFromTime t)) (monthFromTime t)
  rw [dateFromTime]
  omega

theorem hourFromTime_lt (t : Int) : hourFromTime t < 24 := by
  rw [hourFromTime]
  omega

theorem minFromTime_lt (t : Int) : minFromTime t < 60 := by
  rw [minFromTime]
  omega

theorem secFromTime_lt (t : Int) : secFromTime t < 60 := by
  rw [secFromTime]
  omega

theorem msFromTime_lt (t : Int) : msFromTime t < 1000 := by
  rw [msFromTime, msPerSecond]
  omega

theorem makeDay_fields (t : Int) :
    makeDay (yearFromTime t) (monthFromTime t) (dateFromTime t) = day t := by
  have hspec := monthFromTime_spec t
  have hyear : (monthFromTime t : Int) / 12 = 0 := by omega
  have hmonth : ((monthFromTime t : Int) % 12).toNat = monthFromTime t := by omega
  rw [makeDay]
  rw [hyear, hmonth, Int.add_zero, dateFromTime]
  rw [dayWithinYear] at hspec ⊢
  omega

theorem makeTime_fields (t : Int) :
    makeTime (hourFromTime t) (minFromTime t) (secFromTime t) (msFromTime t) =
      timeWithinDay t := by
  simp only [makeTime, hourFromTime, minFromTime, secFromTime, msFromTime, timeWithinDay, msPerDay,
    msPerHour, msPerMinute, msPerSecond]
  omega

theorem makeDate_day (t : Int) : makeDate (day t) (timeWithinDay t) = t := by
  rw [makeDate, day, timeWithinDay]
  exact Int.ediv_mul_add_emod t msPerDay

/-- The fields of a time value make it again. -/
theorem utc_fields {t : Int} (hyear : 99 < yearFromTime t) (hlow : -maxTime ≤ t)
    (hhigh : t ≤ maxTime) :
    utc (yearFromTime t) (monthFromTime t) (dateFromTime t) (hourFromTime t) (minFromTime t)
      (secFromTime t) (msFromTime t) = some t := by
  rw [utc, makeFullYear, if_neg (by omega), makeDay_fields, makeTime_fields, makeDate_day, timeClip,
    if_neg (by omega)]

/-! ## From the fields of a calendar date to a time value and back -/

/-- The days of a month, counted from 0. -/
def daysInMonth (year : Int) (month : Nat) : Int :=
  daysBefore (leapDays year) (month + 1) - daysBefore (leapDays year) month

theorem daysBefore_mono {leap : Int} (hleap : leap = 0 ∨ leap = 1) {m n : Nat} (h : m ≤ n) :
    daysBefore leap m ≤ daysBefore leap n := by
  induction n, h using Nat.le_induction with
  | base => exact Int.le_refl _
  | succ n _ ih => exact Int.le_trans ih (daysBefore_succ hleap n).1

theorem yearOfDay_eq {d y : Int} (hbegin : dayFromYear y ≤ d) (hend : d < dayFromYear (y + 1)) :
    yearOfDay d = y := by
  have hspec := yearOfDay_spec d
  have hbelow : ¬ yearOfDay d + 1 ≤ y := by
    intro h
    have hmono := dayFromYear_mono h
    omega
  have habove : ¬ y + 1 ≤ yearOfDay d := by
    intro h
    have hmono := dayFromYear_mono h
    omega
  omega

theorem monthUpTo_eq {leap d : Int} (hleap : leap = 0 ∨ leap = 1) (hd : d < 365 + leap) {m : Nat}
    (hbegin : daysBefore leap m ≤ d) (hend : d < daysBefore leap (m + 1)) :
    monthUpTo leap d 11 = m := by
  have hpos : 0 ≤ d := Int.le_trans (daysBefore_mono hleap (Nat.zero_le m)) hbegin
  have hspec := monthUpTo_spec hpos (show d < daysBefore leap (11 + 1) from hd)
  have hbelow : ¬ monthUpTo leap d 11 + 1 ≤ m := by
    intro h
    have hmono := daysBefore_mono hleap h
    omega
  have habove : ¬ m + 1 ≤ monthUpTo leap d 11 := by
    intro h
    have hmono := daysBefore_mono hleap h
    omega
  omega

/-- The date of a time value is one of the calendar. -/
theorem dateFromTime_spec (t : Int) :
    1 ≤ dateFromTime t ∧
      (dateFromTime t : Int) ≤ daysInMonth (yearFromTime t) (monthFromTime t) := by
  have hspec := monthFromTime_spec t
  rw [dateFromTime, daysInMonth]
  omega

section Made

variable {year : Int} {month date hour min sec ms : Nat} (hmonth : month ≤ 11) (hdate : 1 ≤ date)
  (hlast : (date : Int) ≤ daysInMonth year month)
include hmonth hdate hlast

theorem makeDay_in_year :
    dayFromYear year ≤ makeDay year month date ∧
      makeDay year month date < dayFromYear (year + 1) := by
  have hleap := leapDays_eq year
  have hbefore := daysBefore_mono hleap (Nat.zero_le month)
  have hafter := daysBefore_mono hleap (show month + 1 ≤ 11 + 1 by omega)
  have hyear : (month : Int) / 12 = 0 := by omega
  have hsame : ((month : Int) % 12).toNat = month := by omega
  have hwhole : daysBefore (leapDays year) (11 + 1) = 365 + leapDays year := rfl
  have hnone : daysBefore (leapDays year) 0 = 0 := rfl
  rw [daysInMonth] at hlast
  rw [makeDay, hyear, hsame, Int.add_zero, dayFromYear_succ]
  omega

variable (hhour : hour < 24) (hmin : min < 60) (hsec : sec < 60) (hms : ms < 1000)
include hhour hmin hsec hms

omit hmonth hdate hlast in
theorem makeTime_in_day :
    0 ≤ makeTime hour min sec ms ∧ makeTime hour min sec ms < msPerDay := by
  simp only [makeTime, msPerHour, msPerMinute, msPerSecond, msPerDay]
  omega

omit hmonth hdate hlast in
theorem day_made (d : Int) : day (makeDate d (makeTime hour min sec ms)) = d := by
  have htime := makeTime_in_day hhour hmin hsec hms
  rw [msPerDay] at htime
  rw [makeDate, day, msPerDay]
  omega

omit hmonth hdate hlast in
theorem clock_made (d : Int) :
    hourFromTime (makeDate d (makeTime hour min sec ms)) = hour ∧
      minFromTime (makeDate d (makeTime hour min sec ms)) = min ∧
      secFromTime (makeDate d (makeTime hour min sec ms)) = sec ∧
      msFromTime (makeDate d (makeTime hour min sec ms)) = ms := by
  simp only [hourFromTime, minFromTime, secFromTime, msFromTime, makeDate, makeTime, msPerDay,
    msPerHour, msPerMinute, msPerSecond]
  omega

theorem date_made :
    yearFromTime (makeDate (makeDay year month date) (makeTime hour min sec ms)) = year ∧
      monthFromTime (makeDate (makeDay year month date) (makeTime hour min sec ms)) = month ∧
      dateFromTime (makeDate (makeDay year month date) (makeTime hour min sec ms)) = date := by
  have hday := day_made hhour hmin hsec hms (makeDay year month date)
  obtain ⟨hbegin, hend⟩ := makeDay_in_year hmonth hdate hlast
  generalize makeDate (makeDay year month date) (makeTime hour min sec ms) = t at hday ⊢
  have hyear : yearFromTime t = year := by
    rw [yearFromTime, hday]
    exact yearOfDay_eq hbegin hend
  have hzero : (month : Int) / 12 = 0 := by omega
  have hsame : ((month : Int) % 12).toNat = month := by omega
  have hwithin : dayWithinYear t = daysBefore (leapDays year) month + date - 1 := by
    rw [dayWithinYear, hday, hyear, makeDay, hzero, hsame, Int.add_zero]
    omega
  have hspec := dayWithinYear_spec t
  rw [daysInMonth] at hlast
  have hmonthOf : monthFromTime t = month := by
    rw [monthFromTime, hyear]
    rw [hyear] at hspec
    exact monthUpTo_eq (leapDays_eq year) hspec.2 (by omega) (by omega)
  refine ⟨hyear, hmonthOf, ?_⟩
  rw [dateFromTime, hyear, hmonthOf]
  omega

end Made

/-! ## The order of the fields -/

/-- The fields from the coarsest to the finest, the months counted from 1. -/
def fields (t : Int) : List Nat :=
  [(yearFromTime t).toNat, monthFromTime t + 1, dateFromTime t, hourFromTime t, minFromTime t,
    secFromTime t, msFromTime t]

theorem yearFromTime_mono {t u : Int} (h : t ≤ u) : yearFromTime t ≤ yearFromTime u := by
  by_contra hlt
  have hbegin := (yearOfDay_spec (day t)).1
  have hend := (yearOfDay_spec (day u)).2
  have hyears := dayFromYear_mono (show yearFromTime u + 1 ≤ yearFromTime t by omega)
  have hdays : day t ≤ day u := Int.ediv_le_ediv (by decide) h
  rw [yearFromTime, yearFromTime] at hyears
  omega

theorem monthFromTime_mono {t u : Int} (hyear : yearFromTime t = yearFromTime u) (h : t ≤ u) :
    monthFromTime t ≤ monthFromTime u := by
  by_contra hlt
  have hbegin := (monthFromTime_spec t).2.1
  have hend := (monthFromTime_spec u).2.2
  have hmonths := daysBefore_mono (leapDays_eq (yearFromTime u))
    (show monthFromTime u + 1 ≤ monthFromTime t by omega)
  have hdays : day t ≤ day u := Int.ediv_le_ediv (by decide) h
  rw [dayWithinYear] at hbegin hend
  rw [hyear] at hbegin
  omega

theorem day_of_dateFromTime {t u : Int} (hyear : yearFromTime t = yearFromTime u)
    (hmonth : monthFromTime t = monthFromTime u) :
    day u - day t = (dateFromTime u : Int) - dateFromTime t := by
  have ht := (monthFromTime_spec t).2.1
  have hu := (monthFromTime_spec u).2.1
  have hwithin : day u - day t = dayWithinYear u - dayWithinYear t := by
    rw [dayWithinYear, dayWithinYear, hyear]
    omega
  rw [hyear, hmonth] at ht
  rw [dateFromTime, dateFromTime, hyear, hmonth, hwithin]
  omega

theorem cons_lt_cons {a b : Nat} {as bs : List Nat} (hle : a ≤ b) (hrest : a = b → as < bs) :
    a :: as < b :: bs := by
  rcases Nat.lt_or_eq_of_le hle with h | h
  · exact List.Lex.rel h
  · rw [h]
    exact List.Lex.cons (hrest h)

theorem digit_mono {t u k n : Int} (hk : 0 < k) (hn : 0 < n) (hbefore : t / (k * n) = u / (k * n))
    (h : t ≤ u) :
    (t / k % n).toNat ≤ (u / k % n).toNat ∧
      ((t / k % n).toNat = (u / k % n).toNat → t / k = u / k) := by
  have hle : t / k ≤ u / k := Int.ediv_le_ediv hk h
  have ht := Int.emod_add_mul_ediv (t / k) n
  have hu := Int.emod_add_mul_ediv (u / k) n
  rw [Int.ediv_ediv_of_nonneg hk.le] at ht hu
  rw [hbefore] at ht
  have htpos := Int.emod_nonneg (t / k) hn.ne'
  have hupos := Int.emod_nonneg (u / k) hn.ne'
  generalize t / k % n = a at *
  generalize u / k % n = b at *
  omega

theorem clock_lt {t u : Int} (hday : day t = day u) (h : t < u) :
    [hourFromTime t, minFromTime t, secFromTime t, msFromTime t] <
      [hourFromTime u, minFromTime u, secFromTime u, msFromTime u] := by
  have hle := Int.le_of_lt h
  obtain ⟨hhours, hsameHour⟩ := digit_mono (show 0 < msPerHour by decide) (n := 24) (by decide)
    hday hle
  refine cons_lt_cons hhours fun hhour => ?_
  obtain ⟨hmins, hsameMin⟩ := digit_mono (show 0 < msPerMinute by decide) (n := 60) (by decide)
    (hsameHour hhour) hle
  refine cons_lt_cons hmins fun hmin => ?_
  obtain ⟨hsecs, hsameSec⟩ := digit_mono (show 0 < msPerSecond by decide) (n := 60) (by decide)
    (hsameMin hmin) hle
  refine cons_lt_cons hsecs fun hsec => List.Lex.rel ?_
  have hsecond := hsameSec hsec
  rw [msPerSecond] at hsecond
  rw [msFromTime, msFromTime, msPerSecond]
  omega

/-- Later time values have lexicographically greater fields. -/
theorem fields_lt {t u : Int} (hyear : 0 ≤ yearFromTime t) (h : t < u) : fields t < fields u := by
  have hyears := yearFromTime_mono (Int.le_of_lt h)
  refine cons_lt_cons (by omega) fun hsame => ?_
  have hsame : yearFromTime t = yearFromTime u := by omega
  have hmonths := monthFromTime_mono hsame (Int.le_of_lt h)
  refine cons_lt_cons (Nat.succ_le_succ hmonths) fun hmonth => ?_
  have hdays := day_of_dateFromTime hsame (Nat.succ.inj hmonth)
  have hday : day t ≤ day u := Int.ediv_le_ediv (by decide) (Int.le_of_lt h)
  refine cons_lt_cons (by omega) fun hdate => ?_
  exact clock_lt (by omega) h

end NestGateway.JsDate
