import NestGateway.Core.FixedWidth
import NestGateway.Core.JsDate

/-! # The day of the daily report

The script runs in the zone Asia/Seoul, steps back a day by the local fields of
a `Date`, and takes the date of the result from its UTC text. That text has the
day before in UTC, which is the day before in Korea from nine o'clock on and two
days before until then.
-/

namespace NestGateway.DailyReport

open JsDate FixedWidth GoTime

/-- How far the clocks of Asia/Seoul are ahead of UTC. -/
def seoulOffset : Int := 9 * msPerHour

def localTime (t : Int) : Int := t + seoulOffset

def getDate (t : Int) : Nat := dateFromTime (localTime t)

/-- `d.setDate(date)`, none for an invalid date. -/
def setDate (t date : Int) : Option Int :=
  let t' := localTime t
  let newDate := makeDate (makeDay (yearFromTime t') (monthFromTime t') date) (timeWithinDay t')
  timeClip (newDate - seoulOffset)

/-- A year outside of 0 to 9999 has a sign and six digits. -/
def yearChars (year : Int) : List Char :=
  if 0 ≤ year ∧ year ≤ 9999 then fixed 4 year.toNat
  else (if year < 0 then '-' else '+') :: fixed 6 year.natAbs

def toISOString (t : Int) : String :=
  String.ofList (yearChars (yearFromTime t) ++ '-' :: (fixed 2 (monthFromTime t + 1) ++
    '-' :: (fixed 2 (dateFromTime t) ++ 'T' :: (fixed 2 (hourFromTime t) ++
    ':' :: (fixed 2 (minFromTime t) ++ ':' :: (fixed 2 (secFromTime t) ++
    '.' :: (fixed 3 (msFromTime t) ++ ['Z'])))))))

/-- `text.slice(0, end)` of a text without surrogate pairs. -/
def sliceTo (text : String) (stop : Nat) : String := String.ofList (text.toList.take stop)

/-- The date of the report, none when `toISOString` throws for an invalid date. -/
def getYesterday (now : Int) : Option String :=
  (setDate now ((getDate now : Int) - 1)).map fun d => sliceTo (toISOString d) 10

def Names (text : String) (d : Int) : Prop :=
  ∃ date : CalendarDate, text = date.text ∧
    makeDay date.year ((date.month : Int) - 1) date.day = d

def HasText (d : Int) : Prop := 0 ≤ yearOfDay d ∧ yearOfDay d ≤ 9999

theorem text_injective {d e : CalendarDate} (h : d.text = e.text) :
    d.year = e.year ∧ d.month = e.month ∧ d.day = e.day := by
  have hchars : d.chars = e.chars := String.ofList_injective h
  have hd := parseFields_date d [] {} []
  have he := parseFields_date e [] {} []
  rw [hchars, he] at hd
  simp only [parseFields, Option.some.injEq, Fields.mk.injEq] at hd
  omega

theorem Names.unique {text : String} {d e : Int} (hd : Names text d) (he : Names text e) :
    d = e := by
  obtain ⟨date, hdate, rfl⟩ := hd
  obtain ⟨date', hdate', rfl⟩ := he
  obtain ⟨hyear, hmonth, hday⟩ := text_injective (hdate.symm.trans hdate')
  rw [hyear, hmonth, hday]

theorem daysIn_eq {month : Nat} (hmonth : month ≤ 11) (year : Int) :
    daysIn (month + 1) year = daysInMonth year month := by
  unfold daysIn daysInMonth leapDays
  cases isLeap year <;> interval_cases month <;> rfl

def dateOf (t : Int) (h : HasText (day t)) : CalendarDate where
  year := (yearFromTime t).toNat
  month := monthFromTime t + 1
  day := dateFromTime t
  year_lt := by
    unfold HasText at h
    unfold yearFromTime
    omega
  month_pos := Nat.succ_pos _
  month_le := Nat.succ_le_succ (monthFromTime_spec t).1
  day_pos := (dateFromTime_spec t).1
  day_le := by
    have hyear : ((yearFromTime t).toNat : Int) = yearFromTime t := Int.toNat_of_nonneg h.1
    rw [hyear, Nat.cast_succ, daysIn_eq (monthFromTime_spec t).1]
    exact (dateFromTime_spec t).2

theorem day_dateOf {t : Int} (h : HasText (day t)) :
    makeDay (dateOf t h).year (((dateOf t h).month : Int) - 1) (dateOf t h).day = day t := by
  have hyear : ((yearFromTime t).toNat : Int) = yearFromTime t := Int.toNat_of_nonneg h.1
  have hmonth : ((monthFromTime t + 1 : Nat) : Int) - 1 = monthFromTime t := by omega
  show makeDay ((yearFromTime t).toNat : Int) (((monthFromTime t + 1 : Nat) : Int) - 1) _ = _
  rw [hyear, hmonth]
  exact makeDay_fields t

theorem fixed_two {n : Nat} (h : n < 100) : fixed 2 n = twoDigits n := by
  have htens : n / 10 % 10 = n / 10 := by omega
  simp [fixed, twoDigits, htens]

theorem fixed_four {n : Nat} (h : n < 10000) : fixed 4 n = fourDigits n := by
  have h1 : n / 10 / 10 / 10 % 10 = n / 100 / 10 := by omega
  have h2 : n / 10 / 10 % 10 = n / 100 % 10 := by omega
  have h3 : n / 10 % 10 = n % 100 / 10 := by omega
  have h4 : n % 10 = n % 100 % 10 := by omega
  simp only [fixed, fourDigits, twoDigits, h1, h2, h3, List.nil_append, List.cons_append]
  rw [h4]

theorem slice_toISOString {t : Int} (h : HasText (day t)) :
    sliceTo (toISOString t) 10 = (dateOf t h).text := by
  have hmonth := (monthFromTime_spec t).1
  have hdate := dateFromTime_le t
  have hyear : (yearFromTime t).toNat < 10000 := (dateOf t h).year_lt
  have hyears : yearChars (yearFromTime t) = fixed 4 (yearFromTime t).toNat := if_pos h
  unfold sliceTo toISOString CalendarDate.text CalendarDate.chars
  rw [String.toList_ofList, hyears]
  show _ = String.ofList (fourDigits (yearFromTime t).toNat ++
    '-' :: (twoDigits (monthFromTime t + 1) ++ '-' :: twoDigits (dateFromTime t)))
  rw [fixed_four hyear, fixed_two (by omega : monthFromTime t + 1 < 100),
    fixed_two (by omega : dateFromTime t < 100)]
  rfl

theorem not_names_of_expanded {t : Int} (h : ¬ HasText (day t)) (d : Int) :
    ¬ Names (sliceTo (toISOString t) 10) d := by
  rintro ⟨date, hdate, _⟩
  have hyear := date.year_lt
  have hdigit : Text.isDigit (Nat.digitChar (date.year / 100 / 10)) = true :=
    isDigit_digitChar (by omega)
  have hyears : yearChars (yearFromTime t) = (if yearFromTime t < 0 then '-' else '+') ::
    fixed 6 (yearFromTime t).natAbs := if_neg h
  have hchars := String.ofList_injective hdate
  unfold toISOString at hchars
  rw [String.toList_ofList, hyears] at hchars
  have hhead := congrArg List.head? hchars
  split at hhead
  all_goals
    have hsign := Option.some.inj hhead
    rw [← hsign] at hdigit
    exact absurd hdigit (by decide)

theorem names_slice {t d : Int} :
    Names (sliceTo (toISOString t) 10) d ↔ HasText (day t) ∧ day t = d := by
  constructor
  · intro hnames
    by_cases h : HasText (day t)
    · exact ⟨h, Names.unique ⟨dateOf t h, slice_toISOString h, day_dateOf h⟩ hnames⟩
    · exact absurd hnames (not_names_of_expanded h d)
  · rintro ⟨h, rfl⟩
    exact ⟨dateOf t h, slice_toISOString h, day_dateOf h⟩

theorem setDate_previous (t : Int) :
    setDate t ((getDate t : Int) - 1) = timeClip (t - msPerDay) := by
  have hback : makeDay (yearFromTime (localTime t)) (monthFromTime (localTime t))
      ((getDate t : Int) - 1) = day (localTime t) - 1 := by
    rw [← makeDay_fields (localTime t)]
    unfold makeDay getDate
    dsimp only
    omega
  have hdate := makeDate_day (localTime t)
  unfold makeDate localTime at hdate
  unfold setDate makeDate
  dsimp only
  rw [hback]
  unfold localTime
  congr 1
  rw [msPerDay] at hdate ⊢
  omega

theorem day_previous (t : Int) : day (t - msPerDay) = day t - 1 := by
  unfold day msPerDay
  omega

theorem day_localTime (t : Int) :
    day (localTime t) = if hourFromTime (localTime t) < 9 then day t + 1 else day t := by
  unfold day hourFromTime localTime seoulOffset msPerDay msPerHour
  split <;> omega

theorem timeClip_of_hasText {t : Int} (h : HasText (day t)) : timeClip t = some t := by
  have hspec := yearOfDay_spec (day t)
  have hlow := dayFromYear_mono h.1
  have hhigh := dayFromYear_mono (show yearOfDay (day t) + 1 ≤ 10000 by unfold HasText at h; omega)
  have hfirst : dayFromYear 0 = -719528 := rfl
  have hlast : dayFromYear 10000 = 2932897 := rfl
  unfold timeClip
  rw [if_neg]
  unfold day msPerDay at *
  unfold maxTime
  omega

/-- The report names the day before in UTC, and no other day. -/
theorem getYesterday_names {now d : Int} :
    (∃ text, getYesterday now = some text ∧ Names text d) ↔
      HasText (day now - 1) ∧ day now - 1 = d := by
  unfold getYesterday
  rw [setDate_previous, ← day_previous]
  constructor
  · rintro ⟨text, htext, hnames⟩
    obtain ⟨t, ht, rfl⟩ := Option.map_eq_some_iff.mp htext
    unfold timeClip at ht
    split at ht
    · cases ht
    · obtain rfl := Option.some.inj ht
      exact names_slice.mp hnames
  · rintro ⟨h, hd⟩
    refine ⟨_, ?_, names_slice.mpr ⟨h, hd⟩⟩
    rw [timeClip_of_hasText h]
    rfl

/-- The report is about the day before in Seoul exactly when it is nine or later there. -/
theorem getYesterday_exact_iff (now : Int) :
    (∃ text, getYesterday now = some text ∧ Names text (day (localTime now) - 1)) ↔
      9 ≤ hourFromTime (localTime now) ∧ HasText (day (localTime now) - 1) := by
  rw [getYesterday_names, day_localTime]
  split
  next hearly =>
    constructor
    · rintro ⟨_, hd⟩
      omega
    · rintro ⟨hhour, _⟩
      omega
  next hlate =>
    constructor
    · rintro ⟨h, _⟩
      exact ⟨not_lt.mp hlate, h⟩
    · rintro ⟨_, h⟩
      exact ⟨h, rfl⟩

/-- The run at eight o'clock on 2 March 2026, 23:00 in UTC, reports on 28 February. -/
theorem getYesterday_scheduled :
    utc 2026 2 1 23 0 0 0 = some 1772406000000 ∧
      getYesterday 1772406000000 = some "2026-02-28" ∧
      ¬ ∃ text, getYesterday 1772406000000 = some text ∧
        Names text (day (localTime 1772406000000) - 1) := by
  refine ⟨by decide, by decide, ?_⟩
  rw [getYesterday_names]
  rintro ⟨_, hday⟩
  exact absurd hday (by decide)

end NestGateway.DailyReport
