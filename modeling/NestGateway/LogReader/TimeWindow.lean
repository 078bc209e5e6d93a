import NestGateway.Core.CivilText
import NestGateway.LogReader.Filter

/-! # The window of clock times

A clock bound names a minute or a second of a date. The lower bound is the
first instant of it. The upper bound is the first instant of its last
millisecond, so what falls later in that millisecond is left out.
-/

namespace NestGateway.LogReader

open Text GoTime

section Runtime

variable (rt : Runtime) (d : CalendarDate) (c : Clock)

def localSecond (hour minute second : Nat) : Int :=
  rt.unixOfLocal (civilSeconds
    { year := d.year, month := d.month, day := d.day, hour, minute, second })

/-- The first instant of the minute or the second that a clock denotes on a date. -/
def unitStart : Instant :=
  localSecond rt d c.hour c.minute (c.second.getD 0) * 1000000000

/-- The end of the minute or the second: the end of its last second. -/
def unitEnd : Instant :=
  (localSecond rt d c.hour c.minute (c.second.getD 59) + 1) * 1000000000

/-- The fraction that completes a clock. -/
def boundMillis (atEnd : Bool) : String := if atEnd then ".999" else ".000"

def boundNanoseconds (atEnd : Bool) : Int := if atEnd then 999000000 else 0

/-- The second that completes a clock without one. -/
def boundSecond (atEnd : Bool) : Nat := if atEnd then 59 else 0

theorem completeClock_text (atEnd : Bool) :
    completeClock c.text atEnd = String.ofList
      (secondChars c.hour c.minute (c.second.getD (boundSecond atEnd)) ++
        (boundMillis atEnd).toList) := by
  have hlen := byteLen_minuteChars c.hour_lt c.minute_lt
  rw [completeClock, trimSpace_clock]
  cases hsecond : c.second with
  | none =>
      have htext : c.text = String.ofList (minuteChars c.hour c.minute) := by
        rw [Clock.text, Clock.chars, hsecond]
      have hfive : byteLen c.text = byteLen "15:04" := by
        rw [htext, ← List.append_nil (minuteChars c.hour c.minute), hlen]
        rfl
      rw [if_neg (clock_ne_empty c), if_pos hfive, htext, secondChars, List.append_assoc,
        String.ofList_append]
      cases atEnd with
      | true => rfl
      | false => rfl
  | some s =>
      have hs : s < 60 := c.second_lt s hsecond
      have htext : c.text = String.ofList (secondChars c.hour c.minute s) := by
        rw [Clock.text, Clock.chars, hsecond]
      have height : byteLen c.text = byteLen "15:04:05" := by
        have hcolon : (':').utf8Size = 1 := by decide
        rw [htext, secondChars, hlen, byteLen_cons, hcolon,
          ← List.append_nil (twoDigits s), byteLen_twoDigits (by omega)]
        rfl
      have hfive : byteLen c.text ≠ byteLen "15:04" := by
        rw [height]
        decide
      rw [if_neg (clock_ne_empty c), if_neg hfive, if_pos height, htext, Option.getD_some,
        String.ofList_append]
      cases atEnd with
      | true => rfl
      | false => rfl

/-- A complete clock of a date denotes its second, and the nanoseconds of the fraction. -/
theorem parseFirst_bound {hour minute second : Nat} (hhour : hour < 24) (hminute : minute < 60)
    (hsecond : second < 60) (atEnd : Bool) :
    parseFirst rt timeBoundLayouts (d.text ++ " " ++ String.ofList
      (secondChars hour minute second ++ (boundMillis atEnd).toList)) =
      some (localSecond rt d hour minute second * 1000000000 + boundNanoseconds atEnd) := by
  have hmillis (f : Fields) : parseFields [.fracSecond0 3] f (boundMillis atEnd).toList =
      some { f with nsec := boundNanoseconds atEnd } := by
    cases atEnd <;> rfl
  have hfirst := parseInLocation_millis rt d hhour hminute hsecond hmillis
  rw [millisLayout] at hfirst
  rw [parseFirst, timeBoundLayouts, List.findSome?_cons, hfirst]
  rfl

theorem parseTimeBound_text (atEnd : Bool) :
    parseTimeBound rt d.text c.text atEnd =
      some (localSecond rt d c.hour c.minute (c.second.getD (boundSecond atEnd)) * 1000000000 +
        boundNanoseconds atEnd) := by
  have hsecond : c.second.getD (boundSecond atEnd) < 60 := by
    cases hs : c.second with
    | none => cases atEnd <;> decide
    | some s => exact c.second_lt s hs
  rw [parseTimeBound, trimSpace_date, if_neg (date_ne_empty d), completeClock_text,
    parseFirst_bound rt d c.hour_lt c.minute_lt hsecond]

theorem lowerBound_eq : parseTimeBound rt d.text c.text false = some (unitStart rt d c) := by
  rw [parseTimeBound_text]
  exact congrArg some (Int.add_zero _)

theorem upperBound_eq :
    parseTimeBound rt d.text c.text true = some (unitEnd rt d c - 1000000) := by
  rw [parseTimeBound_text, unitEnd]
  have hnanos : boundNanoseconds true = 1 * 1000000000 - 1000000 := rfl
  rw [hnanos, Int.add_mul, Int.add_sub_assoc]
  rfl

/-- A search up to a clock of a date. -/
def SearchParams.upTo (params : SearchParams) : SearchParams :=
  { params with fromDate := "", fromTime := "", toDate := d.text, toTime := c.text }

/-- A search from a clock of a date on. -/
def SearchParams.since (params : SearchParams) : SearchParams :=
  { params with fromDate := d.text, fromTime := c.text, toDate := "", toTime := "" }

theorem parseTimeBound_empty (clock : String) (atEnd : Bool) :
    parseTimeBound rt "" clock atEnd = none := rfl

variable {timestamp : String} {t : Instant} (ht : parseLogTimestamp rt timestamp = some t)
include ht

theorem timestamp_ne_empty : timestamp ≠ "" := by
  rintro rfl
  cases ht

/-- The window accepts what is not before its lower and not after its upper bound. -/
theorem matchTimeRange_parsed {params : SearchParams} (hfilter : hasTimeFilter params = true) :
    matchTimeRange rt timestamp params = true ↔
      (∀ lower ∈ parseTimeBound rt params.fromDate params.fromTime false, lower ≤ t) ∧
        ∀ upper ∈ parseTimeBound rt params.toDate params.toTime true, t ≤ upper := by
  rw [matchTimeRange, hfilter, Bool.not_true, if_neg Bool.false_ne_true,
    if_neg (timestamp_ne_empty rt ht), ht]
  dsimp only
  rw [Bool.and_eq_true]
  refine and_congr ?_ ?_
  · cases parseTimeBound rt params.fromDate params.fromTime false with
    | none => simp
    | some lower => simp
  · cases parseTimeBound rt params.toDate params.toTime true with
    | none => simp
    | some upper => simp

theorem matchTimeRange_upTo (params : SearchParams) :
    matchTimeRange rt timestamp (params.upTo d c) = true ↔ t ≤ unitEnd rt d c - 1000000 := by
  have hfilter : hasTimeFilter (params.upTo d c) = true := by
    simp [hasTimeFilter, SearchParams.upTo, trimSpace_clock, clock_ne_empty]
  rw [matchTimeRange_parsed rt ht hfilter]
  simp [SearchParams.upTo, parseTimeBound_empty, upperBound_eq]

theorem matchTimeRange_since (params : SearchParams) :
    matchTimeRange rt timestamp (params.since d c) = true ↔ unitStart rt d c ≤ t := by
  have hfilter : hasTimeFilter (params.since d c) = true := by
    simp [hasTimeFilter, SearchParams.since, trimSpace_clock, clock_ne_empty]
  rw [matchTimeRange_parsed rt ht hfilter]
  simp [SearchParams.since, parseTimeBound_empty, lowerBound_eq]

/-- The window covers whole minutes and seconds, but for the instants after the beginning of
their last millisecond. -/
theorem window_covers_unit_iff (params : SearchParams) :
    ((matchTimeRange rt timestamp (params.upTo d c) = true ↔ t < unitEnd rt d c) ∧
        (matchTimeRange rt timestamp (params.since d c) = true ↔ unitStart rt d c ≤ t)) ↔
      ¬ (unitEnd rt d c - 1000000 < t ∧ t < unitEnd rt d c) := by
  have hlast (t bound : Int) :
      ((t ≤ bound - 1000000 ↔ t < bound) ↔ ¬ (bound - 1000000 < t ∧ t < bound)) := by
    omega
  rw [matchTimeRange_upTo rt d c ht, matchTimeRange_since rt d c ht, hlast]
  exact and_iff_left Iff.rfl

end Runtime

def sampleDate : CalendarDate where
  year := 2024
  month := 1
  day := 15
  year_lt := by decide
  month_pos := by decide
  month_le := by decide
  day_pos := by decide
  day_le := by decide

def sampleClock : Clock where
  hour := 10
  minute := 2
  second := none
  hour_lt := by decide
  minute_lt := by decide
  second_lt := by simp

/-- Half a millisecond before the end of the minute is left out. -/
theorem window_last_millisecond :
    parseLogTimestamp Runtime.ascii "2024-01-15 10:02:59.9995" = some 1705312979999500000 ∧
      1705312979999500000 < unitEnd Runtime.ascii sampleDate sampleClock ∧
      matchTimeRange Runtime.ascii "2024-01-15 10:02:59.9995"
        (SearchParams.upTo sampleDate sampleClock { app := "app" }) = false := by
  decide

theorem window_covers_unit_iff_sample :
    matchTimeRange Runtime.ascii "2024-01-15 10:02:59.999"
        (SearchParams.upTo sampleDate sampleClock { app := "app" }) = true := by
  have ht : parseLogTimestamp Runtime.ascii "2024-01-15 10:02:59.999" =
      some 1705312979999000000 := by decide
  have hcovers := (window_covers_unit_iff Runtime.ascii sampleDate sampleClock ht
    { app := "app" }).mpr (by decide)
  exact hcovers.1.mpr (by decide)

end NestGateway.LogReader
