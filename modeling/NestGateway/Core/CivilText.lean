import NestGateway.Core.GoTime

/-! # Dates and clocks as text

The dates of the calendar and the clock times of a day, to the minute or to the
second, with their written forms and what a layout reads from them.
-/

namespace NestGateway.GoTime

open Text

structure CalendarDate where
  year : Nat
  month : Nat
  day : Nat
  year_lt : year < 10000
  month_pos : 0 < month
  month_le : month ≤ 12
  day_pos : 0 < day
  day_le : (day : Int) ≤ daysIn month year

/-- A clock time, to the minute when it has no second. -/
structure Clock where
  hour : Nat
  minute : Nat
  second : Option Nat
  hour_lt : hour < 24
  minute_lt : minute < 60
  second_lt : ∀ s ∈ second, s < 60

def twoDigits (n : Nat) : List Char := [Nat.digitChar (n / 10), Nat.digitChar (n % 10)]

def fourDigits (n : Nat) : List Char := twoDigits (n / 100) ++ twoDigits (n % 100)

def CalendarDate.chars (d : CalendarDate) : List Char :=
  fourDigits d.year ++ '-' :: (twoDigits d.month ++ '-' :: twoDigits d.day)

/-- `YYYY-MM-DD` -/
def CalendarDate.text (d : CalendarDate) : String := String.ofList d.chars

def minuteChars (hour minute : Nat) : List Char := twoDigits hour ++ ':' :: twoDigits minute

def secondChars (hour minute second : Nat) : List Char :=
  minuteChars hour minute ++ ':' :: twoDigits second

def Clock.chars (c : Clock) : List Char :=
  match c.second with
  | none => minuteChars c.hour c.minute
  | some s => secondChars c.hour c.minute s

/-- `HH:mm` or `HH:mm:ss` -/
def Clock.text (c : Clock) : String := String.ofList c.chars

@[simp] theorem isDigit_digitChar {n : Nat} (h : n < 10) : isDigit (Nat.digitChar n) = true := by
  have hall : ∀ n < 10, isDigit (Nat.digitChar n) = true := by decide
  exact hall n h

@[simp] theorem digitValue_digitChar {n : Nat} (h : n < 10) :
    digitValue (Nat.digitChar n) = n := by
  have hall : ∀ n < 10, digitValue (Nat.digitChar n) = n := by decide
  exact hall n h

theorem isSpace_digitChar {n : Nat} (h : n < 10) : isSpace (Nat.digitChar n) = false := by
  have hall : ∀ n < 10, isSpace (Nat.digitChar n) = false := by decide
  exact hall n h

theorem utf8Size_digitChar {n : Nat} (h : n < 10) : (Nat.digitChar n).utf8Size = 1 := by
  have hall : ∀ n < 10, (Nat.digitChar n).utf8Size = 1 := by decide
  exact hall n h

theorem getnum_twoDigits (fixed : Bool) {n : Nat} (h : n < 100) (rest : List Char) :
    getnum fixed (twoDigits n ++ rest) = some ((n : Int), rest) := by
  have htens : n / 10 < 10 := by omega
  have hunits : n % 10 < 10 := by omega
  rw [twoDigits, List.cons_append, List.cons_append, List.nil_append, getnum,
    isDigit_digitChar htens, isDigit_digitChar hunits, digitValue_digitChar htens,
    digitValue_digitChar hunits]
  simp only [Bool.not_true, Bool.false_eq_true, if_false, if_true]
  congr 2
  omega

theorem ofDigitChars_fourDigits {n : Nat} (h : n < 10000) :
    Nat.ofDigitChars 10 (fourDigits n) 0 = n := by
  rw [fourDigits, twoDigits, twoDigits, List.cons_append, List.cons_append, List.nil_append,
    Nat.ofDigitChars_cons_digitChar_of_lt_ten (by omega),
    Nat.ofDigitChars_cons_digitChar_of_lt_ten (by omega),
    Nat.ofDigitChars_cons_digitChar_of_lt_ten (by omega),
    Nat.ofDigitChars_cons_digitChar_of_lt_ten (by omega), Nat.ofDigitChars_nil]
  omega

theorem all_isDigit_fourDigits {n : Nat} (h : n < 10000) : (fourDigits n).all isDigit = true := by
  have h1 : n / 100 / 10 < 10 := by omega
  have h2 : n / 100 % 10 < 10 := by omega
  have h3 : n % 100 / 10 < 10 := by omega
  have h4 : n % 100 % 10 < 10 := by omega
  simp only [fourDigits, twoDigits, List.cons_append, List.nil_append, List.all_cons, List.all_nil,
    isDigit_digitChar h1, isDigit_digitChar h2, isDigit_digitChar h3, isDigit_digitChar h4,
    Bool.and_self]

theorem trimSpace_date (d : CalendarDate) : trimSpace d.text = d.text := by
  have hyear := d.year_lt
  refine trimSpace_eq_self ?_ ?_
  · intro c hc
    cases hc
    exact isSpace_digitChar (by omega)
  · intro c hc
    cases hc
    exact isSpace_digitChar (by omega)

theorem date_ne_empty (d : CalendarDate) : d.text ≠ "" := by
  intro h
  have hchars : d.chars = [] := by
    rw [← String.toList_ofList (l := d.chars), ← CalendarDate.text, h]
    rfl
  cases hchars

theorem clock_ne_empty (c : Clock) : c.text ≠ "" := by
  intro h
  have hchars : c.chars = [] := by
    rw [← String.toList_ofList (l := c.chars), ← Clock.text, h]
    rfl
  rw [Clock.chars] at hchars
  split at hchars <;> cases hchars

theorem trimSpace_clock (c : Clock) : trimSpace c.text = c.text := by
  have hhour := c.hour_lt
  refine trimSpace_eq_self ?_ ?_
  · intro x hx
    have hhead : c.chars.head? = some (Nat.digitChar (c.hour / 10)) := by
      rw [Clock.chars]
      split <;> rfl
    rw [hhead] at hx
    cases hx
    exact isSpace_digitChar (by omega)
  · intro x hx
    rw [Clock.chars] at hx
    split at hx
    all_goals
      cases hx
      exact isSpace_digitChar (by omega)

theorem byteLen_twoDigits {n : Nat} (h : n < 100) (cs : List Char) :
    byteLen (String.ofList (twoDigits n ++ cs)) = 2 + byteLen (String.ofList cs) := by
  rw [twoDigits, List.cons_append, List.cons_append, List.nil_append, byteLen_cons, byteLen_cons,
    utf8Size_digitChar (by omega), utf8Size_digitChar (by omega)]
  omega

theorem byteLen_minuteChars {hour minute : Nat} (hhour : hour < 24) (hminute : minute < 60)
    (cs : List Char) :
    byteLen (String.ofList (minuteChars hour minute ++ cs)) = 5 + byteLen (String.ofList cs) := by
  have hcolon : (':').utf8Size = 1 := by decide
  rw [minuteChars, List.append_assoc, byteLen_twoDigits (by omega), List.cons_append, byteLen_cons,
    byteLen_twoDigits (by omega), hcolon]
  omega

/-! ## Reading the written forms -/

theorem parseFields_cons {chunk : Chunk} {f g : Fields} {value rest : List Char}
    {later : List Chunk} (h : parseChunk later f value chunk = some (g, rest)) :
    parseFields (chunk :: later) f value = parseFields later g rest := by
  rw [parseFields, h]

theorem parseChunk_lit {later : List Chunk} {f : Fields} {c : Char} (hc : c ≠ ' ')
    (rest : List Char) : parseChunk later f (c :: rest) (.lit c) = some (f, rest) := by
  rw [parseChunk.eq_def]
  split
  · next h => cases h; exact absurd rfl hc
  all_goals simp_all

theorem parseChunk_longYear {later : List Chunk} {f : Fields} {n : Nat} (h : n < 10000)
    (rest : List Char) :
    parseChunk later f (fourDigits n ++ rest) .longYear =
      some ({ f with year := (n : Int) }, rest) := by
  have hlen : (fourDigits n).length = 4 := rfl
  have htake : (fourDigits n ++ rest).take 4 = fourDigits n := List.take_left' hlen
  have hdrop : (fourDigits n ++ rest).drop 4 = rest := List.drop_left' hlen
  rw [parseChunk.eq_def]
  dsimp only
  rw [htake, hdrop, hlen, all_isDigit_fourDigits h, ofDigitChars_fourDigits h]
  rfl

theorem parseChunk_zeroMonth {later : List Chunk} {f : Fields} {n : Nat} (hpos : 0 < n)
    (hle : n ≤ 12) (rest : List Char) :
    parseChunk later f (twoDigits n ++ rest) .zeroMonth =
      some ({ f with month := (n : Int) }, rest) := by
  rw [parseChunk.eq_def]
  simp [getnum_twoDigits true (show n < 100 by omega)]
  omega

theorem parseChunk_zeroDay {later : List Chunk} {f : Fields} {n : Nat} (h : n < 100)
    (rest : List Char) :
    parseChunk later f (twoDigits n ++ rest) .zeroDay =
      some ({ f with day := (n : Int) }, rest) := by
  rw [parseChunk.eq_def]
  simp [getnum_twoDigits true h]

theorem parseChunk_hour {later : List Chunk} {f : Fields} {n : Nat} (h : n < 24)
    (rest : List Char) :
    parseChunk later f (twoDigits n ++ rest) .hour =
      some ({ f with hour := (n : Int) }, rest) := by
  rw [parseChunk.eq_def]
  simp [getnum_twoDigits false (show n < 100 by omega)]
  omega

theorem parseChunk_zeroMinute {later : List Chunk} {f : Fields} {n : Nat} (h : n < 60)
    (rest : List Char) :
    parseChunk later f (twoDigits n ++ rest) .zeroMinute =
      some ({ f with minute := (n : Int) }, rest) := by
  rw [parseChunk.eq_def]
  simp [getnum_twoDigits true (show n < 100 by omega)]
  omega

theorem parseChunk_zeroSecond {later : List Chunk} (hlater : startsWithFraction later = true)
    {f : Fields} {n : Nat} (h : n < 60) (rest : List Char) :
    parseChunk later f (twoDigits n ++ rest) .zeroSecond =
      some ({ f with second := (n : Int) }, rest) := by
  rw [parseChunk.eq_def]
  simp [getnum_twoDigits true (show n < 100 by omega), hlater]
  omega

theorem daysIn_le (month year : Int) : daysIn month year ≤ 31 := by
  rw [daysIn]
  split
  · split <;> omega
  · split <;> omega

theorem parseFields_date (d : CalendarDate) (later : List Chunk) (f : Fields) (rest : List Char) :
    parseFields (dateLayout ++ later) f (d.chars ++ rest) =
      parseFields later { f with year := d.year, month := d.month, day := d.day } rest := by
  have hday : d.day < 100 := by
    have := d.day_le
    have := daysIn_le d.month d.year
    omega
  have hdash : ('-' : Char) ≠ ' ' := by decide
  simp only [CalendarDate.chars, dateLayout, List.cons_append, List.append_assoc, List.nil_append]
  rw [parseFields_cons (parseChunk_longYear d.year_lt _), parseFields_cons (parseChunk_lit hdash _),
    parseFields_cons (parseChunk_zeroMonth d.month_pos d.month_le _),
    parseFields_cons (parseChunk_lit hdash _), parseFields_cons (parseChunk_zeroDay hday _)]

theorem parseFields_clock {hour minute second : Nat} (hhour : hour < 24) (hminute : minute < 60)
    (hsecond : second < 60) {later : List Chunk} (hlater : startsWithFraction later = true)
    (f : Fields) (rest : List Char) :
    parseFields (clockLayout ++ later) f (secondChars hour minute second ++ rest) =
      parseFields later { f with hour := hour, minute := minute, second := second } rest := by
  have hcolon : (':' : Char) ≠ ' ' := by decide
  simp only [secondChars, minuteChars, clockLayout, List.cons_append, List.append_assoc,
    List.nil_append]
  rw [parseFields_cons (parseChunk_hour hhour _), parseFields_cons (parseChunk_lit hcolon _),
    parseFields_cons (parseChunk_zeroMinute hminute _), parseFields_cons (parseChunk_lit hcolon _),
    parseFields_cons (parseChunk_zeroSecond hlater hsecond _)]

/-- One blank of the layout takes one blank before a digit. -/
theorem parseFields_blank {n : Nat} (h : n < 100) (later : List Chunk) (f : Fields)
    (rest : List Char) :
    parseFields (.lit ' ' :: later) f (' ' :: (twoDigits n ++ rest)) =
      parseFields later f (twoDigits n ++ rest) := by
  have hdigit : (Nat.digitChar (n / 10) == ' ') = false := by
    have hall : ∀ n < 10, (Nat.digitChar n == ' ') = false := by decide
    exact hall (n / 10) (by omega)
  have hchunk : parseChunk later f (' ' :: (twoDigits n ++ rest)) (.lit ' ') =
      some (f, twoDigits n ++ rest) := by
    rw [parseChunk.eq_def]
    simp [twoDigits, hdigit]
  rw [parseFields_cons hchunk]

/-- A date, a blank, a clock to the second and a fraction of three digits. -/
def millisLayout : List Chunk := dateLayout ++ [.lit ' '] ++ clockLayout ++ [.fracSecond0 3]

theorem parseFields_millisLayout (d : CalendarDate) {hour minute second : Nat} (hhour : hour < 24)
    (hminute : minute < 60) (hsecond : second < 60) (millis : List Char) :
    parseFields millisLayout {}
        (d.chars ++ ' ' :: (secondChars hour minute second ++ millis)) =
      parseFields [.fracSecond0 3]
        { year := d.year, month := d.month, day := d.day, hour, minute, second } millis := by
  have hlayout : millisLayout = dateLayout ++ .lit ' ' :: (clockLayout ++ [.fracSecond0 3]) := rfl
  have hclock : secondChars hour minute second ++ millis =
      twoDigits hour ++ (':' :: twoDigits minute ++ ':' :: twoDigits second ++ millis) := by
    simp only [secondChars, minuteChars, List.append_assoc]
  rw [hlayout, parseFields_date, hclock, parseFields_blank (by omega), ← hclock,
    parseFields_clock hhour hminute hsecond rfl]

/-- The instant that a date and a complete clock denote in the local zone. -/
theorem parseInLocation_millis (rt : Runtime) (d : CalendarDate) {hour minute second : Nat}
    (hhour : hour < 24) (hminute : minute < 60) (hsecond : second < 60) {millis : String}
    {nsec : Int} (hmillis : ∀ f : Fields, parseFields [.fracSecond0 3] f millis.toList =
      some { f with nsec }) :
    parseInLocation rt millisLayout
        (d.text ++ " " ++ String.ofList (secondChars hour minute second ++ millis.toList)) =
      some (rt.unixOfLocal (civilSeconds
        { year := d.year, month := d.month, day := d.day, hour, minute, second }) * 1000000000 +
          nsec) := by
  have hchars : (d.text ++ " " ++ String.ofList
      (secondChars hour minute second ++ millis.toList)).toList =
      d.chars ++ ' ' :: (secondChars hour minute second ++ millis.toList) := by
    simp [CalendarDate.text]
  have hday : ¬ ((d.day : Int) < 1) := by
    have := d.day_pos
    omega
  have hdays : ¬ (daysIn d.month d.year < (d.day : Int)) := not_lt.mpr d.day_le
  rw [parseInLocation, hchars, parseFields_millisLayout d hhour hminute hsecond, hmillis]
  simp only [hday, hdays, decide_false, Bool.or_self, Bool.false_eq_true, if_false]
  rfl

end NestGateway.GoTime
