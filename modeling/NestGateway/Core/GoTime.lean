import Mathlib.Algebra.Ring.Int.Defs
import Mathlib.Algebra.Ring.Nat
import NestGateway.Core.Text

/-! # Parsing times

`time.ParseInLocation` for layouts made of the usual numeric elements. A layout
is the list of its elements; an instant is its distance from the Unix epoch in
nanoseconds. The zone rules of the local location are the runtime's.
-/

namespace NestGateway.GoTime

open Text

/-- A character of a layout or, in this order, `2006`, `01`, `02`, `15`, `04`, `05`, `.000` or
`,000` with so many digits, `.999999999` and `Z07:00`. -/
inductive Chunk where
  | lit (c : Char)
  | longYear
  | zeroMonth
  | zeroDay
  | hour
  | zeroMinute
  | zeroSecond
  | fracSecond0 (digits : Nat)
  | fracSecond9
  | iso8601ColonTZ
  deriving Repr, DecidableEq

structure Fields where
  year : Int := 0
  month : Int := 1
  day : Int := 1
  hour : Int := 0
  minute : Int := 0
  second : Int := 0
  nsec : Int := 0
  /-- The written offset in seconds; none for the default location. -/
  zoneOffset : Option Int := none
  deriving Repr, DecidableEq

/-- Parse one or two digits, exactly two when `fixed`. -/
def getnum (fixed : Bool) : List Char → Option (Int × List Char)
  | [] => none
  | [c] => if isDigit c && !fixed then some (digitValue c, []) else none
  | c :: d :: rest =>
      if !isDigit c then none
      else if isDigit d then some (digitValue c * 10 + digitValue d, rest)
      else if fixed then none
      else some (digitValue c, d :: rest)

def commaOrPeriod (c : Char) : Bool := c == '.' || c == ','

/-- The nanoseconds written in the first `nbytes` characters, the separator included. -/
def parseNanoseconds (value : List Char) (nbytes : Nat) : Option Int :=
  match value with
  | [] => none
  | c :: rest =>
      if !commaOrPeriod c then none
      else
        let nbytes := min nbytes 10
        match atoi (String.ofList (rest.take (nbytes - 1))) with
        | none => none
        | some ns => if ns < 0 then none else some (ns * 10 ^ (10 - nbytes))

/-- The length of a fraction at the head of the value, the separator included. -/
def fractionLength : List Char → Nat
  | c :: d :: rest =>
      if commaOrPeriod c && isDigit d then 2 + (rest.takeWhile isDigit).length else 0
  | _ => 0

/-- Does the layout go on with a fraction? -/
def startsWithFraction : List Chunk → Bool
  | .fracSecond0 _ :: _ => true
  | .fracSecond9 :: _ => true
  | _ => false

def parseZone (value : List Char) : Option (Int × List Char) :=
  match value with
  | 'Z' :: rest => some (0, rest)
  | sign :: h1 :: h2 :: ':' :: m1 :: m2 :: rest =>
      match getnum true [h1, h2], getnum true [m1, m2] with
      | some (hr, _), some (mm, _) =>
          if hr > 24 || mm > 60 then none
          else if sign == '+' then some ((hr * 60 + mm) * 60, rest)
          else if sign == '-' then some (-((hr * 60 + mm) * 60), rest)
          else none
      | _, _ => none
  | _ => none

/-- Parse one element; `later` is the layout after it. -/
def parseChunk (later : List Chunk) (f : Fields) (value : List Char) :
    Chunk → Option (Fields × List Char)
  | .lit ' ' =>
      match value with
      | [] => some (f, [])
      | c :: _ => if c == ' ' then some (f, value.dropWhile (· == ' ')) else none
  | .lit c =>
      match value with
      | [] => none
      | d :: rest => if d == c then some (f, rest) else none
  | .longYear =>
      let digits := value.take 4
      if digits.length == 4 && digits.all isDigit then
        some ({ f with year := Nat.ofDigitChars 10 digits 0 }, value.drop 4)
      else none
  | .zeroMonth => do
      let (month, value) ← getnum true value
      if month ≤ 0 || 12 < month then none else some ({ f with month }, value)
  | .zeroDay => do
      let (day, value) ← getnum true value
      some ({ f with day }, value)
  | .hour => do
      let (hour, value) ← getnum false value
      if 24 ≤ hour then none else some ({ f with hour }, value)
  | .zeroMinute => do
      let (minute, value) ← getnum true value
      if 60 ≤ minute then none else some ({ f with minute }, value)
  | .zeroSecond => do
      let (second, value) ← getnum true value
      if 60 ≤ second then none
      else
        let n := fractionLength value
        if n == 0 || startsWithFraction later then some ({ f with second }, value)
        else
          -- a fraction in the value that the layout does not have
          let nsec ← parseNanoseconds value n
          some ({ f with second, nsec }, value.drop n)
  | .fracSecond0 digits =>
      if value.length < digits + 1 then none
      else do
        let nsec ← parseNanoseconds value (digits + 1)
        some ({ f with nsec }, value.drop (digits + 1))
  | .fracSecond9 =>
      let n := fractionLength value
      if n == 0 then some (f, value)
      else do
        let nsec ← parseNanoseconds value n
        some ({ f with nsec }, value.drop n)
  | .iso8601ColonTZ => do
      let (zoneOffset, value) ← parseZone value
      some ({ f with zoneOffset := some zoneOffset }, value)

/-- Parse a value against a layout to its end. -/
def parseFields : List Chunk → Fields → List Char → Option Fields
  | [], f, [] => some f
  | [], _, _ :: _ => none
  | chunk :: later, f, value =>
      match parseChunk later f value chunk with
      | none => none
      | some (f, value) => parseFields later f value

def isLeap (year : Int) : Bool := year % 4 == 0 && (year % 100 != 0 || year % 400 == 0)

def daysIn (month year : Int) : Int :=
  if month == 2 then (if isLeap year then 29 else 28)
  else if month ∈ [4, 6, 9, 11] then 30
  else 31

/-- The days before a year, counted from the first of January of the year 0. -/
def daysBeforeYear (year : Int) : Int :=
  year * 365 + (year + 3) / 4 - (year + 99) / 100 + (year + 399) / 400

def daysBeforeMonth (month year : Int) : Int :=
  ((List.range 12).map fun i : Nat =>
    if (i : Int) + 1 < month then daysIn (i + 1) year else 0).sum

/-- The seconds of a civil time, read as UTC, since the epoch. -/
def civilSeconds (f : Fields) : Int :=
  let days := daysBeforeYear f.year - daysBeforeYear 1970 + daysBeforeMonth f.month f.year +
    (f.day - 1)
  days * 86400 + f.hour * 3600 + f.minute * 60 + f.second

/-- An instant in nanoseconds since the epoch. -/
abbrev Instant := Int

def toInstant (rt : Runtime) (f : Fields) : Instant :=
  let unix := match f.zoneOffset with
    | some offset => civilSeconds f - offset
    | none => rt.unixOfLocal (civilSeconds f)
  unix * 1000000000 + f.nsec

/-- `time.ParseInLocation(layout, value, time.Local)`. -/
def parseInLocation (rt : Runtime) (layout : List Chunk) (value : String) : Option Instant :=
  match parseFields layout {} value.toList with
  | none => none
  | some f => if f.day < 1 || daysIn f.month f.year < f.day then none else some (toInstant rt f)

/-- `2006-01-02` -/
def dateLayout : List Chunk := [.longYear, .lit '-', .zeroMonth, .lit '-', .zeroDay]

/-- `15:04:05` -/
def clockLayout : List Chunk := [.hour, .lit ':', .zeroMinute, .lit ':', .zeroSecond]

example : parseInLocation Runtime.ascii (dateLayout ++ [.lit ' '] ++ clockLayout)
    "1970-01-02 00:00:01.5" = some 86401500000000 := by decide

end NestGateway.GoTime
