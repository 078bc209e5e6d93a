import NestGateway.Core.GoTime
import NestGateway.LogReader.Parser

/-! # Search filters

The filters of a search: level, keyword, the timestamp cursor and the window of
clock times. The dates of a search choose files and, with a clock bound, bound
the timestamps too.
-/

namespace NestGateway.LogReader

open Text GoTime

/-- The parameters of a search; an empty string is an absent one. -/
structure SearchParams where
  app : String
  fromDate : String := ""
  toDate : String := ""
  fromTime : String := ""
  toTime : String := ""
  level : String := ""
  keyword : String := ""
  after : String := ""
  limit : Int := 0
  deriving Repr, DecidableEq

def logTimestampLayouts : List (List Chunk) :=
  [ dateLayout ++ [Chunk.lit 'T'] ++ clockLayout ++ [Chunk.fracSecond9, .iso8601ColonTZ],
    dateLayout ++ [Chunk.lit 'T'] ++ clockLayout ++ [Chunk.fracSecond9],
    dateLayout ++ [Chunk.lit 'T'] ++ clockLayout ++ [Chunk.fracSecond0 3],
    dateLayout ++ [Chunk.lit 'T'] ++ clockLayout,
    dateLayout ++ [Chunk.lit ' '] ++ clockLayout ++ [Chunk.fracSecond9],
    dateLayout ++ [Chunk.lit ' '] ++ clockLayout ++ [Chunk.fracSecond0 3],
    dateLayout ++ [Chunk.lit ' '] ++ clockLayout ++ [Chunk.fracSecond0 3],
    dateLayout ++ [Chunk.lit ' '] ++ clockLayout ]

def timeBoundLayouts : List (List Chunk) :=
  [ dateLayout ++ [Chunk.lit ' '] ++ clockLayout ++ [Chunk.fracSecond0 3],
    dateLayout ++ [Chunk.lit ' '] ++ clockLayout ]

section Runtime

variable (rt : Runtime)

/-- The instant by the first layout that parses. -/
def parseFirst (layouts : List (List Chunk)) (value : String) : Option Instant :=
  layouts.findSome? fun layout => parseInLocation rt layout value

def parseLogTimestamp (value : String) : Option Instant :=
  let normalized := trimSpace value
  if normalized = "" then none else parseFirst rt logTimestampLayouts normalized

/-- The clock of a bound, completed to the millisecond. -/
def completeClock (clock : String) (atEnd : Bool) : String :=
  let clock := trimSpace clock
  if clock = "" then (if atEnd then "23:59:59.999" else "00:00:00.000")
  else if byteLen clock = byteLen "15:04" then clock ++ (if atEnd then ":59.999" else ":00.000")
  else if byteLen clock = byteLen "15:04:05" then clock ++ (if atEnd then ".999" else ".000")
  else clock

def parseTimeBound (date clock : String) (atEnd : Bool) : Option Instant :=
  let date := trimSpace date
  if date = "" then none
  else parseFirst rt timeBoundLayouts (date ++ " " ++ completeClock clock atEnd)

def hasTimeFilter (params : SearchParams) : Bool :=
  trimSpace params.fromTime != "" || trimSpace params.toTime != ""

def matchTimeRange (timestamp : String) (params : SearchParams) : Bool :=
  if !hasTimeFilter params then true
  else if timestamp = "" then false
  else
    match parseLogTimestamp rt timestamp with
    | none => false
    | some t =>
        let below := match parseTimeBound rt params.fromDate params.fromTime false with
          | some lower => t < lower
          | none => false
        let above := match parseTimeBound rt params.toDate params.toTime true with
          | some upper => upper < t
          | none => false
        !below && !above

def matchLevel (line : LogLine) (params : SearchParams) : Bool :=
  params.level = "" || equalFold rt line.level params.level

def matchKeyword (line : LogLine) (params : SearchParams) : Bool :=
  params.keyword = "" ||
    (let kw := toLower rt params.keyword
    contains (toLower rt line.message) kw || contains (toLower rt line.source) kw ||
      contains (toLower rt line.metadata) kw)

/-- The cursor lets lines without a timestamp pass. -/
def matchAfter (line : LogLine) (params : SearchParams) : Bool :=
  params.after = "" || line.timestamp = "" || params.after < line.timestamp

def matchFilters (line : LogLine) (params : SearchParams) : Bool :=
  matchLevel rt line params && matchKeyword rt line params && matchAfter line params &&
    matchTimeRange rt line.timestamp params

/-- The cursor is one of the filters; the others do not look at it. -/
theorem matchFilters_after (line : LogLine) (params : SearchParams) (after : String) :
    matchFilters rt line { params with after } =
      (matchFilters rt line { params with after := "" } &&
        matchAfter line { params with after }) := by
  have hcut : matchAfter line { params with after := "" } = true := by simp [matchAfter]
  simp only [matchFilters, hcut, Bool.and_true]
  simp only [matchLevel, matchKeyword, matchTimeRange, hasTimeFilter]
  cases matchAfter line { params with after } <;> simp

end Runtime

end NestGateway.LogReader
