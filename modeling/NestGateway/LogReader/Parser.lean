import NestGateway.Core.GoJson

/-! # Log lines and their parsers

The line formats the log-streamer reads: Log4j2 pattern lines with and without
brackets, JSON lines, and anything else as it stands. The parser of a file is
picked from its first line.
-/

namespace NestGateway.LogReader

open Text Regex Re GoJson

/-- A parsed line, or an entry grouped from several. -/
structure LogLine where
  timestamp : String := ""
  level : String := ""
  source : String := ""
  message : String := ""
  metadata : String := ""
  file : String := ""
  lineNo : Nat := 0
  deriving Repr, DecidableEq

inductive Parser where
  | log4j2
  | json
  | raw
  deriving Repr, DecidableEq

/-- `\d{4}-\d{2}-\d{2}\s\d{2}:\d{2}:\d{2}[.,]\d{3}` -/
def timestampRe : Re :=
  all [times 4 digit, char '-', times 2 digit, char '-', times 2 digit, space, times 2 digit,
    char ':', times 2 digit, char ':', times 2 digit, cls fun c => c == '.' || c == ',',
    times 3 digit]

/-- `^(timestamp)\s+(\w+)\s+(\S+)\s+-\s+(.*)$` -/
def log4j2Pattern : Re :=
  all [bol, group 1 timestampRe, plus space, group 2 (plus word), plus space,
    group 3 (plus nonSpace), plus space, char '-', plus space, group 4 (star dot), eol]

/-- `^\[(\w+)\s*\]\s+(timestamp)((?:\s+\[[^\]]*\])*)\s+\[([^\]]+)\]\s+(.*)$` -/
def bracketLog4j2Pattern : Re :=
  all [bol, char '[', group 1 (plus word), star space, char ']', plus space,
    group 2 timestampRe,
    group 3 (star (all [plus space, char '[', star (notChar ']'), char ']'])),
    plus space, char '[', group 4 (plus (notChar ']')), char ']', plus space,
    group 5 (star dot), eol]

/-- `^\[(\w+)\s*\]` -/
def bracketDetectPattern : Re :=
  all [bol, char '[', group 1 (plus word), star space, char ']']

/-- `\[([^\]]*)\]` -/
def contextBracketPattern : Re := all [char '[', group 1 (star (notChar ']')), char ']']

/-- The keys that do not go into the metadata. -/
def jsonStandardKeys : List String :=
  ["timestamp", "@timestamp", "time", "level", "severity", "logger", "source", "name", "module",
    "msg", "message", "log.level", "log.logger", "ecs.version", "process.pid",
    "process.thread.name", "service.name"]

def detectParser (firstLine : String) : Parser :=
  let trimmed := trimSpace firstLine
  if startsWith trimmed (String.ofList ['{']) then .json
  else if test bracketDetectPattern trimmed then .log4j2
  else if test log4j2Pattern trimmed then .log4j2
  else .raw

section Runtime

variable (rt : Runtime)

/-- One context bracket: a key and a value at its first colon, else the next numbered key. -/
def contextStep (state : List (String × Json) × Nat) (m : Match) : List (String × Json) × Nat :=
  let (entries, ctxIdx) := state
  let content := (trimSpace (m.group 1)).toList
  if content.isEmpty then state
  else
    let key := content.takeWhile (· != ':')
    if 0 < key.length && key.length < content.length then
      (setKey (toLower rt (String.ofList key))
        (.str (String.ofList (content.drop (key.length + 1)))) entries, ctxIdx)
    else (setKey ("ctx" ++ Nat.repr ctxIdx) (.str (String.ofList content)) entries, ctxIdx + 1)

/-- The context brackets as JSON metadata. -/
def parseContextBrackets (contextStr : String) : String :=
  let (entries, _) := (findAll contextBracketPattern contextStr).foldl (contextStep rt) ([], 0)
  if entries.isEmpty then "" else marshal (.obj entries)

def parseLog4j2 (line : String) : LogLine :=
  match find bracketLog4j2Pattern line with
  | some m =>
      let contextStr := trimSpace (m.group 3)
      { level := toUpper rt (trimSpace (m.group 1))
        timestamp := m.group 2
        source := m.group 4
        message := m.group 5
        metadata := if contextStr != "" then parseContextBrackets rt contextStr else "" }
  | none =>
      match find log4j2Pattern line with
      | some m =>
          { timestamp := m.group 1
            level := toUpper rt (trimSpace (m.group 2))
            source := m.group 3
            message := m.group 4 }
      | none => { message := line }

def firstStr (data : List (String × Json)) : List String → String
  | [] => ""
  | k :: keys =>
      match data.lookup k with
      | some (.str s) => s
      | _ => firstStr data keys

def parseJSON (line : String) : LogLine :=
  match unmarshalMap rt line with
  | none => { message := line }
  | some data =>
      let extra := data.filter fun (k, _) => !(k ∈ jsonStandardKeys)
      { timestamp := firstStr data ["@timestamp", "timestamp", "time"]
        level := toUpper rt (firstStr data ["log.level", "level", "severity"])
        source := firstStr data ["log.logger", "logger", "source", "name", "module"]
        message := firstStr data ["message", "msg"]
        metadata := if extra.isEmpty then "" else marshal (.obj extra) }

def Parser.parse (p : Parser) (line : String) : LogLine :=
  match p with
  | .log4j2 => parseLog4j2 rt line
  | .json => parseJSON rt line
  | .raw => { message := line }

end Runtime

example : Parser.log4j2.parse Runtime.ascii
    "[INFO ] 2024-01-15 10:30:45.123 [CID:abc] [admin] [c.e.S.do:42] User [x] in" =
    { level := "INFO", timestamp := "2024-01-15 10:30:45.123", source := "c.e.S.do:42",
      message := "User [x] in",
      metadata := String.ofList ['{'] ++ "\"cid\":\"abc\",\"ctx0\":\"admin\"" ++
        String.ofList ['}'] } := by
  decide +kernel

end NestGateway.LogReader
