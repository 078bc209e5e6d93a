import NestGateway.LogReader.Files
import NestGateway.LogReader.Filter

/-! # Searching the log files of an app

The scan of one file, which groups lines into entries as it goes and stops at
its limit, and the search over the files of an app with what is left of the
limit.
-/

namespace NestGateway.LogReader

open Text

structure SearchResult where
  lines : List LogLine
  node : String
  hasMore : Bool
  deriving Repr, DecidableEq

/-- The result of scanning one file; the lines of a failed scan are dropped by the caller. -/
structure FileResult where
  lines : List LogLine
  hasMore : Bool
  failed : Bool
  deriving Repr, DecidableEq

/-- The variables of the scan loop. -/
structure Scanning where
  lineNo : Nat := 0
  parser : Option Parser := none
  current : Option LogLine := none
  lines : List LogLine := []

section Runtime

variable (rt : Runtime) (params : SearchParams)

/-- The closure `flush`: the lines once the open entry is filtered and added. -/
def Scanning.flush (st : Scanning) : List LogLine :=
  match st.current with
  | none => st.lines
  | some current => if matchFilters rt current params then st.lines ++ [current] else st.lines

/-- A line of a file as the scan sees it. -/
def parsedLine (fileName : String) (parser : Parser) (line : String) (lineNo : Nat) : LogLine :=
  { parser.parse rt line with file := fileName, lineNo }

/-- The scan loop over the lines that are left; `failed` tells how the scanner ends. -/
def scanLoop (fileName : String) (limit : Nat) (failed : Bool) :
    List String → Scanning → FileResult
  | [], st =>
      let lines := st.flush rt params
      if limit ≤ lines.length then ⟨lines.take limit, true, failed⟩ else ⟨lines, false, failed⟩
  | line :: rest, st =>
      let lineNo := st.lineNo + 1
      if trimSpace line = "" then scanLoop fileName limit failed rest { st with lineNo }
      else
        let parser := st.parser.getD (detectParser line)
        let parsed := parsedLine rt fileName parser line lineNo
        if parsed.timestamp ≠ "" then
          let lines := st.flush rt params
          if limit ≤ lines.length then ⟨lines, true, false⟩
          else
            scanLoop fileName limit failed rest
              { lineNo, parser := some parser, current := some parsed, lines }
        else
          match st.current with
          | some current =>
              let message := current.message ++ "\n" ++ parsed.message
              scanLoop fileName limit failed rest
                { st with lineNo, parser := some parser, current := some { current with message } }
          | none =>
              if matchFilters rt parsed params then
                let lines := st.lines ++ [parsed]
                if limit ≤ lines.length then ⟨lines, !rest.isEmpty, false⟩
                else
                  scanLoop fileName limit failed rest
                    { st with lineNo, parser := some parser, lines }
              else scanLoop fileName limit failed rest { st with lineNo, parser := some parser }

/-- `Reader.searchFile`, none on an error. -/
def Reader.searchFile (r : Reader) (f : LogFile) (limit : Nat) : Option (List LogLine × Bool) :=
  match r.fs.openFile f.fullPath with
  | none => none
  | some stored =>
      let scan := scanLines stored.text stored.broken
      let result := scanLoop rt params f.name limit scan.failed scan.lines {}
      if result.failed then none else some (result.lines, result.hasMore)

def Reader.searchFiles (r : Reader) (limit : Nat) :
    List LogFile → List LogLine → Bool → List LogLine × Bool
  | [], lines, hasMore => (lines, hasMore)
  | f :: files, lines, hasMore =>
      if limit ≤ lines.length then (lines, true)
      else
        match r.searchFile rt params f (limit - lines.length) with
        | none => r.searchFiles limit files lines hasMore
        | some (found, more) => r.searchFiles limit files (lines ++ found) (hasMore || more)

/-- The limit of a search, 100 unless a positive one is given. -/
def searchLimit : Nat := if params.limit ≤ 0 then 100 else params.limit.toNat

def Reader.search (r : Reader) (nodeName : String) : SearchResult :=
  let files := r.listFiles params.app params.fromDate params.toDate
  let (lines, hasMore) := r.searchFiles rt params (searchLimit params) files [] false
  { lines, node := nodeName, hasMore }

end Runtime

theorem searchLimit_pos (params : SearchParams) : 0 < searchLimit params := by
  unfold searchLimit
  split <;> omega

end NestGateway.LogReader
