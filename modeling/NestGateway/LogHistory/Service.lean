import NestGateway.Core.JsString
import NestGateway.Core.StableSort

/-! # The gateway's log search

`LogHistoryService.search` asks every log-streamer for its lines and its
statistics, puts the answered lines together, sorts them by timestamp and cuts
them at the limit. A request that fails is left out.
-/

namespace NestGateway.LogHistory

open Text StableSort
open JsString (truthy)

/-- `String.prototype.localeCompare`: a consistent comparator on all strings. -/
structure Collator where
  localeCompare : String → String → Int
  swap : ∀ a b, localeCompare a b < 0 ↔ 0 < localeCompare b a
  trans : ∀ a b c, localeCompare a b ≤ 0 → localeCompare b c ≤ 0 → localeCompare a c ≤ 0

theorem Collator.total (collator : Collator) (a b : String) :
    collator.localeCompare a b ≤ 0 ∨ collator.localeCompare b a ≤ 0 := by
  by_cases hle : collator.localeCompare a b ≤ 0
  · exact Or.inl hle
  · exact Or.inr (Int.le_of_lt ((collator.swap b a).mpr (by omega)))

def codePointCompare (a b : String) : Int := if a < b then -1 else if b < a then 1 else 0

theorem codePointCompare_le (a b : String) : codePointCompare a b ≤ 0 ↔ a ≤ b := by
  unfold codePointCompare
  rcases lt_trichotomy a b with h | rfl | h
  · simp only [h, if_true, h.le, iff_true]; omega
  · simp only [lt_irrefl, if_false, le_refl]
  · simp only [h, h.asymm, h.not_ge, if_true, if_false, iff_false]; omega

def Collator.codePoint : Collator where
  localeCompare := codePointCompare
  swap a b := by
    unfold codePointCompare
    rcases lt_trichotomy a b with h | rfl | h
    · simp only [h, h.asymm, if_true, if_false]; omega
    · simp only [lt_irrefl, if_false]
    · simp only [h, h.asymm, if_true, if_false]; omega
  trans a b c hab hbc := by
    rw [codePointCompare_le] at hab hbc ⊢
    exact le_trans hab hbc

/-- A line of a log-streamer's answer; the fields that JSON may leave out are optional. -/
structure AnswerLine where
  timestamp : Option String := none
  level : Option String := none
  source : Option String := none
  message : String
  metadata : Option String := none
  file : String
  lineNo : Nat
  deriving Repr, DecidableEq

/-- The model `LogLine` of the gateway: an answered line with its node. -/
structure LogLine extends AnswerLine where
  node : String
  deriving Repr, DecidableEq

structure LogSearchResponse where
  /-- none when the field is null or absent -/
  lines : Option (List AnswerLine)
  node : String
  hasMore : Bool
  deriving Repr, DecidableEq

structure LogStatsResponse where
  node : String
  totalLines : Nat
  errorCount : Nat
  warnCount : Nat
  infoCount : Nat
  fileCount : Nat
  deriving Repr, DecidableEq

structure LogSummary where
  totalLines : Nat := 0
  errorCount : Nat := 0
  warnCount : Nat := 0
  infoCount : Nat := 0
  fileCount : Nat := 0
  deriving Repr, DecidableEq

structure LogSearchResult where
  lines : List LogLine
  hasMore : Bool
  summary : LogSummary
  deriving Repr, DecidableEq

structure LogSearchInput where
  app : String
  fromDate : String
  fromTime : Option String := none
  toDate : String
  toTime : Option String := none
  level : Option String := none
  keyword : Option String := none
  node : Option String := none
  after : Option String := none
  limit : Option Int := none
  deriving Repr, DecidableEq

abbrev Query := List (String × String)

/-- The log-streamers as the gateway reaches them: what a request is answered with, none when
it fails. -/
structure Upstream (Host : Type) where
  getSearch : Host → Query → Option LogSearchResponse
  getStats : Host → Query → Option LogStatsResponse

def LogSearchInput.pageLimit (input : LogSearchInput) : Int := input.limit.getD 100

/-- `undefined` parameters are not sent. -/
def sentParams (params : List (String × Option String)) : Query :=
  params.filterMap fun (k, v) => v.map (k, ·)

def searchParams (input : LogSearchInput) : Query :=
  sentParams
    [("app", some input.app), ("from", some input.fromDate), ("to", some input.toDate),
      ("level", input.level), ("keyword", input.keyword), ("after", input.after),
      ("limit", some (toString input.pageLimit)), ("fromTime", truthy input.fromTime),
      ("toTime", truthy input.toTime)]

def statsParams (input : LogSearchInput) : Query :=
  sentParams
    [("app", some input.app), ("from", some input.fromDate), ("to", some input.toDate),
      ("fromTime", truthy input.fromTime), ("toTime", truthy input.toTime)]

def passesNode (nodeFilter : Option String) (node : String) : Bool :=
  match truthy nodeFilter with
  | none => true
  | some wanted => node == wanted

def tagLine (node : String) (line : AnswerLine) : LogLine := { line with node }

/-- One answer of the merge loop. -/
def collectAnswer (nodeFilter : Option String) (acc : List LogLine × Bool)
    (result : Option LogSearchResponse) : List LogLine × Bool :=
  match result with
  | none => acc
  | some data =>
      if !passesNode nodeFilter data.node then acc
      else (acc.1 ++ (data.lines.getD []).map (tagLine data.node), acc.2 || data.hasMore)

def LogSummary.add (summary : LogSummary) (data : LogStatsResponse) : LogSummary where
  totalLines := summary.totalLines + data.totalLines
  errorCount := summary.errorCount + data.errorCount
  warnCount := summary.warnCount + data.warnCount
  infoCount := summary.infoCount + data.infoCount
  fileCount := summary.fileCount + data.fileCount

def mergeStats (results : List (Option LogStatsResponse)) (nodeFilter : Option String) :
    LogSummary :=
  results.foldl (fun summary result =>
    match result with
    | none => summary
    | some data => if !passesNode nodeFilter data.node then summary else summary.add data) {}

def LogLine.sortKey (l : LogLine) : String := l.timestamp.getD ""

/-- The comparator of the merge, as an order. -/
def byTimestamp (collator : Collator) (a b : LogLine) : Prop :=
  collator.localeCompare a.sortKey b.sortKey ≤ 0

instance (collator : Collator) : DecidableRel (byTimestamp collator) :=
  fun a b => inferInstanceAs (Decidable (collator.localeCompare a.sortKey b.sortKey ≤ 0))

/-- Sort the collected lines and cut them at the limit; a negative limit cuts from the end. -/
def sortAndCut (collator : Collator) (limit : Int) (collected : List LogLine × Bool) :
    List LogLine × Bool :=
  let allLines := collected.1.insertionSort (byTimestamp collator)
  if limit < allLines.length then
    let cut := if limit < 0 then allLines.length - limit.natAbs else limit.toNat
    (allLines.take cut, true)
  else (allLines, collected.2)

/-- `LogHistoryService.search` -/
def search {Host : Type} (collator : Collator) (upstream : Upstream Host) (hosts : List Host)
    (input : LogSearchInput) : LogSearchResult :=
  let searchResults := hosts.map (upstream.getSearch · (searchParams input))
  let statsResults := hosts.map (upstream.getStats · (statsParams input))
  let collected := searchResults.foldl (collectAnswer input.node) ([], false)
  let (lines, hasMore) := sortAndCut collator input.pageLimit collected
  { lines, hasMore, summary := mergeStats statsResults input.node }

theorem byTimestamp_trans (collator : Collator) (a b c : LogLine)
    (hab : byTimestamp collator a b) (hbc : byTimestamp collator b c) :
    byTimestamp collator a c :=
  collator.trans _ _ _ hab hbc

theorem byTimestamp_total (collator : Collator) (a b : LogLine) :
    byTimestamp collator a b ∨ byTimestamp collator b a :=
  collator.total _ _

/-- The tagged lines of an answer that passes the node filter. -/
def answeredLines (nodeFilter : Option String) (result : Option LogSearchResponse) :
    List LogLine :=
  match result with
  | none => []
  | some data =>
      if passesNode nodeFilter data.node then (data.lines.getD []).map (tagLine data.node) else []

def answeredMore (nodeFilter : Option String) (result : Option LogSearchResponse) : Bool :=
  match result with
  | none => false
  | some data => passesNode nodeFilter data.node && data.hasMore

theorem foldl_collectAnswer (nodeFilter : Option String)
    (results : List (Option LogSearchResponse)) (acc : List LogLine × Bool) :
    results.foldl (collectAnswer nodeFilter) acc =
      (acc.1 ++ results.flatMap (answeredLines nodeFilter),
        acc.2 || results.any (answeredMore nodeFilter)) := by
  induction results generalizing acc with
  | nil => simp
  | cons result results ih =>
      rw [List.foldl_cons, ih, List.flatMap_cons, List.any_cons]
      cases result with
      | none => simp [collectAnswer, answeredLines, answeredMore]
      | some data =>
          cases hp : passesNode nodeFilter data.node <;>
            simp [collectAnswer, answeredLines, answeredMore, hp, Bool.or_assoc]

/-- The lines of a search: the sorted answers, cut at the limit. -/
theorem search_lines {Host : Type} (collator : Collator) (upstream : Upstream Host)
    (hosts : List Host) (input : LogSearchInput) (hlimit : 0 ≤ input.pageLimit) :
    (search collator upstream hosts input).lines =
      ((hosts.flatMap fun h => answeredLines input.node
        (upstream.getSearch h (searchParams input))).insertionSort
          (byTimestamp collator)).take input.pageLimit.toNat := by
  simp only [search, foldl_collectAnswer, List.nil_append, List.flatMap_map, sortAndCut]
  generalize List.insertionSort (byTimestamp collator) _ = sorted
  split
  · rw [if_neg (by omega)]
  · rw [List.take_of_length_le (by omega)]

/-- The flag of a search: an answer has more, or the lines were cut. -/
theorem search_hasMore {Host : Type} (collator : Collator) (upstream : Upstream Host)
    (hosts : List Host) (input : LogSearchInput) :
    (search collator upstream hosts input).hasMore =
      ((hosts.any fun h => answeredMore input.node (upstream.getSearch h (searchParams input))) ||
        decide (input.pageLimit < (hosts.flatMap fun h => answeredLines input.node
          (upstream.getSearch h (searchParams input))).length)) := by
  simp only [search, foldl_collectAnswer, List.nil_append, List.flatMap_map, List.any_map,
    sortAndCut, List.length_insertionSort, Bool.false_or]
  split
  next h => rw [decide_eq_true h, Bool.or_true]
  next h =>
    rw [decide_eq_false h, Bool.or_false]
    rfl

end NestGateway.LogHistory
