import NestGateway.LogHistory.Service
import NestGateway.LogReader.Positions

/-! # The log-streamer behind the gateway

The HTTP handler of the log search: it reads the query, bounds the limit, runs
the search and answers with its lines. On the gateway's own requests its
parameters are those of the gateway's input.
-/

namespace NestGateway.LogHistory

open Text LogReader
open JsString (truthy)

/-- `q.Get`: the empty string when the parameter is absent. -/
def queryGet (q : Query) (k : String) : String := (q.lookup k).getD ""

/-- The limit of a request: a positive number, at most 500. -/
def requestLimit (l : String) : Int :=
  let limit : Int :=
    if l != "" then
      match atoi l with
      | some parsed => if parsed > 0 then parsed else 100
      | none => 100
    else 100
  if limit > 500 then 500 else limit

def requestParams (q : Query) : SearchParams where
  app := queryGet q "app"
  fromDate := queryGet q "from"
  toDate := queryGet q "to"
  fromTime := queryGet q "fromTime"
  toTime := queryGet q "toTime"
  level := queryGet q "level"
  keyword := queryGet q "keyword"
  after := queryGet q "after"
  limit := requestLimit (queryGet q "limit")

def omitEmpty (s : String) : Option String := if s = "" then none else some s

/-- A line as the JSON of the answer carries it. -/
def answerLine (l : LogReader.LogLine) : AnswerLine where
  timestamp := omitEmpty l.timestamp
  level := omitEmpty l.level
  source := omitEmpty l.source
  message := l.message
  metadata := omitEmpty l.metadata
  file := l.file
  lineNo := l.lineNo

/-- A log-streamer: its disk and its node's name. -/
structure LogFilesHandler where
  reader : Reader
  nodeName : String

structure LogAppsResponse where
  /-- none when the field is null or absent -/
  apps : Option (List String)
  node : String
  deriving Repr, DecidableEq

/-- `LogFilesHandler.Apps`; a nil slice is written as null. -/
def LogFilesHandler.apps (h : LogFilesHandler) : Option LogAppsResponse :=
  h.reader.listApps.map fun names => ⟨if names = [] then none else some names, h.nodeName⟩

section Runtime

variable (rt : Runtime)

/-- `LogFilesHandler.Search`; a request without an app is refused. -/
def LogFilesHandler.search (h : LogFilesHandler) (q : Query) : Option LogSearchResponse :=
  let app := queryGet q "app"
  if app = "" then none
  else
    let result := h.reader.search rt (requestParams q) h.nodeName
    some ⟨some (result.lines.map answerLine), result.node, result.hasMore⟩

end Runtime

theorem queryGet_sentParams (params : List (String × Option String)) (k : String)
    (hkeys : (params.map (·.1)).Nodup) :
    queryGet (sentParams params) k = ((params.lookup k).join).getD "" := by
  have habsent : ∀ ps : List (String × Option String), k ∉ ps.map (·.1) →
      (sentParams ps).lookup k = none := by
    intro ps hk
    apply List.lookup_eq_none_iff.mpr
    intro p hp
    obtain ⟨⟨k', v⟩, hmem, hv⟩ := List.mem_filterMap.mp hp
    cases v with
    | none => cases hv
    | some v =>
        obtain rfl := Option.some.inj hv
        exact bne_iff_ne.mpr fun h => hk (List.mem_map.mpr ⟨_, hmem, h.symm⟩)
  induction params with
  | nil => rfl
  | cons p params ih =>
      obtain ⟨k', v⟩ := p
      obtain ⟨hfresh, hkeys⟩ := List.nodup_cons.mp hkeys
      by_cases hk : k = k'
      · subst hk
        cases v with
        | none =>
            have hnone := habsent params hfresh
            simp only [sentParams, queryGet] at hnone ⊢
            simp [hnone]
        | some v => simp [sentParams, queryGet]
      · have hb : (k == k') = false := beq_false_of_ne hk
        have ih := ih hkeys
        cases v with
        | none => simpa [sentParams, queryGet, List.lookup_cons, hb] using ih
        | some v => simpa [sentParams, queryGet, List.lookup_cons, hb] using ih

/-- The search parameters of an input, without its cursor. -/
def inputParams (input : LogSearchInput) : SearchParams where
  app := input.app
  fromDate := input.fromDate
  toDate := input.toDate
  fromTime := (truthy input.fromTime).getD ""
  toTime := (truthy input.toTime).getD ""
  level := input.level.getD ""
  keyword := input.keyword.getD ""
  after := ""
  limit := input.pageLimit

theorem requestLimit_toString {limit : Nat} (hpos : 1 ≤ limit) (hmax : limit ≤ 500) :
    requestLimit (toString (limit : Int)) = limit := by
  have hne : (Nat.repr limit != "") = true := by
    rw [bne_iff_ne]
    intro h
    have hread := atoi_repr limit
    rw [h] at hread
    cases hread
  have htext : toString (limit : Int) = Nat.repr limit := rfl
  have hlimit : (limit : Int) > 0 := by omega
  rw [requestLimit, htext, hne, atoi_repr]
  simp only [if_true, hlimit]
  rw [if_neg (by omega)]

theorem requestParams_searchParams (input : LogSearchInput) {limit : Nat}
    (hlimit : input.pageLimit = limit) (hpos : 1 ≤ limit) (hmax : limit ≤ 500) :
    requestParams (searchParams input) =
      { inputParams input with after := input.after.getD "" } := by
  have hget := fun k => queryGet_sentParams
    [("app", some input.app), ("from", some input.fromDate), ("to", some input.toDate),
      ("level", input.level), ("keyword", input.keyword), ("after", input.after),
      ("limit", some (toString input.pageLimit)), ("fromTime", truthy input.fromTime),
      ("toTime", truthy input.toTime)] k (by simp)
  have hread := requestLimit_toString hpos hmax
  rw [← hlimit] at hread
  simp only [requestParams, searchParams, hget, inputParams]
  simp only [List.lookup_cons, String.reduceBEq, Option.join_some, Option.getD_some, hread]

end NestGateway.LogHistory
