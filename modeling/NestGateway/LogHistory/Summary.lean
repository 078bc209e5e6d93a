import NestGateway.LogHistory.Isolation
import NestGateway.LogHistory.Merge
import NestGateway.LogHistory.Streamer
import NestGateway.LogReader.Stats

/-! # The summary of a search

A search asks the log-streamers for statistics beside the lines. The summary
counts the entries of the nodes that answer, within the dates and times of the
search and whatever its level, keyword, cursor and limit are; an unfiltered page
shows as many lines as the summary counts, up to the limit.
-/

namespace NestGateway.LogHistory

open Text LogReader List
open JsString (truthy)

section Runtime

variable (rt : Runtime)

/-- The counts of an answer that the gateway reads. -/
def statsResponse (stats : LogStats) : LogStatsResponse where
  node := stats.node
  totalLines := stats.totalLines
  errorCount := stats.errorCount
  warnCount := stats.warnCount
  infoCount := stats.infoCount
  fileCount := stats.fileCount

/-- `LogFilesHandler.Stats`; a request without an app is refused. -/
def LogFilesHandler.stats (h : LogFilesHandler) (q : Query) : Option LogStatsResponse :=
  let app := queryGet q "app"
  if app = "" then none
  else
    some (statsResponse (h.reader.stats rt app (queryGet q "from") (queryGet q "to")
      (queryGet q "fromTime") (queryGet q "toTime") h.nodeName))

/-- The log-streamers of the nodes, some of which do not answer a search or a request for
statistics. -/
def reached (answersSearch answersStats : LogFilesHandler → Bool) : Upstream LogFilesHandler where
  getSearch h q := if answersSearch h then h.search rt q else none
  getStats h q := if answersStats h then h.stats rt q else none

/-! ## What is counted -/

def nodeCensus (input : LogSearchInput) (h : LogFilesHandler) : List LogReader.LogLine :=
  (h.reader.entries rt input.app input.fromDate input.toDate).filter
    (InBounds rt (inputParams input))

def census (nodes : List LogFilesHandler) (input : LogSearchInput) : List LogReader.LogLine :=
  (passingHosts input (·.nodeName) nodes).flatMap (nodeCensus rt input)

/-- A timestamped entry whose level counts as `level`. -/
def countsAs (level : UiLevel) (e : LogReader.LogLine) : Bool :=
  !e.untimed && level.counts (toUpper rt e.level)

variable {rt}

theorem stats_statsParams {input : LogSearchInput} (happ : input.app ≠ "") (h : LogFilesHandler) :
    h.stats rt (statsParams input) =
      some (statsResponse (h.reader.statsOf rt (inputParams input) h.nodeName)) := by
  have hget := fun k => queryGet_sentParams
    [("app", some input.app), ("from", some input.fromDate), ("to", some input.toDate),
      ("fromTime", truthy input.fromTime), ("toTime", truthy input.toTime)] k (by simp)
  have hqueryApp : queryGet (statsParams input) "app" = input.app := hget "app"
  have hfrom : queryGet (statsParams input) "from" = input.fromDate := hget "from"
  have hto : queryGet (statsParams input) "to" = input.toDate := hget "to"
  have hfromTime : queryGet (statsParams input) "fromTime" = (truthy input.fromTime).getD "" :=
    hget "fromTime"
  have htoTime : queryGet (statsParams input) "toTime" = (truthy input.toTime).getD "" :=
    hget "toTime"
  simp only [LogFilesHandler.stats, hqueryApp, if_neg happ, hfrom, hto, hfromTime, htoTime]
  rfl

theorem totalLines_node (input : LogSearchInput) (h : LogFilesHandler) :
    (h.reader.statsOf rt (inputParams input) h.nodeName).totalLines =
      (nodeCensus rt input h).length := by
  rw [totalLines_statsOf, countP_eq_length_filter]
  rfl

theorem levelCount_node (level : UiLevel) (input : LogSearchInput) (h : LogFilesHandler) :
    (h.reader.statsOf rt (inputParams input) h.nodeName).levelCount level =
      (nodeCensus rt input h).countP (countsAs rt level) := by
  rw [levelCount_statsOf, nodeCensus, countP_filter]
  refine countP_congr fun e _ => ?_
  simp [countsAs, and_comm, and_assoc]

theorem node_statsOf (params : SearchParams) (r : Reader) (nodeName : String) :
    (r.statsOf rt params nodeName).node = nodeName ∧
      (r.statsOf rt params nodeName).fileCount =
        (r.listFiles params.app params.fromDate params.toDate).length := by
  have hcount : ∀ (stats : LogStats) (level : String),
      (stats.count rt level).node = stats.node ∧
        (stats.count rt level).fileCount = stats.fileCount := by
    intro stats level
    rw [count_fields]
    exact ⟨rfl, rfl⟩
  have hfold : ∀ (params : SearchParams) (entries : List LogReader.LogLine) (stats : LogStats),
      (entries.foldl (tally rt params) stats).node = stats.node ∧
        (entries.foldl (tally rt params) stats).fileCount = stats.fileCount := by
    intro params entries
    induction entries with
    | nil => exact fun _ => ⟨rfl, rfl⟩
    | cons e entries ih =>
        intro stats
        have hone : (tally rt params stats e).node = stats.node ∧
            (tally rt params stats e).fileCount = stats.fileCount := by
          unfold tally
          split
          · exact ⟨rfl, rfl⟩
          · split
            · exact ⟨rfl, rfl⟩
            · exact hcount stats _
        rw [foldl_cons, (ih _).1, (ih _).2]
        exact hone
  rw [Reader.statsOf, stats_spec]
  exact hfold _ _ _

theorem counts_le_length (entries : List LogReader.LogLine) :
    entries.countP (countsAs rt .error) + entries.countP (countsAs rt .warn) +
      entries.countP (countsAs rt .info) ≤ entries.length := by
  induction entries with
  | nil => simp
  | cons e entries ih =>
      have hone : (if countsAs rt .error e then 1 else 0) + (if countsAs rt .warn e then 1 else 0) +
          (if countsAs rt .info e then 1 else 0) ≤ 1 := by
        unfold countsAs
        generalize toUpper rt e.level = upper
        by_cases herror : upper = "ERROR"
        · simp [UiLevel.counts, herror]
          split <;> omega
        · by_cases hinfo : upper = "INFO"
          · simp [UiLevel.counts, hinfo]
            split <;> omega
          · simp [UiLevel.counts, herror, hinfo]
            split <;> omega
      simp only [countP_cons, length_cons]
      omega

/-! ## Merging -/

def counting (nodeFilter : Option String) (results : List (Option LogStatsResponse)) :
    List LogStatsResponse :=
  (results.filterMap id).filter (passesNode nodeFilter ·.node)

theorem counting_cons (nodeFilter : Option String) (result : Option LogStatsResponse)
    (results : List (Option LogStatsResponse)) :
    counting nodeFilter (result :: results) =
      (result.filter (passesNode nodeFilter ·.node)).toList ++ counting nodeFilter results := by
  cases result with
  | none => rfl
  | some data =>
      cases hpass : passesNode nodeFilter data.node <;> simp [counting, Option.filter, hpass]

theorem mergeStats_count (field : LogSummary → Nat) (part : LogStatsResponse → Nat)
    (hzero : field {} = 0)
    (hadd : ∀ summary data, field (summary.add data) = field summary + part data)
    (results : List (Option LogStatsResponse)) (nodeFilter : Option String) :
    field (mergeStats results nodeFilter) = ((counting nodeFilter results).map part).sum := by
  have hfold : ∀ (results : List (Option LogStatsResponse)) (summary : LogSummary),
      field (results.foldl (addStats nodeFilter) summary) =
        field summary + ((counting nodeFilter results).map part).sum := by
    intro results
    induction results with
    | nil => exact fun _ => rfl
    | cons result results ih =>
        intro summary
        rw [foldl_cons, ih, counting_cons]
        cases result with
        | none => rfl
        | some data =>
            cases hpass : passesNode nodeFilter data.node
            · simp [addStats, Option.filter, hpass]
            · simp [addStats, Option.filter, hpass, hadd, Nat.add_assoc]
  show field (results.foldl (addStats nodeFilter) {}) = _
  rw [hfold, hzero, Nat.zero_add]

section Search

variable (collator : Collator) (answersSearch answersStats : LogFilesHandler → Bool)
  (nodes : List LogFilesHandler) {input : LogSearchInput}

theorem passingHosts_cons (h : LogFilesHandler) :
    passingHosts input (·.nodeName) (h :: nodes) =
      (if passesNode input.node h.nodeName then [h] else []) ++
        passingHosts input (·.nodeName) nodes := by
  cases hpass : passesNode input.node h.nodeName <;> simp [passingHosts, hpass]

theorem counting_reached (happ : input.app ≠ "") :
    counting input.node (nodes.map
        ((reached rt answersSearch answersStats).getStats · (statsParams input))) =
      (passingHosts input (·.nodeName) (nodes.filter answersStats)).map fun h =>
        statsResponse (h.reader.statsOf rt (inputParams input) h.nodeName) := by
  induction nodes with
  | nil => rfl
  | cons h nodes ih =>
      have hnode : (statsResponse (h.reader.statsOf rt (inputParams input) h.nodeName)).node =
          h.nodeName := (node_statsOf _ _ _).1
      rw [map_cons, counting_cons, ih, filter_cons]
      cases hanswers : answersStats h
      · simp [reached, hanswers]
      · cases hpass : passesNode input.node h.nodeName
        · simp [passingHosts_cons, reached, hanswers, stats_statsParams happ, Option.filter, hnode,
            hpass]
        · simp [passingHosts_cons, reached, hanswers, stats_statsParams happ, Option.filter, hnode,
            hpass]

/-- A count of the summary is the sum of what it is for the nodes. -/
theorem summary_count (happ : input.app ≠ "") (field : LogSummary → Nat)
    (part : LogStatsResponse → Nat) (hzero : field {} = 0)
    (hadd : ∀ summary data, field (summary.add data) = field summary + part data) :
    field (search collator (reached rt answersSearch answersStats) nodes input).summary =
      ((passingHosts input (·.nodeName) (nodes.filter answersStats)).map fun h =>
        part (statsResponse (h.reader.statsOf rt (inputParams input) h.nodeName))).sum := by
  rw [search, mergeStats_count field part hzero hadd, counting_reached _ _ _ happ, map_map]
  rfl

theorem totalLines_summary (happ : input.app ≠ "") :
    (search collator (reached rt answersSearch answersStats) nodes input).summary.totalLines =
      (census rt (nodes.filter answersStats) input).length := by
  simp only [census, length_flatMap, ← totalLines_node]
  exact summary_count collator _ _ _ happ LogSummary.totalLines _ rfl fun _ _ => rfl

theorem levels_summary (happ : input.app ≠ "") :
    let summary := (search collator (reached rt answersSearch answersStats) nodes input).summary
    let entries := census rt (nodes.filter answersStats) input
    summary.errorCount = entries.countP (countsAs rt .error) ∧
      summary.warnCount = entries.countP (countsAs rt .warn) ∧
      summary.infoCount = entries.countP (countsAs rt .info) := by
  simp only [census, countP_flatMap, Function.comp_def, ← levelCount_node]
  exact ⟨summary_count collator _ _ _ happ LogSummary.errorCount _ rfl fun _ _ => rfl,
    summary_count collator _ _ _ happ LogSummary.warnCount _ rfl fun _ _ => rfl,
    summary_count collator _ _ _ happ LogSummary.infoCount _ rfl fun _ _ => rfl⟩

/-- The summary counts the entries of the nodes that answer: all of them, those of each level
that is shown, and their files. -/
theorem summary_counts (happ : input.app ≠ "") :
    let result := search collator (reached rt answersSearch answersStats) nodes input
    let entries := census rt (nodes.filter answersStats) input
    result.summary.totalLines = entries.length ∧
      result.summary.errorCount = entries.countP (countsAs rt .error) ∧
      result.summary.warnCount = entries.countP (countsAs rt .warn) ∧
      result.summary.infoCount = entries.countP (countsAs rt .info) ∧
      result.summary.errorCount + result.summary.warnCount + result.summary.infoCount ≤
        result.summary.totalLines ∧
      result.summary.fileCount =
        ((passingHosts input (·.nodeName) (nodes.filter answersStats)).map fun h =>
          (h.reader.listFiles input.app input.fromDate input.toDate).length).sum := by
  intro result entries
  have htotal : result.summary.totalLines = entries.length :=
    totalLines_summary collator answersSearch answersStats nodes happ
  have hlevels := @levels_summary rt collator answersSearch answersStats nodes input happ
  obtain ⟨herror, hwarn, hinfo⟩ := hlevels
  refine ⟨htotal, herror, hwarn, hinfo, ?_, ?_⟩
  · rw [htotal, herror, hwarn, hinfo]
    exact counts_le_length entries
  · rw [summary_count collator _ _ _ happ LogSummary.fileCount LogStatsResponse.fileCount rfl
      fun _ _ => rfl]
    simp only [statsResponse, (node_statsOf _ _ _).2]
    rfl

end Search

/-! ## The lines that are shown -/

structure LogSearchInput.Unfiltered (input : LogSearchInput) : Prop where
  level : input.level.getD "" = ""
  keyword : input.keyword.getD "" = ""
  after : input.after.getD "" = ""

section Shown

variable (rt) (collator : Collator) (answers : LogFilesHandler → Bool)
  (nodes : List LogFilesHandler) {input : LogSearchInput}

theorem matchList_unfiltered (unfiltered : input.Unfiltered) (h : LogFilesHandler) :
    h.reader.matchList rt { inputParams input with after := input.after.getD "" } =
      nodeCensus rt input h := by
  rw [matchList_eq_filter]
  refine filter_congr fun e _ => ?_
  simp [matchFilters, matchLevel, matchKeyword, matchAfter, inputParams, unfiltered.level,
    unfiltered.keyword, unfiltered.after, InBounds, matchTimeRange, hasTimeFilter]

/-- The number of lines of a node's answer, and when it announces more. -/
theorem search_unfiltered (unfiltered : input.Unfiltered) {limit : Nat}
    (hlimit : input.pageLimit = limit) (hpos : 1 ≤ limit) (hmax : limit ≤ 500)
    (happ : input.app ≠ "") {h : LogFilesHandler}
    (readable : ∀ f ∈ h.reader.listFiles input.app input.fromDate input.toDate,
      h.reader.Readable f) :
    ∃ lines more, h.search rt (searchParams input) = some ⟨some lines, h.nodeName, more⟩ ∧
      lines.length = min limit (nodeCensus rt input h).length ∧
      (limit < (nodeCensus rt input h).length → more = true) ∧
      (more = true → limit ≤ (nodeCensus rt input h).length) := by
  have hparams := requestParams_searchParams input hlimit hpos hmax
  have hquery : queryGet (searchParams input) "app" = input.app :=
    congrArg SearchParams.app hparams
  have hcut : searchLimit { inputParams input with after := input.after.getD "" } = limit := by
    rw [searchLimit, if_neg (by simp only [inputParams]; omega)]
    simp [inputParams, hlimit]
  have hsearch := search_spec rt { inputParams input with after := input.after.getD "" } h.reader
    h.nodeName readable
  have hcensus := matchList_unfiltered rt unfiltered h
  rw [hcut, hcensus] at hsearch
  simp only [LogFilesHandler.search, hquery, if_neg happ, hparams, hsearch]
  refine ⟨_, _, rfl, by simp, fun hlong => ?_, fun hmore => ?_⟩
  · exact announces_of_longer rt _ (lt_of_lt_of_eq hlong (congrArg length hcensus.symm))
  · exact (le_of_announces rt _ hmore).trans_eq (congrArg length hcensus)

/-- A cut of lists that were cut is a cut of the lists. -/
theorem min_sum_min (limit : Nat) (lengths : List Nat) :
    min limit (lengths.map (min limit)).sum = min limit lengths.sum := by
  induction lengths with
  | nil => rfl
  | cons n lengths ih =>
      simp only [map_cons, sum_cons]
      omega

theorem answeredLines_length (node : Option String) (lines : List AnswerLine) (name : String)
    (more : Bool) :
    (answeredLines node (some ⟨some lines, name, more⟩)).length =
      if passesNode node name then lines.length else 0 := by
  simp only [answeredLines]
  split <;> simp

section Nodes

variable (unfiltered : input.Unfiltered) (happ : input.app ≠ "") {limit : Nat}
  (hlimit : input.pageLimit = limit) (hpos : 1 ≤ limit) (hmax : limit ≤ 500)
  (readable : ∀ h ∈ nodes, ∀ f ∈ h.reader.listFiles input.app input.fromDate input.toDate,
    h.reader.Readable f)
include unfiltered happ hlimit hpos hmax readable

theorem answered_length :
    (nodes.flatMap fun h => answeredLines input.node
        ((reached rt answers answers).getSearch h (searchParams input))).length =
      (((passingHosts input (·.nodeName) (nodes.filter answers)).map fun h =>
        (nodeCensus rt input h).length).map (min limit)).sum := by
  induction nodes with
  | nil => rfl
  | cons h nodes ih =>
      have hrest := ih fun g hg => readable g (mem_cons_of_mem h hg)
      obtain ⟨lines, more, hsearch, hlength, _⟩ := search_unfiltered rt unfiltered hlimit hpos
        hmax happ (readable h mem_cons_self)
      rw [flatMap_cons, length_append, hrest, filter_cons]
      cases hanswers : answers h
      · simp [reached, hanswers, answeredLines]
      · cases hpass : passesNode input.node h.nodeName
        · simp [reached, hanswers, hsearch, answeredLines_length, passingHosts_cons, hpass]
        · simp [reached, hanswers, hsearch, answeredLines_length, passingHosts_cons, hpass, hlength]

theorem answered_announces {h : LogFilesHandler} (hmem : h ∈ nodes) :
    (answeredMore input.node ((reached rt answers answers).getSearch h (searchParams input)) =
        true →
      h ∈ passingHosts input (·.nodeName) (nodes.filter answers) ∧
        limit ≤ (nodeCensus rt input h).length) ∧
    (h ∈ passingHosts input (·.nodeName) (nodes.filter answers) →
      limit < (nodeCensus rt input h).length →
      answeredMore input.node ((reached rt answers answers).getSearch h (searchParams input)) =
        true) := by
  obtain ⟨lines, more, hsearch, _, hlong, hmore⟩ := search_unfiltered rt unfiltered hlimit
    hpos hmax happ (readable h hmem)
  simp only [reached, passingHosts, mem_filter, hsearch]
  cases hanswers : answers h
  · simp [answeredMore]
  · cases hpass : passesNode input.node h.nodeName
    · simp [answeredMore, hpass]
    · simpa [answeredMore, hpass, hmem] using ⟨hmore, hlong⟩

/-- An unfiltered page shows as many lines as the summary counts, up to its limit; it announces
more when the summary counts more, and not when it counts fewer. -/
theorem shown_of_summary :
    let result := search collator (reached rt answers answers) nodes input
    result.lines.length = min limit result.summary.totalLines ∧
      (limit < result.summary.totalLines → result.hasMore = true) ∧
      (result.hasMore = true → limit ≤ result.summary.totalLines) := by
  intro result
  have hcount := answered_length rt answers nodes unfiltered happ hlimit hpos hmax readable
  have hmore := fun (h : LogFilesHandler) (hmem : h ∈ nodes) =>
    answered_announces rt answers nodes unfiltered happ hlimit hpos hmax readable hmem
  have htotal : result.summary.totalLines =
      ((passingHosts input (·.nodeName) (nodes.filter answers)).map fun h =>
        (nodeCensus rt input h).length).sum := by
    rw [totalLines_summary collator answers answers nodes happ, census, length_flatMap]
  have hlines : result.lines.length = min limit
      (((passingHosts input (·.nodeName) (nodes.filter answers)).map fun h =>
        (nodeCensus rt input h).length).map (min limit)).sum := by
    rw [search_lines collator _ nodes input (by omega), length_take, length_insertionSort, hcount,
      hlimit, Int.toNat_natCast]
  have hflag := search_hasMore collator (reached rt answers answers) nodes input
  rw [hcount, hlimit] at hflag
  rw [htotal, hlines, min_sum_min]
  refine ⟨rfl, fun hlong => ?_, fun hannounced => ?_⟩
  · by_cases hcut : ∃ h ∈ passingHosts input (·.nodeName) (nodes.filter answers),
        limit < (nodeCensus rt input h).length
    · obtain ⟨h, hpassing, hnode⟩ := hcut
      have hmem : h ∈ nodes := mem_of_mem_filter (mem_of_mem_filter hpassing)
      rw [hflag, any_eq_true.mpr ⟨h, hmem, (hmore h hmem).2 hpassing hnode⟩, Bool.true_or]
    · -- no node has more, so nothing was cut
      have hwhole : (((passingHosts input (·.nodeName) (nodes.filter answers)).map fun h =>
          (nodeCensus rt input h).length).map (min limit)) =
            (passingHosts input (·.nodeName) (nodes.filter answers)).map fun h =>
              (nodeCensus rt input h).length := by
        rw [map_map]
        refine map_congr_left fun h hpassing => ?_
        have hfew : ¬ limit < (nodeCensus rt input h).length := fun hnode =>
          hcut ⟨h, hpassing, hnode⟩
        simp only [Function.comp_apply]
        omega
      rw [hflag, hwhole, decide_eq_true (by omega), Bool.or_true]
  · rw [hflag, Bool.or_eq_true, decide_eq_true_eq] at hannounced
    rcases hannounced with hany | hcut
    · obtain ⟨h, hmem, hanswer⟩ := any_eq_true.mp hany
      obtain ⟨hpassing, hnode⟩ := (hmore h hmem).1 hanswer
      exact hnode.trans (le_sum_of_mem (mem_map_of_mem hpassing))
    · have hcuts := min_sum_min limit ((passingHosts input (·.nodeName)
        (nodes.filter answers)).map fun h => (nodeCensus rt input h).length)
      omega

end Nodes

end Shown

end Runtime

def warnedNode (nodeName : String) : LogFilesHandler :=
  ⟨readerOf "[WARN ] 2024-01-15 10:30:45.123 [c.e.S] low", nodeName⟩

theorem summary_counts_two :
    (search Collator.codePoint (reached Runtime.ascii (fun _ => true) (·.nodeName == "node-1"))
      [warnedNode "node-1", warnedNode "node-2"]
      { app := "app", fromDate := "", toDate := "" }).summary.warnCount = 1 :=
  have hcounts := @summary_counts Runtime.ascii Collator.codePoint (fun _ => true)
    (·.nodeName == "node-1") [warnedNode "node-1", warnedNode "node-2"]
    { app := "app", fromDate := "", toDate := "" } (by decide)
  hcounts.2.2.1.trans (by decide)

theorem shown_of_summary_two :
    (search Collator.codePoint (reached Runtime.ascii (·.nodeName == "node-1")
      (·.nodeName == "node-1")) [warnedNode "node-1", warnedNode "node-2"]
      { app := "app", fromDate := "", toDate := "", limit := some 5 }).lines.length = 1 :=
  have hshown := @shown_of_summary Runtime.ascii Collator.codePoint (·.nodeName == "node-1")
    [warnedNode "node-1", warnedNode "node-2"]
    { app := "app", fromDate := "", toDate := "", limit := some 5 }
    ⟨rfl, rfl, rfl⟩ (by decide) 5 rfl (by decide) (by decide) (by decide)
  hshown.1.trans (by decide)

end NestGateway.LogHistory
