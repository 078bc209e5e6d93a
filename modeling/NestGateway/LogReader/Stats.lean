import Mathlib
import NestGateway.LogReader.MatchList

/-! # Log statistics

The counts per level of the entries of an app. The count of one file groups the
lines on its own, with the level and the timestamp of the open entry as its only
state; it counts the entries that the search finds.
-/

namespace NestGateway.LogReader

open Text List

structure LogStats where
  node : String
  totalLines : Nat := 0
  errorCount : Nat := 0
  warnCount : Nat := 0
  infoCount : Nat := 0
  debugCount : Nat := 0
  fileCount : Nat
  deriving Repr, DecidableEq

/-- The variables of the count of one file. -/
structure Counting where
  parser : Option Parser := none
  currentLevel : String := ""
  currentTimestamp : String := ""
  inEntry : Bool := false
  stats : LogStats

section Runtime

variable (rt : Runtime) (params : SearchParams)

def LogStats.count (stats : LogStats) (level : String) : LogStats :=
  let stats := { stats with totalLines := stats.totalLines + 1 }
  let level := toUpper rt level
  if level = "ERROR" then { stats with errorCount := stats.errorCount + 1 }
  else if level = "WARN" || level = "WARNING" then { stats with warnCount := stats.warnCount + 1 }
  else if level = "INFO" then { stats with infoCount := stats.infoCount + 1 }
  else if level = "DEBUG" then { stats with debugCount := stats.debugCount + 1 }
  else stats

def Counting.flushCount (st : Counting) : Counting :=
  if !st.inEntry then st
  else
    let closed := { st with inEntry := false, currentLevel := "", currentTimestamp := "" }
    if !matchTimeRange rt st.currentTimestamp params then closed
    else { closed with stats := st.stats.count rt st.currentLevel }

/-- The count loop over the lines that are left. -/
def countLoop : List String → Counting → LogStats
  | [], st => (st.flushCount rt params).stats
  | line :: rest, st =>
      if trimSpace line = "" then countLoop rest st
      else
        let parser := st.parser.getD (detectParser line)
        let st := { st with parser := some parser }
        let parsed := parser.parse rt line
        if parsed.timestamp ≠ "" then
          let st := st.flushCount rt params
          countLoop rest
            { st with
              currentLevel := parsed.level
              currentTimestamp := parsed.timestamp
              inEntry := true }
        else if !st.inEntry then
          if matchTimeRange rt "" params then
            countLoop rest
              { st with stats := { st.stats with totalLines := st.stats.totalLines + 1 } }
          else countLoop rest st
        else countLoop rest st

/-- `Reader.countFile`: what is counted before a failed scan stays counted. -/
def Reader.countFile (r : Reader) (stats : LogStats) (f : LogFile) : LogStats :=
  match r.fs.openFile f.fullPath with
  | none => stats
  | some stored => countLoop rt params (scanLines stored.text stored.broken).lines { stats }

def Reader.stats (r : Reader) (app fromDate toDate fromTime toTime nodeName : String) : LogStats :=
  let files := r.listFiles app fromDate toDate
  files.foldl (r.countFile rt { app, fromDate, toDate, fromTime, toTime })
    { node := nodeName, fileCount := files.length }

/-! ## Counting entries -/

/-- An entry as the statistics count it: a line without a timestamp has no level. -/
def tally (stats : LogStats) (e : LogLine) : LogStats :=
  if !matchTimeRange rt e.timestamp params then stats
  else if e.untimed then { stats with totalLines := stats.totalLines + 1 }
  else stats.count rt e.level

/-- The open entry is the one the variables of the count describe. -/
def Counting.Opens (st : Counting) : Option LogLine → Prop
  | none => st.inEntry = false
  | some c => st.inEntry = true ∧ st.currentLevel = c.level ∧ st.currentTimestamp = c.timestamp ∧
      c.timestamp ≠ ""

variable {rt params}

theorem tally_raw (stats : LogStats) {e : LogLine} (h : e.timestamp = "") :
    tally rt params stats e =
      if matchTimeRange rt "" params then { stats with totalLines := stats.totalLines + 1 }
      else stats := by
  have hu : e.untimed = true := decide_eq_true h
  rw [tally, h, hu, if_pos rfl]
  cases matchTimeRange rt "" params with
  | true => rfl
  | false => rfl

theorem flushCount_opens (rt : Runtime) (params : SearchParams) {st : Counting}
    {current : Option LogLine} (h : st.Opens current) :
    (st.flushCount rt params).stats = current.toList.foldl (tally rt params) st.stats ∧
      (st.flushCount rt params).inEntry = false ∧
      (st.flushCount rt params).parser = st.parser := by
  cases current with
  | none =>
      have hclosed : st.inEntry = false := h
      simp [Counting.flushCount, hclosed]
  | some c =>
      obtain ⟨hopen, hlevel, htimestamp, htimed⟩ := h
      have hu : c.untimed = false := decide_eq_false htimed
      simp only [Counting.flushCount, hopen, Bool.not_true, Bool.false_eq_true, if_false,
        Option.toList_some, foldl_cons, foldl_nil, tally, hu, hlevel, htimestamp]
      split
      · exact ⟨rfl, rfl, rfl⟩
      · exact ⟨rfl, rfl, rfl⟩

/-- The loop counts the entries that are not counted yet. -/
theorem countLoop_spec (fileName : String) (lineNo : Nat) (rest : List String) (st : Counting)
    (current : Option LogLine) (h : st.Opens current) :
    countLoop rt params rest st =
      (pendingEntries current
        (parsedAhead rt fileName st.parser (numberedLines lineNo rest))).foldl
        (tally rt params) st.stats := by
  induction rest generalizing lineNo st current with
  | nil =>
      have hahead : parsedAhead rt fileName st.parser (numberedLines lineNo []) = [] := rfl
      rw [countLoop, hahead, pendingEntries_nil]
      exact (flushCount_opens rt params h).1
  | cons line rest ih =>
      rw [countLoop]
      by_cases hblank : trimSpace line = ""
      · rw [if_pos hblank, numberedLines_cons_blank hblank]
        exact ih (lineNo + 1) st current h
      rw [if_neg hblank, numberedLines_cons hblank, parsedAhead_cons]
      generalize st.parser.getD (detectParser line) = parser
      dsimp only
      generalize hline : parsedLine rt fileName parser line (lineNo + 1) = parsed
      have htimestamp : (parser.parse rt line).timestamp = parsed.timestamp := hline ▸ rfl
      have hlevel : (parser.parse rt line).level = parsed.level := hline ▸ rfl
      rw [htimestamp, hlevel]
      have hst : Counting.Opens { st with parser := some parser } current := by
        cases current with
        | none => exact h
        | some c => exact h
      by_cases htimed : parsed.timestamp ≠ ""
      · obtain ⟨hstats, _, hparser⟩ := flushCount_opens rt params hst
        rw [if_pos htimed, pendingEntries_timed current htimed, foldl_append]
        rw [ih (lineNo + 1) _ (some parsed) ⟨rfl, rfl, rfl, htimed⟩]
        dsimp only
        rw [hstats, hparser]
      · rw [if_neg htimed]
        have hraw : parsed.timestamp = "" := not_not.mp htimed
        cases current with
        | none =>
            have hclosed : st.inEntry = false := h
            rw [pendingEntries_raw hraw, foldl_cons, tally_raw _ hraw, hclosed]
            simp only [Bool.not_false, if_true]
            by_cases hrange : matchTimeRange rt "" params = true
            · rw [if_pos hrange, if_pos hrange]
              exact ih (lineNo + 1) _ none rfl
            · rw [if_neg hrange, if_neg hrange]
              exact ih (lineNo + 1) _ none rfl
        | some c =>
            obtain ⟨hopen, hlevel', htimestamp', htimed'⟩ := h
            rw [pendingEntries_continued hraw, hopen]
            simp only [Bool.not_true, Bool.false_eq_true, if_false]
            exact ih (lineNo + 1) _ (some { c with message := c.message ++ "\n" ++ parsed.message })
              ⟨rfl, hlevel', htimestamp', htimed'⟩

def Reader.fileEntries (rt : Runtime) (r : Reader) (f : LogFile) : List LogLine :=
  groupEntries (parsedLines rt f.name (r.fileLines f))

theorem countFile_spec (r : Reader) (stats : LogStats) (f : LogFile) :
    r.countFile rt params stats f = (r.fileEntries rt f).foldl (tally rt params) stats := by
  rw [Reader.countFile, Reader.fileEntries, Reader.fileLines]
  cases r.fs.openFile f.fullPath with
  | none => rfl
  | some stored =>
      dsimp only
      rw [countLoop_spec f.name 0 _ { stats } none rfl, parsedLines_eq]
      rfl

def Reader.entries (rt : Runtime) (r : Reader) (app fromDate toDate : String) : List LogLine :=
  (r.listFiles app fromDate toDate).flatMap (r.fileEntries rt)

/-- The bounds of statistics, as the parameters of a search. -/
def bounds (app fromDate toDate fromTime toTime : String) : SearchParams :=
  { app, fromDate, toDate, fromTime, toTime }

theorem stats_spec (r : Reader) (app fromDate toDate fromTime toTime nodeName : String) :
    r.stats rt app fromDate toDate fromTime toTime nodeName =
      (r.entries rt app fromDate toDate).foldl
        (tally rt (bounds app fromDate toDate fromTime toTime))
        { node := nodeName, fileCount := (r.listFiles app fromDate toDate).length } := by
  have hstep : r.countFile rt (bounds app fromDate toDate fromTime toTime) =
      fun stats f => (r.fileEntries rt f).foldl
        (tally rt (bounds app fromDate toDate fromTime toTime)) stats :=
    funext fun stats => funext fun f => countFile_spec r stats f
  rw [Reader.entries, foldl_flatMap, ← hstep]
  rfl

def InBounds (rt : Runtime) (params : SearchParams) (e : LogLine) : Bool :=
  matchTimeRange rt e.timestamp params

theorem inBounds_congr (params params' : SearchParams) (e : LogLine)
    (hfromDate : params'.fromDate = params.fromDate) (htoDate : params'.toDate = params.toDate)
    (hfromTime : params'.fromTime = params.fromTime) (htoTime : params'.toTime = params.toTime) :
    InBounds rt params' e = InBounds rt params e := by
  simp only [InBounds, matchTimeRange, hasTimeFilter, hfromDate, htoDate, hfromTime, htoTime]

theorem foldl_tally_count (field : LogStats → Nat) (counted : LogLine → Bool)
    (hstep : ∀ stats e, field (tally rt params stats e) = field stats + (counted e).toNat)
    (entries : List LogLine) (stats : LogStats) :
    field (entries.foldl (tally rt params) stats) = field stats + entries.countP counted := by
  induction entries generalizing stats with
  | nil => rfl
  | cons e entries ih =>
      rw [foldl_cons, ih, hstep, countP_cons]
      cases counted e with
      | true => simp only [Bool.toNat_true, if_true]; omega
      | false => simp

theorem count_fields (stats : LogStats) (level : String) :
    stats.count rt level =
      { stats with
        totalLines := stats.totalLines + 1
        errorCount := stats.errorCount + (toUpper rt level == "ERROR").toNat
        warnCount := stats.warnCount +
          (toUpper rt level == "WARN" || toUpper rt level == "WARNING").toNat
        infoCount := stats.infoCount + (toUpper rt level == "INFO").toNat
        debugCount := stats.debugCount + (toUpper rt level == "DEBUG").toNat } := by
  rw [LogStats.count]
  generalize toUpper rt level = upper
  dsimp only
  by_cases herror : upper = "ERROR"
  · subst herror
    rfl
  by_cases hwarn : upper = "WARN"
  · subst hwarn
    rfl
  by_cases hwarning : upper = "WARNING"
  · subst hwarning
    rfl
  by_cases hinfo : upper = "INFO"
  · subst hinfo
    rfl
  by_cases hdebug : upper = "DEBUG"
  · subst hdebug
    rfl
  simp [herror, hwarn, hwarning, hinfo, hdebug]

theorem totalLines_tally (stats : LogStats) (e : LogLine) :
    (tally rt params stats e).totalLines =
      stats.totalLines + (InBounds rt params e).toNat := by
  rw [tally, InBounds]
  cases matchTimeRange rt e.timestamp params with
  | false => rfl
  | true =>
      cases e.untimed with
      | true => rfl
      | false =>
          simp only [Bool.not_true, Bool.false_eq_true, if_false, count_fields]
          rfl

theorem matchList_eq_filter (r : Reader) :
    r.matchList rt params = (r.entries rt params.app params.fromDate params.toDate).filter
      (matchFilters rt · params) := by
  rw [Reader.matchList, Reader.entries, filter_flatMap]
  rfl

theorem search_length (rt : Runtime) (params : SearchParams) (r : Reader) (nodeName : String)
    (readable : ∀ f ∈ r.listFiles params.app params.fromDate params.toDate, r.Readable f)
    (hlimit : ((r.matchList rt params).length : Int) ≤ params.limit) :
    (r.search rt params nodeName).lines.length =
      (r.entries rt params.app params.fromDate params.toDate).countP
        (matchFilters rt · params) := by
  have hall : (r.matchList rt params).length ≤ searchLimit params := by
    rw [searchLimit]
    split
    · omega
    · omega
  rw [search_spec rt params r nodeName readable]
  dsimp only
  rw [take_of_length_le hall, matchList_eq_filter, countP_eq_length_filter]

def Reader.statsOf (rt : Runtime) (r : Reader) (params : SearchParams) (nodeName : String) :
    LogStats :=
  r.stats rt params.app params.fromDate params.toDate params.fromTime params.toTime nodeName

theorem totalLines_statsOf (r : Reader) (nodeName : String) :
    (r.statsOf rt params nodeName).totalLines =
      (r.entries rt params.app params.fromDate params.toDate).countP (InBounds rt params) := by
  rw [Reader.statsOf, stats_spec, foldl_tally_count LogStats.totalLines _ totalLines_tally]
  dsimp only
  rw [Nat.zero_add]
  refine countP_congr fun e _ => ?_
  rw [inBounds_congr params]
  all_goals rfl

/-- The statistics count what a search without filters and with a sufficient limit returns. -/
theorem totalLines_eq_search (r : Reader) (nodeName : String)
    (hlevel : params.level = "") (hkeyword : params.keyword = "") (hafter : params.after = "")
    (readable : ∀ f ∈ r.listFiles params.app params.fromDate params.toDate, r.Readable f)
    (hlimit : ((r.matchList rt params).length : Int) ≤ params.limit) :
    (r.statsOf rt params nodeName).totalLines = (r.search rt params nodeName).lines.length := by
  rw [totalLines_statsOf, search_length rt params r nodeName readable hlimit]
  refine countP_congr fun e _ => ?_
  simp [matchFilters, matchLevel, matchKeyword, matchAfter, hlevel, hkeyword, hafter, InBounds]

end Runtime

/-- A raw line, an entry of two lines and an entry of one. -/
theorem totalLines_eq_search_banner :
    let params : SearchParams := { app := "app", limit := 9 }
    (sampleReader.statsOf Runtime.ascii params "node-1").totalLines =
        (sampleReader.search Runtime.ascii params "node-1").lines.length ∧
      (sampleReader.search Runtime.ascii params "node-1").lines = sampleEntries := by
  have hlimit : ((sampleReader.matchList Runtime.ascii { app := "app", limit := 9 }).length : Int) ≤
      9 := by
    rw [sampleReader_matchList]
    decide
  refine ⟨totalLines_eq_search _ "node-1" rfl rfl rfl sampleReader_readable hlimit, ?_⟩
  rw [search_spec Runtime.ascii { app := "app", limit := 9 } sampleReader "node-1"
    sampleReader_readable]
  dsimp only
  rw [sampleReader_matchList]
  rfl

/-! ## Levels -/

inductive UiLevel where
  | error
  | warn
  | info
  | debug
  deriving Repr, DecidableEq

def UiLevel.value : UiLevel → String
  | error => "ERROR"
  | warn => "WARN"
  | info => "INFO"
  | debug => "DEBUG"

def LogStats.levelCount (stats : LogStats) : UiLevel → Nat
  | .error => stats.errorCount
  | .warn => stats.warnCount
  | .info => stats.infoCount
  | .debug => stats.debugCount

def UiLevel.counts : UiLevel → String → Bool
  | error, upper => upper == "ERROR"
  | warn, upper => upper == "WARN" || upper == "WARNING"
  | info, upper => upper == "INFO"
  | debug, upper => upper == "DEBUG"

/-- What the Unicode tables say about the letters of the levels: an upper-cased character folds
to the class of such a letter exactly if it is the letter. -/
def FoldsLevels (rt : Runtime) : Prop :=
  ∀ level : UiLevel, ∀ x ∈ level.value.toList, ∀ c,
    rt.fold (rt.toUpper c) = rt.fold x ↔ rt.toUpper (rt.toUpper c) = x

section Levels

variable {rt : Runtime} {params : SearchParams}

theorem levelCount_tally (level : UiLevel) (stats : LogStats) (e : LogLine) :
    (tally rt params stats e).levelCount level = stats.levelCount level +
      (InBounds rt params e && !e.untimed && level.counts (toUpper rt e.level)).toNat := by
  rw [tally, InBounds]
  cases matchTimeRange rt e.timestamp params with
  | false => rfl
  | true =>
      cases e.untimed with
      | true => cases level <;> rfl
      | false =>
          simp only [Bool.not_true, Bool.not_false, Bool.false_eq_true, if_false, count_fields,
            Bool.true_and]
          cases level with
          | error => rfl
          | warn => rfl
          | info => rfl
          | debug => rfl

theorem levelCount_statsOf (level : UiLevel) (r : Reader) (nodeName : String) :
    (r.statsOf rt params nodeName).levelCount level =
      (r.entries rt params.app params.fromDate params.toDate).countP fun e =>
        InBounds rt params e && !e.untimed && level.counts (toUpper rt e.level) := by
  have hzero (node : String) (fileCount : Nat) :
      LogStats.levelCount { node, fileCount } level = 0 := by
    cases level <;> rfl
  rw [Reader.statsOf, stats_spec,
    foldl_tally_count (LogStats.levelCount · level) _ (levelCount_tally level), hzero, Nat.zero_add]
  refine countP_congr fun e _ => ?_
  rw [inBounds_congr params]
  all_goals rfl

theorem map_fold_iff {fold up : Char → Char} {xs : List Char}
    (h : ∀ x ∈ xs, ∀ c, fold (up c) = fold x ↔ up (up c) = x) (cs : List Char) :
    (cs.map up).map fold = xs.map fold ↔ (cs.map up).map up = xs := by
  induction cs generalizing xs with
  | nil =>
      cases xs with
      | nil => exact Iff.rfl
      | cons x xs => simp
  | cons c cs ih =>
      cases xs with
      | nil => simp
      | cons x xs =>
          simp only [map_cons, cons.injEq]
          rw [h x mem_cons_self c, ih fun y hy => h y (mem_cons_of_mem x hy)]

/-- The filter and the statistics agree on an upper-cased level. -/
theorem equalFold_level (folds : FoldsLevels rt) (level : UiLevel) (l : String) :
    equalFold rt (toUpper rt l) level.value = (toUpper rt (toUpper rt l) == level.value) := by
  have hiff := map_fold_iff (folds level) l.toList
  rw [Bool.eq_iff_iff, beq_iff_eq, equalFold, beq_iff_eq, toUpper, toUpper, String.toList_ofList]
  rw [← String.toList_inj, String.toList_ofList]
  exact hiff

theorem level_parse (rt : Runtime) (parser : Parser) (line : String) :
    ∃ l, (parser.parse rt line).level = toUpper rt l := by
  cases parser with
  | log4j2 =>
      rw [Parser.parse, parseLog4j2]
      split
      · exact ⟨_, rfl⟩
      · split
        · exact ⟨_, rfl⟩
        · exact ⟨"", rfl⟩
  | json =>
      rw [Parser.parse, parseJSON]
      split
      · exact ⟨"", rfl⟩
      · exact ⟨_, rfl⟩
  | raw => exact ⟨"", rfl⟩

theorem level_parsedLine (rt : Runtime) (fileName : String) (parser : Parser) (line : String)
    (no : Nat) : ∃ l, (parsedLine rt fileName parser line no).level = toUpper rt l :=
  level_parse rt parser line

theorem level_timestampedEntries {lines : List LogLine} {e : LogLine}
    (h : e ∈ timestampedEntries lines) : ∃ l ∈ lines, e.level = l.level := by
  induction lines with
  | nil => cases h
  | cons l lines ih =>
      rw [timestampedEntries_cons] at h
      split at h
      · obtain ⟨m, hm, hlevel⟩ := ih h
        exact ⟨m, mem_cons_of_mem l hm, hlevel⟩
      · rcases mem_cons.mp h with rfl | hmem
        · exact ⟨l, mem_cons_self, rfl⟩
        · obtain ⟨m, hm, hlevel⟩ := ih hmem
          exact ⟨m, mem_cons_of_mem l hm, hlevel⟩

theorem level_entries {r : Reader} {app fromDate toDate : String} {e : LogLine}
    (h : e ∈ r.entries rt app fromDate toDate) : ∃ l, e.level = toUpper rt l := by
  obtain ⟨f, _, hmem⟩ := mem_flatMap.mp h
  obtain ⟨line, hline, hlevel⟩ : ∃ line ∈ parsedLines rt f.name (r.fileLines f),
      e.level = line.level := by
    rcases mem_append.mp hmem with hraw | htimed
    · exact ⟨e, takeWhile_subset _ hraw, rfl⟩
    · exact level_timestampedEntries htimed
  rw [parsedLines] at hline
  split at hline
  · cases hline
  next first no rest _ =>
    obtain ⟨⟨text, no⟩, _, rfl⟩ := mem_map.mp hline
    rw [hlevel]
    exact level_parsedLine rt f.name (detectParser first) text no

/-! ## Against a search for one level -/

/-- The entries within the bounds of one kind, timestamped or not, with an upper-cased level. -/
def leveled (rt : Runtime) (params : SearchParams) (untimed : Bool) (upper : String)
    (entries : List LogLine) : Nat :=
  entries.countP fun e =>
    InBounds rt params e && e.untimed == untimed && toUpper rt e.level == upper

/-- Lines without a timestamp bear none of the levels, and no entry is a `WARNING`; of the level
`WARN`, as many entries of the one kind as of the other. -/
structure LevelsAgree (rt : Runtime) (params : SearchParams) (entries : List LogLine) : Prop where
  error : leveled rt params true "ERROR" entries = 0
  info : leveled rt params true "INFO" entries = 0
  debug : leveled rt params true "DEBUG" entries = 0
  warn : leveled rt params false "WARNING" entries = leveled rt params true "WARN" entries

def levelSearch (params : SearchParams) (level : UiLevel) : SearchParams :=
  { params with
    level := level.value
    keyword := ""
    after := "" }

theorem countP_split (p q : LogLine → Bool) (entries : List LogLine) :
    entries.countP p =
      entries.countP (fun e => p e && q e) + entries.countP (fun e => p e && !q e) := by
  induction entries with
  | nil => rfl
  | cons e entries ih =>
      simp only [countP_cons, ih]
      cases p e <;> cases q e <;> simp <;> omega

/-- What a level search finds: timestamped entries and lines without a timestamp. -/
theorem countP_levelSearch (folds : FoldsLevels rt) (level : UiLevel) (r : Reader) :
    (r.entries rt params.app params.fromDate params.toDate).countP
        (matchFilters rt · (levelSearch params level)) =
      leveled rt params false level.value (r.entries rt params.app params.fromDate params.toDate) +
        leveled rt params true level.value
          (r.entries rt params.app params.fromDate params.toDate) := by
  have hfilter : ∀ e ∈ r.entries rt params.app params.fromDate params.toDate,
      matchFilters rt e (levelSearch params level) = true ↔
        (InBounds rt params e && toUpper rt e.level == level.value) = true := by
    intro e hmem
    obtain ⟨l, hl⟩ := level_entries hmem
    have hne : (level.value = "") = False := by
      cases level <;> simp [UiLevel.value]
    have hlevel : matchLevel rt e (levelSearch params level) =
        (toUpper rt e.level == level.value) := by
      rw [matchLevel, levelSearch, hl, ← equalFold_level folds]
      simp only [hne, decide_false, Bool.false_or]
    have hkeyword : matchKeyword rt e (levelSearch params level) = true := by
      simp [matchKeyword, levelSearch]
    have hafter : matchAfter e (levelSearch params level) = true := by
      simp [matchAfter, levelSearch]
    have hrange : InBounds rt (levelSearch params level) e = InBounds rt params e :=
      inBounds_congr params (levelSearch params level) e rfl rfl rfl rfl
    rw [InBounds] at hrange
    rw [matchFilters, hlevel, hkeyword, hafter, hrange, Bool.and_true, Bool.and_true, Bool.and_comm]
  have htimed : (r.entries rt params.app params.fromDate params.toDate).countP (fun e =>
      (InBounds rt params e && toUpper rt e.level == level.value) && !e.untimed) =
      leveled rt params false level.value
        (r.entries rt params.app params.fromDate params.toDate) := by
    refine countP_congr fun e _ => ?_
    cases e.untimed <;> simp
  have huntimed : (r.entries rt params.app params.fromDate params.toDate).countP (fun e =>
      (InBounds rt params e && toUpper rt e.level == level.value) && e.untimed) =
      leveled rt params true level.value
        (r.entries rt params.app params.fromDate params.toDate) := by
    refine countP_congr fun e _ => ?_
    cases e.untimed <;> simp
  rw [countP_congr hfilter, countP_split _ (·.untimed), htimed, huntimed, Nat.add_comm]

theorem leveled_counts (level : UiLevel) (entries : List LogLine) :
    entries.countP (fun e =>
        InBounds rt params e && !e.untimed && level.counts (toUpper rt e.level)) =
      leveled rt params false level.value entries +
        (if level = .warn then leveled rt params false "WARNING" entries else 0) := by
  cases level with
  | warn =>
      have hwarn : entries.countP (fun e => (InBounds rt params e && !e.untimed &&
          UiLevel.warn.counts (toUpper rt e.level)) && !(toUpper rt e.level == "WARNING")) =
          leveled rt params false "WARN" entries := by
        refine countP_congr fun e _ => ?_
        by_cases h : toUpper rt e.level = "WARNING"
        · simp [h]
        · simp [UiLevel.counts, h]
      have hwarning : entries.countP (fun e => (InBounds rt params e && !e.untimed &&
          UiLevel.warn.counts (toUpper rt e.level)) && toUpper rt e.level == "WARNING") =
          leveled rt params false "WARNING" entries := by
        refine countP_congr fun e _ => ?_
        by_cases h : toUpper rt e.level = "WARNING"
        · simp [UiLevel.counts, h]
        · simp [h]
      rw [countP_split _ (toUpper rt ·.level == "WARNING"), hwarn, hwarning, if_pos rfl,
        Nat.add_comm]
      rfl
  | error | info | debug =>
      rw [if_neg (by decide), Nat.add_zero]
      refine countP_congr fun e _ => ?_
      simp [UiLevel.counts, UiLevel.value]

/-- Each level of the statistics counts what a search for the level returns, with a sufficient
limit, exactly if the entries agree on the levels. -/
theorem level_counts_agree_iff (folds : FoldsLevels rt) (r : Reader) (nodeName : String)
    (readable : ∀ f ∈ r.listFiles params.app params.fromDate params.toDate, r.Readable f)
    (hlimit : ∀ level, ((r.matchList rt (levelSearch params level)).length : Int) ≤ params.limit) :
    (∀ level, (r.statsOf rt params nodeName).levelCount level =
        (r.search rt (levelSearch params level) nodeName).lines.length) ↔
      LevelsAgree rt params (r.entries rt params.app params.fromDate params.toDate) := by
  have hcounts : ∀ level, (r.statsOf rt params nodeName).levelCount level =
      (r.search rt (levelSearch params level) nodeName).lines.length ↔
        (if level = .warn then
          leveled rt params false "WARNING"
            (r.entries rt params.app params.fromDate params.toDate)
        else 0) =
          leveled rt params true level.value
            (r.entries rt params.app params.fromDate params.toDate) := by
    intro level
    have hsearch : (r.search rt (levelSearch params level) nodeName).lines.length =
        (r.entries rt params.app params.fromDate params.toDate).countP
          (matchFilters rt · (levelSearch params level)) :=
      search_length rt (levelSearch params level) r nodeName readable (hlimit level)
    rw [hsearch, countP_levelSearch folds, levelCount_statsOf, leveled_counts]
    exact Nat.add_right_inj
  constructor
  · intro h
    exact ⟨((hcounts .error).mp (h .error)).symm, ((hcounts .info).mp (h .info)).symm,
      ((hcounts .debug).mp (h .debug)).symm, (hcounts .warn).mp (h .warn)⟩
  · intro agree level
    refine (hcounts level).mpr ?_
    cases level with
    | error => exact agree.error.symm
    | warn => exact agree.warn
    | info => exact agree.info.symm
    | debug => exact agree.debug.symm

end Levels

-- the lemmas about the casing of `Char` come with Mathlib as a whole only
theorem foldsLevels_ascii : FoldsLevels Runtime.ascii := by
  intro level x hx c
  have hletters : ∀ level : UiLevel, level.value.toList.all (fun x => x.toLower.toUpper == x) = true
    | .error | .warn | .info | .debug => rfl
  have hletter : x.toLower.toUpper = x := beq_iff_eq.mp (all_eq_true.mp (hletters level) x hx)
  have hfold : Runtime.ascii.fold (Runtime.ascii.toUpper c) = c.toLower :=
    Char.toLower_toUpper_eq_toLower c
  have hupper : Runtime.ascii.toUpper (Runtime.ascii.toUpper c) = c.toUpper :=
    Char.toUpper_toUpper_eq_toUpper c
  rw [hfold, hupper]
  constructor
  · intro h
    rw [← Char.toUpper_toLower_eq_toUpper c, h]
    exact hletter
  · intro h
    rw [← Char.toLower_toUpper_eq_toLower c, h]
    rfl

def readerOf (text : String) : Reader where
  baseDir := "/opt/logs"
  fs :=
    { readDir := fun dir =>
        if dir = "/opt/logs/app" then
          some [⟨"app.2024-01-15.log", false, some ⟨"2024-01-16", 60⟩⟩]
        else none
      openFile := fun _ => some ⟨text, false⟩ }

def leveledReader : Reader :=
  readerOf "[WARN] 2024-01-15 10:30:45.123 [S] low\n[INFO] 2024-01-15 10:30:46.000 [S] up"

def nineLines : SearchParams := { app := "app", limit := 9 }

theorem leveledReader_found :
    (∀ f ∈ leveledReader.listFiles nineLines.app nineLines.fromDate nineLines.toDate,
      leveledReader.Readable f) ∧
      leveledReader.entries Runtime.ascii nineLines.app nineLines.fromDate nineLines.toDate =
        [{ timestamp := "2024-01-15 10:30:45.123", level := "WARN", source := "S"
           message := "low", file := "app.2024-01-15.log", lineNo := 1 },
          { timestamp := "2024-01-15 10:30:46.000", level := "INFO", source := "S"
            message := "up", file := "app.2024-01-15.log", lineNo := 2 }] := by
  decide

theorem leveledReader_few (level : UiLevel) :
    ((leveledReader.matchList Runtime.ascii (levelSearch nineLines level)).length : Int) ≤
      nineLines.limit := by
  have hle : (leveledReader.matchList Runtime.ascii (levelSearch nineLines level)).length ≤
      (leveledReader.entries Runtime.ascii nineLines.app nineLines.fromDate
        nineLines.toDate).length := by
    rw [matchList_eq_filter]
    exact length_filter_le _ _
  rw [leveledReader_found.2] at hle
  exact Int.ofNat_le.mpr (Nat.le_trans hle (Nat.le_add_right 2 7))

theorem level_counts_agree_ready :
    (leveledReader.entries Runtime.ascii nineLines.app nineLines.fromDate
        nineLines.toDate).length = 2 ∧
      ∀ level, (leveledReader.statsOf Runtime.ascii nineLines "node-1").levelCount level =
        (leveledReader.search Runtime.ascii (levelSearch nineLines level)
          "node-1").lines.length := by
  refine ⟨by rw [leveledReader_found.2]; rfl, (level_counts_agree_iff foldsLevels_ascii
    leveledReader "node-1" leveledReader_found.1 leveledReader_few).mpr ?_⟩
  rw [leveledReader_found.2]
  constructor <;> decide

/-- An entry of the level `WARNING` is counted as a warning, and a search for `WARN` misses it. -/
theorem warning_counted_not_found :
    let r := readerOf "[WARNING] 2024-01-15 10:30:45.123 [c.e.S] low"
    let params : SearchParams := { app := "app", limit := 9 }
    (∀ f ∈ r.listFiles "app" "" "", r.Readable f) ∧
      (r.statsOf Runtime.ascii params "node-1").levelCount .warn = 1 ∧
      (r.search Runtime.ascii (levelSearch params .warn) "node-1").lines = [] := by
  decide

end NestGateway.LogReader
