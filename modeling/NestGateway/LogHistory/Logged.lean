import NestGateway.LogHistory.Pagination
import NestGateway.LogHistory.Summary
import NestGateway.Logger.ReadBack

/-! # What the services log is what a search shows

The services write their records with `ecsJsonFormat`, one line each, the
log-streamers read the files and the gateway merges their answers. A page shows
the records, sorted by time, and the summary counts them.
-/

namespace NestGateway.LogHistory

open Text LogReader Logger StableSort List

/-! ## Written files -/

structure Record where
  process : Process
  now : Moment
  info : Info

def Record.line (record : Record) : String := ecsJsonFormat record.process record.now record.info

section Runtime

variable (rt : Runtime)

/-- A record that can be read back, and that is not too long for the scanner. -/
structure Record.Loggable (record : Record) : Prop where
  disjoint : Disjoint record.info
  values : ValuesWellFormed record.info
  inverse : Inverse rt record.process record.now record.info
  short : byteLen record.line < maxScanTokenSize

/-- The file holds the lines of the records and nothing else. -/
structure Written (r : Reader) (f : LogFile) (records : List Record) : Prop where
  opens : r.fs.openFile f.fullPath = some ⟨fileText (records.map Record.line), false⟩
  loggable : ∀ record ∈ records, record.Loggable rt

def Record.entry (fileName : String) (numbered : Record × Nat) : LogReader.LogLine where
  timestamp := numbered.1.now.toISOString
  level := toUpper rt numbered.1.info.level
  source := numbered.1.info.context.getD ""
  message := numbered.1.info.message
  file := fileName
  lineNo := numbered.2

def recordEntries (fileName : String) (records : List Record) : List LogReader.LogLine :=
  (records.zipIdx 1).map (Record.entry rt fileName)

def bareEntry (e : LogReader.LogLine) : LogReader.LogLine := { e with metadata := "" }

def bareLine (l : LogLine) : LogLine := { l with metadata := none }

variable {rt}

theorem Record.Loggable.readBack {record : Record} (h : record.Loggable rt) :
    ReadBack rt record.now record.info record.line :=
  Logger.readBack h.disjoint h.values h.inverse

theorem Written.scannable {r : Reader} {f : LogFile} {records : List Record}
    (h : Written rt r f records) : ∀ line ∈ records.map Record.line, Scannable line := by
  intro line hline
  obtain ⟨record, hmem, rfl⟩ := mem_map.mp hline
  have hrecord := h.loggable record hmem
  exact ⟨hrecord.readBack.single, dropCR_line _ _ _, hrecord.short⟩

theorem Written.readable {r : Reader} {f : LogFile} {records : List Record}
    (h : Written rt r f records) : r.Readable f :=
  ⟨_, h.opens, congrArg Scan.failed (scanLines_fileText h.scannable)⟩

theorem parsedLine_record {record : Record} (h : record.Loggable rt) (fileName : String)
    (no : Nat) :
    bareEntry (parsedLine rt fileName .json record.line no) =
      Record.entry rt fileName (record, no) := by
  have hback := h.readBack
  simp only [parsedLine, Parser.parse, bareEntry, Record.entry, hback.timestamp, hback.level,
    hback.source, hback.message]

theorem Written.fileEntries_eq {r : Reader} {f : LogFile} {records : List Record}
    (h : Written rt r f records) :
    r.fileEntries rt f = lineEntries rt f.name (records.map Record.line) := by
  have hlines : r.fileLines f = records.map Record.line := by
    rw [Reader.fileLines, h.opens]
    exact congrArg Scan.lines (scanLines_fileText h.scannable)
  have hjson : ∀ line ∈ records.map Record.line,
      trimSpace line ≠ "" ∧ detectParser line = .json := by
    intro line hline
    obtain ⟨record, _, rfl⟩ := mem_map.mp hline
    exact ⟨nonblank_line _ _ _, detectParser_line _ _ _⟩
  have htimed : ∀ e ∈ lineEntries rt f.name (records.map Record.line), e.timestamp ≠ "" := by
    intro e he
    obtain ⟨line, hline, heq⟩ := mem_lineEntries he
    obtain ⟨record, hmem, rfl⟩ := mem_map.mp hline
    rw [heq, (h.loggable record hmem).readBack.timestamp]
    exact record.now.nonempty
  rw [Reader.fileEntries, hlines, parsedLines_json rt f.name hjson, groupEntries_timed htimed]

theorem Written.fileEntries {r : Reader} {f : LogFile} {records : List Record}
    (h : Written rt r f records) :
    (r.fileEntries rt f).map bareEntry = recordEntries rt f.name records := by
  rw [h.fileEntries_eq, lineEntries, zipIdx_map, map_map, map_map, recordEntries]
  refine map_congr_left fun numbered hmem => ?_
  have hrecord := h.loggable numbered.1 (fst_mem_of_mem_zipIdx hmem)
  exact parsedLine_record hrecord f.name numbered.2

variable (written : LogFilesHandler → LogFile → List Record) (input : LogSearchInput)

/-- The records of a node in the order of its files, as entries. -/
def loggedEntries (rt : Runtime) (h : LogFilesHandler) : List LogReader.LogLine :=
  (h.reader.listFiles input.app input.fromDate input.toDate).flatMap fun f =>
    recordEntries rt f.name (written h f)

def nodeParams : SearchParams := { inputParams input with after := input.after.getD "" }

/-- The records of a node that a search asks for, as the gateway shows them. -/
def wantedRecords (rt : Runtime) (h : LogFilesHandler) : List LogLine :=
  ((loggedEntries written input rt h).filter (matchFilters rt · (nodeParams input))).map
    (shownLine h.nodeName)

variable {written input}

theorem entries_eq_logged {h : LogFilesHandler}
    (hwritten : ∀ f ∈ h.reader.listFiles input.app input.fromDate input.toDate,
      Written rt h.reader f (written h f)) :
    (h.reader.entries rt input.app input.fromDate input.toDate).map bareEntry =
      loggedEntries written input rt h := by
  rw [Reader.entries, map_flatMap, loggedEntries]
  exact flatMap_congr fun f hf => (hwritten f hf).fileEntries

theorem matchFilters_bare (hkeyword : input.keyword.getD "" = "") (e : LogReader.LogLine) :
    matchFilters rt (bareEntry e) (nodeParams input) = matchFilters rt e (nodeParams input) := by
  have hpass : ∀ e, matchKeyword rt e (nodeParams input) = true := by
    intro e
    simp [matchKeyword, nodeParams, inputParams, hkeyword]
  unfold matchFilters
  rw [hpass, hpass]
  rfl

theorem filter_map_bare (params : SearchParams) (entries : List LogReader.LogLine) :
    (entries.map bareEntry).filter (InBounds rt params) =
      (entries.filter (InBounds rt params)).map bareEntry := by
  have hbounds : InBounds rt params ∘ bareEntry = InBounds rt params := by
    funext e
    unfold InBounds bareEntry
    rw [Function.comp_apply]
  rw [filter_map, hbounds]

/-- A node's matching entries are its wanted records. -/
theorem matchList_eq_wanted (hkeyword : input.keyword.getD "" = "") {h : LogFilesHandler}
    (hwritten : ∀ f ∈ h.reader.listFiles input.app input.fromDate input.toDate,
      Written rt h.reader f (written h f)) :
    ((h.reader.matchList rt (nodeParams input)).map (shownLine h.nodeName)).map bareLine =
      wantedRecords written input rt h := by
  have hentries := @entries_eq_logged rt _ _ _ hwritten
  rw [matchList_eq_filter, wantedRecords, ← hentries, filter_map, map_map, map_map]
  have hsame : (matchFilters rt · (nodeParams input)) ∘ bareEntry =
      (matchFilters rt · (nodeParams input)) :=
    funext fun e => matchFilters_bare hkeyword e
  rw [hsame]
  rfl

/-! ## The page -/

section Search

variable (collator : Collator) (answers : LogFilesHandler → Bool) (nodes : List LogFilesHandler)

def shownNodes (input : LogSearchInput) : List LogFilesHandler :=
  passingHosts input (·.nodeName) (nodes.filter answers)

variable {limit : Nat} (happ : input.app ≠ "") (hlimit : input.pageLimit = limit)
  (hpos : 1 ≤ limit) (hmax : limit ≤ 500)
include happ hlimit hpos hmax

theorem answer_of_readable {h : LogFilesHandler}
    (readable : ∀ f ∈ h.reader.listFiles input.app input.fromDate input.toDate,
      h.reader.Readable f) :
    ∃ more, h.search rt (searchParams input) =
      some ⟨some (((h.reader.matchList rt (nodeParams input)).map answerLine).take limit),
        h.nodeName, more⟩ := by
  have hparams := requestParams_searchParams input hlimit hpos hmax
  have hquery : queryGet (searchParams input) "app" = input.app :=
    congrArg SearchParams.app hparams
  have hcut : searchLimit (nodeParams input) = limit := by
    rw [searchLimit, if_neg (by simp only [nodeParams, inputParams]; omega)]
    simp [nodeParams, inputParams, hlimit]
  have hsearch := search_spec rt (nodeParams input) h.reader h.nodeName readable
  rw [hcut] at hsearch
  simp only [LogFilesHandler.search, hquery, if_neg happ, hparams, ← nodeParams.eq_1, hsearch]
  exact ⟨_, by rw [map_take]⟩

theorem collected_lines
    (readable : ∀ h ∈ nodes, ∀ f ∈ h.reader.listFiles input.app input.fromDate input.toDate,
      h.reader.Readable f) :
    (nodes.flatMap fun h => answeredLines input.node
        ((reached rt answers answers).getSearch h (searchParams input))) =
      ((shownNodes answers nodes input).map fun h =>
        (h.reader.matchList rt (nodeParams input)).map (shownLine h.nodeName)).flatMap
          (take limit) := by
  induction nodes with
  | nil => rfl
  | cons h nodes ih =>
      have hrest := ih fun g hg => readable g (mem_cons_of_mem h hg)
      obtain ⟨more, hanswer⟩ := @answer_of_readable rt _ _ happ hlimit hpos hmax _
        (readable h mem_cons_self)
      rw [flatMap_cons, hrest]
      unfold shownNodes
      rw [filter_cons]
      cases hanswers : answers h
      · simp [reached, hanswers, answeredLines]
      · cases hpass : passesNode input.node h.nodeName
        · simp [reached, hanswers, hanswer, answeredLines, passingHosts_cons, hpass]
        · have hshown : shownLine h.nodeName = tagLine h.nodeName ∘ answerLine := rfl
          simp [reached, hanswers, hanswer, answeredLines, passingHosts_cons, hpass, map_take,
            hshown]

/-- What the services log is what a search shows: of the records that pass the filters a page
has the first ones by time, and the summary counts all within the bounds, by level. -/
theorem logged_shown (hkeyword : input.keyword.getD "" = "")
    (hwritten : ∀ h ∈ nodes, ∀ f ∈ h.reader.listFiles input.app input.fromDate input.toDate,
      Written rt h.reader f (written h f))
    (ordered : ∀ h ∈ shownNodes answers nodes input,
      (wantedRecords written input rt h).Pairwise (byTimestamp collator)) :
    let result := search collator (reached rt answers answers) nodes input
    let records := (shownNodes answers nodes input).flatMap fun h =>
      (loggedEntries written input rt h).filter (InBounds rt (inputParams input))
    result.lines.map bareLine =
        (((shownNodes answers nodes input).flatMap (wantedRecords written input rt)).insertionSort
          (byTimestamp collator)).take limit ∧
      result.summary.totalLines = records.length ∧
      result.summary.errorCount = records.countP (countsAs rt .error) ∧
      result.summary.warnCount = records.countP (countsAs rt .warn) ∧
      result.summary.infoCount = records.countP (countsAs rt .info) := by
  intro result records
  have hshownNode : ∀ h ∈ shownNodes answers nodes input, h ∈ nodes := fun h hmem =>
    mem_of_mem_filter (mem_of_mem_filter hmem)
  have hreadable : ∀ h ∈ nodes, ∀ f ∈ h.reader.listFiles input.app input.fromDate input.toDate,
      h.reader.Readable f := fun h hh f hf => (hwritten h hh f hf).readable
  have hcensus : (census rt (nodes.filter answers) input).map bareEntry = records := by
    rw [census, map_flatMap]
    refine flatMap_congr fun h hmem => ?_
    rw [nodeCensus, ← filter_map_bare, entries_eq_logged (hwritten h (hshownNode h hmem))]
  have hcount : ∀ level, records.countP (countsAs rt level) =
      (census rt (nodes.filter answers) input).countP (countsAs rt level) := by
    intro level
    rw [← hcensus, countP_map]
    rfl
  obtain ⟨herror, hwarn, hinfo⟩ := @levels_summary rt collator answers answers nodes input happ
  refine ⟨?_, ?_, herror.trans (hcount .error).symm, hwarn.trans (hcount .warn).symm,
    hinfo.trans (hcount .info).symm⟩
  · rw [search_lines collator _ nodes input (by omega), hlimit, Int.toNat_natCast,
      collected_lines answers nodes happ hlimit hpos hmax hreadable,
      take_insertionSort_flatMap_take (byTimestamp_trans collator) (byTimestamp_total collator),
      map_take, map_insertionSort (byTimestamp collator) (byTimestamp collator)]
    · rw [map_flatten, map_map, ← flatMap_def]
      congr 2
      refine flatMap_congr fun h hmem => ?_
      exact matchList_eq_wanted hkeyword (hwritten h (hshownNode h hmem))
    · exact fun _ _ _ _ => Iff.rfl
    · intro part hpart
      obtain ⟨h, hmem, rfl⟩ := mem_map.mp hpart
      have hsorted := ordered h hmem
      rw [← matchList_eq_wanted hkeyword (hwritten h (hshownNode h hmem)), pairwise_map] at hsorted
      exact hsorted
  · rw [totalLines_summary collator answers answers nodes happ, ← hcensus, length_map]

end Search

end Runtime

/-- The records of two requests, on a node that writes them to the file of the day. -/
def requestRecord : Record := ⟨⟨1, none⟩, noon, request⟩

def slowRecord : Record :=
  ⟨⟨1, none⟩, { noon with toISOString := "2024-01-15T03:00:01.000Z", nonempty := by decide },
    { request with level := "warn" }⟩

def requestNode : LogFilesHandler :=
  ⟨readerOf (fileText [requestRecord.line, slowRecord.line]), "node-1"⟩

theorem loggable_requests :
    ∀ record ∈ [requestRecord, slowRecord], record.Loggable Runtime.ascii := by
  have hvalues : ValuesWellFormed request := fun field hfield =>
    (exchangeable_request field hfield).wellFormed
  intro record hrecord
  rcases mem_pair.mp hrecord with rfl | rfl
  · exact ⟨disjoint_request, hvalues,
      inverse_of_exchangeable disjoint_request.apart rfl exchangeable_request,
      Nat.lt_of_le_of_lt (byteLen_le _) (by decide +kernel)⟩
  · exact ⟨disjoint_request, hvalues,
      inverse_of_exchangeable disjoint_request.apart rfl exchangeable_request,
      Nat.lt_of_le_of_lt (byteLen_le _) (by decide +kernel)⟩

theorem written_request : ∀ h ∈ [requestNode], ∀ f ∈ h.reader.listFiles "app" "" "",
    Written Runtime.ascii h.reader f [requestRecord, slowRecord] := by
  intro h hmem f _
  rw [mem_singleton.mp hmem]
  exact ⟨rfl, loggable_requests⟩

/-- Both are shown in the order of their times, and each is counted by its level. -/
theorem logged_shown_request :
    let input : LogSearchInput := { app := "app", fromDate := "", toDate := "" }
    let result := search Collator.codePoint (reached Runtime.ascii (fun _ => true) (fun _ => true))
      [requestNode] input
    (result.lines.map bareLine).map (·.level) = ["INFO", "WARN"] ∧
      result.summary.totalLines = 2 ∧ result.summary.warnCount = 1 ∧
      result.summary.infoCount = 1 := by
  obtain ⟨hlines, htotal, _, hwarn, hinfo⟩ := @logged_shown Runtime.ascii
    (fun _ _ => [requestRecord, slowRecord]) { app := "app", fromDate := "", toDate := "" }
    Collator.codePoint (fun _ => true) [requestNode] 100 (by decide) rfl (by decide) (by decide)
    rfl written_request (by
      intro h hmem
      rw [mem_singleton.mp (mem_of_mem_filter (mem_of_mem_filter hmem))]
      decide)
  refine ⟨?_, ?_, ?_, ?_⟩
  · rw [hlines]
    decide
  · exact htotal.trans (by decide)
  · exact hwarn.trans (by decide)
  · exact hinfo.trans (by decide)

end NestGateway.LogHistory
