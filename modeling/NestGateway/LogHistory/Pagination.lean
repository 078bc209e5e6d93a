import NestGateway.Core.CursorPaging
import NestGateway.LogHistory.Merge
import NestGateway.LogHistory.Streamer
import NestGateway.LogReader.ReadErrors

/-! # Browsing the log history

The search panel asks for a first page without a cursor and, while there is
more, for the next one after the timestamp of the last line shown. Over a fixed
set of log files this is the paging of `CursorPaging`, with the timestamps as
keys and untimestamped lines undated: a node reaches the entries of the files
that it can read, and those of a file that breaks while the limit is reached
before the error. So the pages hold every matching entry once when the first
request reaches all of them and they leave the reach page by page.
-/

namespace NestGateway.LogHistory

open Text LogReader List
open JsString (truthy truthy_none truthy_empty truthy_of_ne)

section Runtime

variable (rt : Runtime) (collator : Collator)
variable (getStats : LogFilesHandler → Query → Option LogStatsResponse)
variable (nodes : List LogFilesHandler) (input : LogSearchInput)

def streamers : Upstream LogFilesHandler where
  getSearch h q := h.search rt q
  getStats := getStats

def historyPage (after : Option String) : LogSearchResult :=
  search collator (streamers rt getStats) nodes { input with after }

/-- `handleNextPage`: go on while there is more and the last line has a timestamp. -/
def nextPage (result : LogSearchResult) : Option String :=
  if result.hasMore then truthy (result.lines.getLast?.bind (·.timestamp)) else none

/-- The pages shown from a cursor on, with at most `fuel` requests. -/
def browse : Nat → Option String → List (List LogLine)
  | 0, _ => []
  | fuel + 1, after =>
      let result := historyPage rt collator getStats nodes input after
      result.lines ::
        match nextPage result with
        | none => []
        | some cursor => browse fuel (some cursor)

def wantedNodes : List LogFilesHandler := passingHosts input (·.nodeName) nodes

def shownLine (node : String) (l : LogReader.LogLine) : LogLine := tagLine node (answerLine l)

def nodeEntries (h : LogFilesHandler) : List LogLine :=
  (h.reader.matchList rt (inputParams input)).map (shownLine h.nodeName)

def allEntries : List LogLine := (wantedNodes nodes input).flatMap (nodeEntries rt input)

def pageSize : Nat := input.pageLimit.toNat

def cursorParams (cursor : String) : SearchParams := { inputParams input with after := cursor }

/-- The files whose entries a search at a cursor finds: those that can be read, and those that break
after the limit is reached. -/
def foundFiles (h : LogFilesHandler) (cursor : String) : List LogFile :=
  h.reader.heldFiles rt (cursorParams input cursor) (pageSize input)
    (h.reader.listFiles input.app input.fromDate input.toDate) 0

/-- The entries that a search at a cursor can come to; there is none without an app. -/
def foundEntries (h : LogFilesHandler) (cursor : String) : List LogLine :=
  if input.app = "" then []
  else (h.reader.filesMatches rt (cursorParams input cursor) (foundFiles rt input h cursor)).map
    (shownLine h.nodeName)

/-- A node announces more from `pageSize` entries on, except when there are exactly that many and
the last one is an untimestamped line that ends the last file. -/
def nodeAnnounces (h : LogFilesHandler) (cursor : String) : Bool :=
  decide (input.app ≠ "") && h.reader.announces rt (cursorParams input cursor) (pageSize input)
    (foundFiles rt input h cursor)

/-- A node as a server of pages, with its entries told apart from those of other nodes. -/
def nodeServer (h : LogFilesHandler) (index : Nat) :
    CursorPaging.Server (LogLine × Nat) String where
  entries := (nodeEntries rt input h).map (·, index)
  reach cursor := (foundEntries rt input h cursor).map (·, index)
  more cursor := nodeAnnounces rt input h cursor

def servers : List (CursorPaging.Server (LogLine × Nat) String) :=
  (wantedNodes nodes input).zipIdx.map fun node => nodeServer rt input node.1 node.2

abbrev timestampKey (e : LogLine × Nat) : String := e.1.sortKey

abbrev timestampOrder (e d : LogLine × Nat) : Prop := byTimestamp collator e.1 d.1

/-- The first request finds every entry, and from page to page as many entries as a page holds are
found no more: those which come first among the first ones of every node. -/
def Browsable : Prop :=
  CursorPaging.outstanding (servers rt nodes input) "" =
      CursorPaging.listed (servers rt nodes input) ∧
    CursorPaging.Separated timestampKey (timestampOrder collator) (pageSize input)
      (servers rt nodes input) ""

/-- The timestamped matches of every node are in timestamp order. -/
def InTimestampOrder : Prop :=
  ∀ h ∈ wantedNodes nodes input,
    ((nodeEntries rt input h).filter ("" < ·.sortKey)).Pairwise (·.sortKey ≤ ·.sortKey)

/-! ## A node is a lawful server -/

theorem sortKey_shownLine (node : String) (l : LogReader.LogLine) :
    (shownLine node l).sortKey = l.timestamp := by
  by_cases h : l.timestamp = ""
  · simp [shownLine, tagLine, answerLine, LogLine.sortKey, omitEmpty, h]
  · simp [shownLine, tagLine, answerLine, LogLine.sortKey, omitEmpty, h]

theorem nodeEntries_nodup (h : LogFilesHandler) : (nodeEntries rt input h).Nodup := by
  have hpos := matchList_positions_nodup rt (inputParams input) h.reader
  apply Nodup.of_map fun l : LogLine => (l.file, l.lineNo)
  rwa [nodeEntries, map_map]

theorem foundEntries_sublist (h : LogFilesHandler) (cursor : String) :
    foundEntries rt input h cursor <+ nodeEntries rt input h := by
  rw [foundEntries]
  split
  · exact nil_sublist _
  · have hparams : cursorParams input "" = inputParams input := rfl
    have hfound := heldMatches_antitone rt (inputParams input) (r := h.reader)
      (bot_le : "" ≤ cursor) (pageSize input)
      (h.reader.listFiles input.app input.fromDate input.toDate) (le_refl 0)
    refine (hfound.trans ?_).map _
    exact (heldFiles_sublist rt _ _ _ _).flatMap _

theorem foundEntries_antitone (h : LogFilesHandler) {c c' : String} (hle : c ≤ c') :
    foundEntries rt input h c' <+ foundEntries rt input h c := by
  rw [foundEntries, foundEntries]
  split
  · exact Sublist.refl _
  · exact (heldMatches_antitone rt (inputParams input) hle _ _ (le_refl 0)).map _

theorem kept_foundEntries {h : LogFilesHandler} {cursor : String} {l : LogLine}
    (hl : l ∈ foundEntries rt input h cursor) : l.sortKey = "" ∨ cursor < l.sortKey := by
  rw [foundEntries] at hl
  split at hl
  · cases hl
  · obtain ⟨e, he, rfl⟩ := mem_map.mp hl
    obtain ⟨f, _, hmem⟩ := mem_flatMap.mp he
    rw [sortKey_shownLine]
    exact kept_of_matchFilters rt (inputParams input) (mem_filter.mp hmem).2

theorem length_foundEntries (h : LogFilesHandler) (cursor : String) (happ : input.app ≠ "") :
    (foundEntries rt input h cursor).length =
      (h.reader.filesMatches rt (cursorParams input cursor)
        (foundFiles rt input h cursor)).length := by
  rw [foundEntries, if_neg happ, length_map]

theorem map_fst_servers (f : LogFilesHandler → List LogLine)
    (g : CursorPaging.Server (LogLine × Nat) String → List (LogLine × Nat))
    (h : ∀ node index, g (nodeServer rt input node index) = (f node).map (·, index)) :
    ((servers rt nodes input).flatMap g).map Prod.fst = (wantedNodes nodes input).flatMap f := by
  have hnodes : ((wantedNodes nodes input).zipIdx.map Prod.fst) = wantedNodes nodes input :=
    zipIdx_map_fst 0 _
  conv_rhs => rw [← hnodes]
  rw [servers, flatMap_map, map_flatMap, flatMap_map]
  refine flatMap_congr fun node _ => ?_
  rw [h, map_map]
  exact map_id _

theorem listed_servers :
    (CursorPaging.listed (servers rt nodes input)).map Prod.fst = allEntries rt nodes input :=
  map_fst_servers rt nodes input (nodeEntries rt input) (·.entries) fun _ _ => rfl

theorem listed_nodup : (CursorPaging.listed (servers rt nodes input)).Nodup := by
  have hindices : ((wantedNodes nodes input).zipIdx.map Prod.snd).Nodup :=
    nodup_zipIdx_map_snd _
  rw [CursorPaging.listed, servers, flatMap_map, nodup_flatMap]
  refine ⟨fun node _ => (nodeEntries_nodup rt input node.1).map fun l l' h => ?_, ?_⟩
  · exact congrArg Prod.fst h
  · refine (pairwise_map.mp hindices).imp fun hne e he he' => hne ?_
    obtain ⟨_, _, rfl⟩ := mem_map.mp he
    obtain ⟨_, _, heq⟩ := mem_map.mp he'
    exact (congrArg Prod.snd heq).symm

theorem lawful (hpos : 1 ≤ input.pageLimit) :
    CursorPaging.Lawful timestampKey (pageSize input) (servers rt nodes input) := by
  have hsize : 1 ≤ pageSize input := by rw [pageSize]; omega
  have hserver : ∀ s ∈ servers rt nodes input, ∃ h i, s = nodeServer rt input h i := by
    intro s hs
    obtain ⟨node, _, rfl⟩ := mem_map.mp hs
    exact ⟨node.1, node.2, rfl⟩
  refine ⟨?_, fun s hs cursor => ?_, fun s hs cursor e he => ?_, fun s hs c c' hle => ?_,
    fun s hs cursor hcut => ?_, fun s hs cursor hmore => ?_⟩
  · exact listed_nodup rt nodes input
  all_goals obtain ⟨h, i, rfl⟩ := hserver s hs
  · exact (foundEntries_sublist rt input h cursor).map _
  · obtain ⟨l, hl, rfl⟩ := mem_map.mp he
    exact kept_foundEntries rt input hl
  · exact (foundEntries_antitone rt input h hle).map _
  · rw [nodeServer, length_map] at hcut
    have happ : input.app ≠ "" := by
      intro happ
      rw [foundEntries, if_pos happ] at hcut
      exact absurd hcut (Nat.not_lt_zero _)
    rw [length_foundEntries rt input h cursor happ] at hcut
    show nodeAnnounces rt input h cursor = true
    rw [nodeAnnounces, decide_eq_true happ, Bool.true_and]
    exact announces_of_longer rt _ hcut
  · have hmore : nodeAnnounces rt input h cursor = true := hmore
    rw [nodeAnnounces, Bool.and_eq_true] at hmore
    rw [nodeServer, length_map, length_foundEntries rt input h cursor (of_decide_eq_true hmore.1)]
    exact le_of_announces rt _ hmore.2

/-! ## The pages -/

variable {nodes input}

theorem handler_search (hpos : 1 ≤ input.pageLimit) (hmax : input.pageLimit ≤ 500)
    (happ : input.app ≠ "") (h : LogFilesHandler) (after : Option String) :
    h.search rt (searchParams { input with after }) =
      some ⟨some (((h.reader.filesMatches rt (cursorParams input (after.getD ""))
          (foundFiles rt input h (after.getD ""))).take (pageSize input)).map answerLine),
        h.nodeName, nodeAnnounces rt input h (after.getD "")⟩ := by
  have hsize : input.pageLimit = (pageSize input : Int) := by
    rw [pageSize]; omega
  have hparams : requestParams (searchParams { input with after }) =
      cursorParams input (after.getD "") :=
    requestParams_searchParams { input with after } hsize (by omega) (by omega)
  have hquery : queryGet (searchParams { input with after }) "app" = input.app :=
    congrArg SearchParams.app hparams
  have hlimit : searchLimit (cursorParams input (after.getD "")) = pageSize input := by
    rw [searchLimit, if_neg (by simp only [cursorParams, inputParams]; omega)]
    rfl
  have hzero : ([] : List LogReader.LogLine).length < pageSize input := by
    rw [length_nil, pageSize]
    omega
  have hfound := searchFiles_held rt (cursorParams input (after.getD "")) (r := h.reader)
    (h.reader.listFiles input.app input.fromDate input.toDate) hzero false
  have hsearch : h.reader.search rt (cursorParams input (after.getD "")) h.nodeName =
      ⟨(h.reader.filesMatches rt (cursorParams input (after.getD ""))
          (foundFiles rt input h (after.getD ""))).take (pageSize input), h.nodeName,
        nodeAnnounces rt input h (after.getD "")⟩ := by
    rw [Reader.search, hlimit, nodeAnnounces, decide_eq_true happ, Bool.true_and]
    exact congrArg (fun found => SearchResult.mk found.1 h.nodeName found.2) hfound
  simp only [LogFilesHandler.search, hquery, if_neg happ, hparams, hsearch]

theorem handler_search_none (hpos : 1 ≤ input.pageLimit) (hmax : input.pageLimit ≤ 500)
    (happ : input.app = "") (h : LogFilesHandler) (after : Option String) :
    h.search rt (searchParams { input with after }) = none := by
  have hsize : input.pageLimit = (pageSize input : Int) := by
    rw [pageSize]; omega
  have hquery : queryGet (searchParams { input with after }) "app" = input.app :=
    congrArg SearchParams.app
      (requestParams_searchParams { input with after } hsize (by omega) (by omega))
  simp only [LogFilesHandler.search, hquery, if_pos happ]

theorem unwanted_answer {h : LogFilesHandler} (hp : passesNode input.node h.nodeName = false)
    (q : Query) :
    answeredLines input.node (h.search rt q) = [] ∧
      answeredMore input.node (h.search rt q) = false := by
  rw [LogFilesHandler.search]
  dsimp only
  split
  · exact ⟨rfl, rfl⟩
  · simp only [answeredLines, answeredMore, Reader.search, hp]
    exact ⟨rfl, rfl⟩

theorem wanted_answer (hpos : 1 ≤ input.pageLimit) (hmax : input.pageLimit ≤ 500)
    {h : LogFilesHandler} (hp : passesNode input.node h.nodeName = true) (after : Option String) :
    answeredLines input.node (h.search rt (searchParams { input with after })) =
        (foundEntries rt input h (after.getD "")).take (pageSize input) ∧
      answeredMore input.node (h.search rt (searchParams { input with after })) =
        nodeAnnounces rt input h (after.getD "") := by
  by_cases happ : input.app = ""
  · rw [handler_search_none rt hpos hmax happ, foundEntries, if_pos happ, nodeAnnounces,
      decide_eq_false (not_not.mpr happ)]
    exact ⟨take_nil.symm, rfl⟩
  · rw [handler_search rt hpos hmax happ, answeredLines, answeredMore, if_pos hp, hp, foundEntries,
      if_neg happ, ← map_take, Option.getD_some, map_map]
    exact ⟨rfl, Bool.true_and _⟩

theorem answered_lines (hpos : 1 ≤ input.pageLimit) (hmax : input.pageLimit ≤ 500)
    (after : Option String) :
    (nodes.flatMap fun h => answeredLines input.node
        (h.search rt (searchParams { input with after }))) =
      (CursorPaging.gathered (pageSize input) (servers rt nodes input) (after.getD "")).map
        Prod.fst := by
  rw [CursorPaging.gathered, map_fst_servers rt nodes input
    (fun h => (foundEntries rt input h (after.getD "")).take (pageSize input)) _
    fun h index => map_take.symm, wantedNodes, passingHosts]
  generalize nodes = hosts
  induction hosts with
  | nil => rfl
  | cons h hosts ih =>
      cases hp : passesNode input.node h.nodeName with
      | false => rw [flatMap_cons, (unwanted_answer rt hp _).1, nil_append, ih, filter_cons,
          if_neg (by rw [hp]; exact Bool.false_ne_true)]
      | true => rw [flatMap_cons, ih, (wanted_answer rt hpos hmax hp after).1, filter_cons,
          if_pos hp, flatMap_cons]

theorem any_servers (p : CursorPaging.Server (LogLine × Nat) String → Bool)
    (f : LogFilesHandler → Bool) (h : ∀ node index, p (nodeServer rt input node index) = f node) :
    (servers rt nodes input).any p = (wantedNodes nodes input).any f := by
  have hnodes : ((wantedNodes nodes input).zipIdx.map Prod.fst) = wantedNodes nodes input :=
    zipIdx_map_fst 0 _
  conv_rhs => rw [← hnodes]
  rw [servers, any_map, any_map]
  exact any_congr rfl fun node => h node.1 node.2

theorem answered_more (hpos : 1 ≤ input.pageLimit) (hmax : input.pageLimit ≤ 500)
    (after : Option String) :
    (nodes.any fun h => answeredMore input.node
        (h.search rt (searchParams { input with after }))) =
      (servers rt nodes input).any (·.more (after.getD "")) := by
  rw [any_servers rt _ (nodeAnnounces rt input · (after.getD "")) fun _ _ => rfl, wantedNodes,
    passingHosts, any_filter, Bool.eq_iff_iff, any_eq_true, any_eq_true]
  refine exists_congr fun h => and_congr_right fun _ => ?_
  cases hp : passesNode input.node h.nodeName with
  | false => rw [(unwanted_answer rt hp _).2, Bool.false_and]
  | true => rw [(wanted_answer rt hpos hmax hp after).2, Bool.true_and]

/-- A page of the history is a page of the paging. -/
theorem historyPage_lines (hpos : 1 ≤ input.pageLimit) (hmax : input.pageLimit ≤ 500)
    (after : Option String) :
    (historyPage rt collator getStats nodes input after).lines =
      (CursorPaging.page (timestampOrder collator) (pageSize input) (servers rt nodes input)
        (after.getD "")).map Prod.fst := by
  have hlines := search_lines collator (streamers rt getStats) nodes { input with after }
    (by simp only [LogSearchInput.pageLimit] at *; omega)
  have hsort := map_insertionSort (timestampOrder collator) (byTimestamp collator) Prod.fst
    (CursorPaging.gathered (pageSize input) (servers rt nodes input) (after.getD ""))
    fun _ _ _ _ => Iff.rfl
  rw [historyPage, hlines, CursorPaging.page, map_take, hsort,
    ← answered_lines rt hpos hmax after]
  rfl

theorem historyPage_hasMore (hpos : 1 ≤ input.pageLimit) (hmax : input.pageLimit ≤ 500)
    (after : Option String) :
    (historyPage rt collator getStats nodes input after).hasMore =
      CursorPaging.hasMore (pageSize input) (servers rt nodes input) (after.getD "") := by
  have hsize : input.pageLimit = (pageSize input : Int) := by
    rw [pageSize]; omega
  have hmore := search_hasMore collator (streamers rt getStats) nodes { input with after }
  have hlines := congrArg length (@answered_lines rt nodes input hpos hmax after)
  have hany := @answered_more rt nodes input hpos hmax after
  rw [length_map] at hlines
  rw [historyPage, hmore, CursorPaging.hasMore, ← hlines, ← hany]
  congr 1
  rw [decide_eq_decide]
  exact hsize ▸ Int.ofNat_lt

theorem truthy_eq_filter (s : Option String) :
    truthy s = (some (s.getD "")).filter (⊥ < ·) := by
  have hbot : ∀ t : String, t ≠ "" → decide (⊥ < t) = true :=
    fun t ht => decide_eq_true (bot_lt_iff_ne_bot.mpr ht)
  have hempty : decide (⊥ < "") = false := decide_eq_false (lt_irrefl "")
  cases s with
  | none => rw [truthy_none, Option.getD_none, Option.filter_some, hempty]; rfl
  | some t =>
      rw [Option.getD_some, Option.filter_some]
      by_cases ht : t = ""
      · rw [ht, truthy_empty, hempty]; rfl
      · rw [truthy_of_ne ht, hbot t ht]; rfl

/-- The panel asks for the next page of the paging. -/
theorem nextPage_historyPage (hpos : 1 ≤ input.pageLimit) (hmax : input.pageLimit ≤ 500)
    (after : Option String) :
    nextPage (historyPage rt collator getStats nodes input after) =
      CursorPaging.nextCursor timestampKey (timestampOrder collator) (pageSize input)
        (servers rt nodes input) (after.getD "") := by
  rw [nextPage, historyPage_hasMore rt collator getStats hpos hmax,
    historyPage_lines rt collator getStats hpos hmax, CursorPaging.nextCursor, getLast?_map]
  split
  · cases (CursorPaging.page (timestampOrder collator) (pageSize input) (servers rt nodes input)
      (after.getD "")).getLast? with
    | none => rfl
    | some last => exact truthy_eq_filter last.1.timestamp
  · rfl

theorem browse_eq_pages (hpos : 1 ≤ input.pageLimit) (hmax : input.pageLimit ≤ 500) (fuel : Nat)
    (after : Option String) :
    browse rt collator getStats nodes input fuel after =
      (CursorPaging.pages timestampKey (timestampOrder collator) (pageSize input)
        (servers rt nodes input) fuel (after.getD "")).map (map Prod.fst) := by
  induction fuel generalizing after with
  | zero => rfl
  | succ fuel ih =>
      simp only [browse, CursorPaging.pages, historyPage_lines rt collator getStats hpos hmax,
        nextPage_historyPage rt collator getStats hpos hmax]
      cases CursorPaging.nextCursor timestampKey (timestampOrder collator) (pageSize input)
        (servers rt nodes input) (after.getD "") with
      | none => rfl
      | some cursor => simp only [ih (some cursor), Option.getD_some, map_cons]

theorem allEntries_nodup (hnames : (nodes.map (·.nodeName)).Nodup) :
    (allEntries rt nodes input).Nodup := by
  rw [allEntries, nodup_flatMap]
  refine ⟨fun h _ => nodeEntries_nodup rt input h, ?_⟩
  refine ((pairwise_map.mp hnames).sublist filter_sublist).imp fun hne l hl hl' => hne ?_
  obtain ⟨_, _, rfl⟩ := mem_map.mp hl
  obtain ⟨_, _, heq⟩ := mem_map.mp hl'
  exact (congrArg LogLine.node heq).symm

theorem perm_of_map_perm {α β : Type} {f : α → β} {xs ys : List α} (subset : xs ⊆ ys)
    (nodup : (ys.map f).Nodup) (h : (xs.map f).Perm (ys.map f)) : xs.Perm ys := by
  have hinj := inj_on_of_nodup_map nodup
  have hxs : xs.Nodup := Nodup.of_map f (h.nodup_iff.mpr nodup)
  refine (perm_ext_iff_of_nodup hxs (Nodup.of_map f nodup)).mpr fun a => ⟨fun ha => subset ha, ?_⟩
  intro ha
  obtain ⟨b, hb, heq⟩ := mem_map.mp (h.mem_iff.mpr (mem_map_of_mem ha))
  exact hinj (subset hb) ha heq ▸ hb

/-- Enough requests show every matching entry of every node exactly once if the first request finds
all of them and they are found no more page by page; and, as nodes are told apart by their names,
only then. -/
theorem browse_complete_iff (hpos : 1 ≤ input.pageLimit) (hmax : input.pageLimit ≤ 500)
    {fuel : Nat} (hfuel : ((allEntries rt nodes input).filter ("" < ·.sortKey)).length < fuel) :
    (Browsable rt collator nodes input →
        (browse rt collator getStats nodes input fuel none).flatten.Perm
          (allEntries rt nodes input)) ∧
      ((nodes.map (·.nodeName)).Nodup →
        (browse rt collator getStats nodes input fuel none).flatten.Perm
          (allEntries rt nodes input) → Browsable rt collator nodes input) := by
  have hlisted := listed_servers rt nodes input
  have hlawful := lawful rt nodes input hpos
  have hlength : ((CursorPaging.listed (servers rt nodes input)).filter
      (⊥ < timestampKey ·)).length < fuel := by
    have hcount := congrArg length (filter_map (f := Prod.fst) (p := fun l => "" < l.sortKey)
      (l := CursorPaging.listed (servers rt nodes input)))
    rw [hlisted, length_map] at hcount
    exact hcount ▸ hfuel
  have hiff := CursorPaging.pages_perm_iff hlawful
    (fun a b c => byTimestamp_trans collator a.1 b.1 c.1)
    (fun a b => byTimestamp_total collator a.1 b.1) (by rw [pageSize]; omega) hlength
  have hbrowse : (browse rt collator getStats nodes input fuel none).flatten =
      (CursorPaging.pages timestampKey (timestampOrder collator) (pageSize input)
        (servers rt nodes input) fuel ⊥).flatten.map Prod.fst := by
    rw [browse_eq_pages rt collator getStats hpos hmax, map_flatten]
    rfl
  rw [hbrowse, ← hlisted]
  refine ⟨fun hb => (hiff.mpr hb).map Prod.fst, fun hnames hall => hiff.mp ?_⟩
  have hsub := (CursorPaging.pages_paging (r := timestampOrder collator) hlawful hlength).subset
    hlawful
  exact perm_of_map_perm (fun e he => (CursorPaging.outstanding_sublist hlawful ⊥).subset (hsub he))
    (hlisted ▸ allEntries_nodup rt hnames) hall

end Runtime

/-! ## Two lines of one millisecond -/

def tiedNode : LogFilesHandler where
  nodeName := "node-1"
  reader :=
    { baseDir := "/opt/logs"
      fs :=
        { readDir := fun dir =>
            if dir = "/opt/logs/app" then
              some [⟨"app.2024-01-15.log", false, some ⟨"2024-01-15", 80⟩⟩]
            else none
          openFile := fun _ =>
            some ⟨"2024-01-15 10:30:45.123 INFO a.B - one\n" ++
              "2024-01-15 10:30:45.123 INFO a.B - two\n", false⟩ } }

def tiedInput (limit : Int) : LogSearchInput where
  app := "app"
  fromDate := "2024-01-15"
  toDate := "2024-01-15"
  limit := some limit

def tiedLine (message : String) (lineNo : Nat) : LogReader.LogLine where
  timestamp := "2024-01-15 10:30:45.123"
  level := "INFO"
  source := "a.B"
  message
  file := "app.2024-01-15.log"
  lineNo

def tiedLines : List (LogLine × Nat) :=
  ([tiedLine "one" 1, tiedLine "two" 2].map (shownLine "node-1")).map (·, 0)

theorem servers_tied :
    servers Runtime.ascii [tiedNode] (tiedInput 2) =
      [nodeServer Runtime.ascii (tiedInput 2) tiedNode 0] := rfl

theorem tied_found :
    tiedNode.reader.matchList Runtime.ascii (inputParams (tiedInput 2)) =
        [tiedLine "one" 1, tiedLine "two" 2] ∧
      (nodeServer Runtime.ascii (tiedInput 2) tiedNode 0).reach "" = tiedLines ∧
      (nodeServer Runtime.ascii (tiedInput 2) tiedNode 0).reach "2024-01-15 10:30:45.123" = [] ∧
      (nodeServer Runtime.ascii (tiedInput 2) tiedNode 0).more "2024-01-15 10:30:45.123" =
        false := by
  decide

theorem tied_nodeEntries (limit : Int) :
    nodeEntries Runtime.ascii (tiedInput limit) tiedNode =
      [tiedLine "one" 1, tiedLine "two" 2].map (shownLine "node-1") := by
  rw [nodeEntries, ← tied_found.1]
  exact congrArg _ (matchList_limit Runtime.ascii (inputParams (tiedInput 2)) tiedNode.reader _)

theorem tied_allEntries (limit : Int) :
    allEntries Runtime.ascii [tiedNode] (tiedInput limit) =
      [tiedLine "one" 1, tiedLine "two" 2].map (shownLine "node-1") := by
  have hwanted : wantedNodes [tiedNode] (tiedInput limit) = [tiedNode] := rfl
  rw [allEntries, hwanted, flatMap_singleton, tied_nodeEntries]

/-- With both lines on one page they are shown once each. -/
theorem browse_tied_together :
    (browse Runtime.ascii Collator.codePoint (fun _ _ => none) [tiedNode] (tiedInput 2) 3
      none).flatten.Perm (allEntries Runtime.ascii [tiedNode] (tiedInput 2)) := by
  have hfew : ((allEntries Runtime.ascii [tiedNode] (tiedInput 2)).filter
      ("" < ·.sortKey)).length < 3 := by
    rw [tied_allEntries]
    exact Nat.lt_succ_of_le (length_filter_le _ _)
  refine (browse_complete_iff Runtime.ascii Collator.codePoint (fun _ _ => none) (by decide)
    (by decide) hfew).1 ?_
  obtain ⟨_, hstart, hend, hmore⟩ := tied_found
  have hentries : (nodeServer Runtime.ascii (tiedInput 2) tiedNode 0).entries = tiedLines := by
    rw [nodeServer, tied_nodeEntries]
    rfl
  rw [Browsable, servers_tied]
  generalize nodeServer Runtime.ascii (tiedInput 2) tiedNode 0 = server at *
  have hlisted : CursorPaging.listed [server] = tiedLines := by
    rw [CursorPaging.listed, flatMap_singleton, hentries]
  have hreach : CursorPaging.outstanding [server] "" = tiedLines := by
    rw [CursorPaging.outstanding, flatMap_singleton, hstart]
  have hrest : CursorPaging.outstanding [server] "2024-01-15 10:30:45.123" = [] := by
    rw [CursorPaging.outstanding, flatMap_singleton, hend]
  have hleaving : CursorPaging.leaving [server] "" "2024-01-15 10:30:45.123" = tiedLines := by
    rw [CursorPaging.leaving, hreach, hrest]
    rfl
  have hgathered : CursorPaging.gathered 2 [server] "" = tiedLines := by
    rw [CursorPaging.gathered, flatMap_singleton, hstart]
    rfl
  have hfull : CursorPaging.FullPage timestampKey (timestampOrder Collator.codePoint) 2 [server]
      "" "2024-01-15 10:30:45.123" := by
    refine ⟨by decide, ?_, ?_, ?_, ?_⟩
    · rw [hleaving]
      rfl
    · rw [hleaving, hgathered]
      exact fun _ h => h
    · rw [hleaving, hgathered]
      exact fun _ _ d hd hout => absurd hd hout
    · simp only [hleaving, CursorPaging.InFront, hlisted]
      decide
  refine ⟨hreach.trans hlisted.symm, .more hfull (.last ⟨?_, Or.inl ?_⟩)⟩
  · rw [hrest]
    exact Nat.zero_le _
  · exact forall_mem_singleton.mpr hmore

/-- Cut between the two lines, the second one is on no page. -/
theorem browse_tied_apart :
    ¬ ∀ (rt : Runtime) (collator : Collator)
        (getStats : LogFilesHandler → Query → Option LogStatsResponse)
        (nodes : List LogFilesHandler) (input : LogSearchInput) (fuel : Nat),
      InTimestampOrder rt nodes input → 1 ≤ input.pageLimit → input.pageLimit ≤ 500 →
      ((allEntries rt nodes input).filter ("" < ·.sortKey)).length < fuel →
      (browse rt collator getStats nodes input fuel none).flatten.Perm
        (allEntries rt nodes input) := by
  intro h
  have hordered : InTimestampOrder Runtime.ascii [tiedNode] (tiedInput 1) := by
    have hwanted : wantedNodes [tiedNode] (tiedInput 1) = [tiedNode] := rfl
    rw [InTimestampOrder, hwanted, forall_mem_singleton, tied_nodeEntries]
    decide
  have hperm := h Runtime.ascii Collator.codePoint (fun _ _ => none) [tiedNode] (tiedInput 1) 3
    hordered (by decide) (by decide) (by
      rw [tied_allEntries]
      exact Nat.lt_succ_of_le (length_filter_le _ _))
  have hlen := hperm.length_eq
  revert hlen
  decide

end NestGateway.LogHistory
