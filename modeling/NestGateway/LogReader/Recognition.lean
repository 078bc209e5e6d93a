import NestGateway.LogReader.ReadErrors

/-! # Lines that a pattern matches

A line in one of the formats of Log4j2 is meant to become an entry with its own
timestamp and level wherever it stands in its file. The parser is picked once,
from the first line that is not blank, so the other lines of a file are only as
well recognised as that one.
-/

namespace NestGateway.LogReader

open Text Regex Re List

/-- One of the patterns matches the line. -/
def Structured (line : String) : Prop :=
  test bracketLog4j2Pattern line = true ∨ test log4j2Pattern line = true

/-- The lines of a text, those that are too long for the scanner included. -/
def textLines (text : String) : List String :=
  (splitLines text).map fun cs => String.ofList (dropCR cs)

/-- No line of a text up to this one is too long for the scanner. -/
def ScannedUpTo (text : String) (n : Nat) : Prop :=
  ∀ cs ∈ (splitLines text).take (n + 1), (String.ofList cs).utf8ByteSize < maxScanTokenSize

/-- The first line that is not blank. -/
def firstLine (lines : List String) : Option String := lines.find? fun line => trimSpace line ≠ ""

/-- `DetectParser` picks the parser of Log4j2 for this first line. -/
def Announces (first : String) : Prop :=
  test bracketDetectPattern (trimSpace first) = true ∨
    test log4j2Pattern (trimSpace first) = true

/-- No level, keyword, cursor or clock time is given. -/
structure SearchParams.Unfiltered (params : SearchParams) : Prop where
  level : params.level = ""
  keyword : params.keyword = ""
  after : params.after = ""
  time : hasTimeFilter params = false

section Runtime

variable (rt : Runtime) (params : SearchParams)

/-- The lines `searchFile` returns, beside an error or not. -/
def Reader.foundLines (r : Reader) (f : LogFile) (limit : Nat) : List LogLine :=
  match r.fs.openFile f.fullPath with
  | none => []
  | some stored =>
      let scan := scanLines stored.text stored.broken
      (scanLoop rt params f.name limit scan.failed scan.lines {}).lines

/-- Line `n` of a file, counted from zero, is found as an entry with its timestamp and level. -/
def RecognisedAt (found : List LogLine) (n : Nat) (line : String) : Prop :=
  ∃ e ∈ found, e.lineNo = n + 1 ∧ e.timestamp = (parseLog4j2 rt line).timestamp ∧
    e.timestamp ≠ "" ∧ e.level = (parseLog4j2 rt line).level

end Runtime

/-! ## Lines that a pattern matches -/

theorem exists_of_timestampRe {s : State} {k : State → Option Match} {m : Match}
    (h : timestampRe.run s k = some m) :
    ∃ t, k t = some m ∧ s.textTo t ≠ "" ∧ ∃ c ∈ s.rest.head?, isDigit c = true := by
  change (seq (seq digit _) _).run s k = some m at h
  rw [run_seq] at h
  obtain ⟨c, rest, hrest, hc, hmore⟩ := exists_of_run_cons h
  obtain ⟨_, hlater, hfirst, _⟩ := exists_reached _ hmore
  obtain ⟨t, ht, hreached, _⟩ := exists_reached _ hlater
  refine ⟨t, ht, ?_, c, by rw [hrest]; rfl, hc⟩
  have hlt : t.rest.length ≤ rest.length := (hreached.trans hfirst).length_le
  have htake : s.rest.length - t.rest.length = (rest.length - t.rest.length) + 1 := by
    rw [hrest, length_cons]
    omega
  rw [State.textTo, htake, hrest, take_succ_cons]
  exact fun h => absurd (congrArg String.toList h) (by simp)

theorem trimSpace_ne_empty {line : String} {c : Char} (h : c ∈ line.toList.head?)
    (hc : isSpace c = false) : trimSpace line ≠ "" := by
  intro hempty
  have hnil := congrArg String.toList hempty
  have hstart : trimLeft line.toList = line.toList :=
    trimLeft_eq_self fun d hd => Option.some.inj (hd.symm.trans h) ▸ hc
  rw [trimSpace, String.toList_ofList, String.toList_empty, trimChars, hstart,
    reverse_eq_nil_iff, trimLeft, dropWhile_eq_nil_iff] at hnil
  have hblank := hnil c (mem_reverse.mpr (mem_of_mem_head? h))
  rw [hc] at hblank
  cases hblank

theorem bracketLog4j2_match {line : String} {m : Match}
    (h : find bracketLog4j2Pattern line = some m) :
    m.group 2 ≠ "" ∧ '[' ∈ line.toList.head? := by
  have hrun := run_of_find_bol h
  obtain ⟨c, rest, hrest, hc, hmore⟩ := exists_of_run_cons hrun
  obtain ⟨_, hlevel, _⟩ := exists_of_run_seq hmore
  obtain ⟨_, hpadding, _⟩ := exists_of_run_seq hlevel
  obtain ⟨_, hclosed, _⟩ := exists_of_run_seq hpadding
  obtain ⟨_, h₄, _⟩ := exists_of_run_seq hclosed
  obtain ⟨t, ht, htext, _⟩ := exists_of_timestampRe h₄
  have hgroup := group_eq (by decide) ht
  rw [hgroup]
  refine ⟨htext, ?_⟩
  have hline : line.toList = c :: rest := hrest
  rw [hline, beq_iff_eq.mp hc]
  rfl

theorem log4j2_match {line : String} {m : Match} (h : find log4j2Pattern line = some m) :
    m.group 1 ≠ "" ∧ ∃ c ∈ line.toList.head?, isDigit c = true := by
  have hrun := run_of_find_bol h
  obtain ⟨t, ht, htext, hhead⟩ := exists_of_timestampRe hrun
  have hgroup := group_eq (by decide) ht
  rw [hgroup]
  exact ⟨htext, hhead⟩

section Runtime

variable (rt : Runtime)

theorem timestamp_of_structured {line : String} (h : Structured line) :
    (parseLog4j2 rt line).timestamp ≠ "" := by
  rw [parseLog4j2]
  cases hbracket : find bracketLog4j2Pattern line with
  | some m => exact (bracketLog4j2_match hbracket).1
  | none =>
      cases hplain : find log4j2Pattern line with
      | some m => exact (log4j2_match hplain).1
      | none =>
          rw [Structured, test, test, hbracket, hplain] at h
          simp at h

end Runtime

theorem nonblank_of_structured {line : String} (h : Structured line) : trimSpace line ≠ "" := by
  rcases h with h | h
  · obtain ⟨m, hm⟩ := Option.isSome_iff_exists.mp h
    exact trimSpace_ne_empty (bracketLog4j2_match hm).2 (by decide)
  · obtain ⟨m, hm⟩ := Option.isSome_iff_exists.mp h
    obtain ⟨_, c, hc, hdigit⟩ := log4j2_match hm
    exact trimSpace_ne_empty hc (isSpace_of_isDigit hdigit)

/-! ## Entries and lines -/

theorem numberedLines_head (lineNo : Nat) (lines : List String) :
    (numberedLines lineNo lines).head?.map Prod.fst = firstLine lines := by
  induction lines generalizing lineNo with
  | nil => rfl
  | cons line rest ih =>
      rw [firstLine, find?_cons]
      by_cases hblank : trimSpace line = ""
      · rw [numberedLines_cons_blank hblank, ih, firstLine]
        simp [hblank]
      · rw [numberedLines_cons hblank]
        simp [hblank]

theorem mem_numberedLines {lines : List String} {line : String} {no : Nat} :
    (line, no) ∈ numberedLines 0 lines ↔
      ∃ n, no = n + 1 ∧ lines[n]? = some line ∧ trimSpace line ≠ "" := by
  rw [numberedLines, mem_filter, mk_mem_zipIdx_iff_le_and_getElem?_sub]
  constructor
  · rintro ⟨⟨hle, hget⟩, hblank⟩
    exact ⟨no - 1, by omega, hget, of_decide_eq_true hblank⟩
  · rintro ⟨n, rfl, hget, hblank⟩
    exact ⟨⟨by omega, hget⟩, decide_eq_true hblank⟩

section Runtime

variable (rt : Runtime)

theorem mem_parsedLines {fileName : String} {lines : List String} {l : LogLine} :
    l ∈ parsedLines rt fileName lines ↔
      ∃ first n line, firstLine lines = some first ∧ lines[n]? = some line ∧
        trimSpace line ≠ "" ∧ l = parsedLine rt fileName (detectParser first) line (n + 1) := by
  have hhead := numberedLines_head 0 lines
  unfold parsedLines
  cases hnumbered : numberedLines 0 lines with
  | nil =>
      refine iff_of_false not_mem_nil ?_
      rintro ⟨first, n, line, _, hget, hblank, _⟩
      have hmem := mem_numberedLines.mpr ⟨n, rfl, hget, hblank⟩
      rw [hnumbered] at hmem
      cases hmem
  | cons next rest =>
      rw [hnumbered, head?_cons, Option.map_some] at hhead
      rw [mem_map, ← hnumbered]
      constructor
      · rintro ⟨⟨line, no⟩, hmem, rfl⟩
        obtain ⟨n, rfl, hget, hblank⟩ := mem_numberedLines.mp hmem
        exact ⟨next.1, n, line, hhead.symm, hget, hblank, rfl⟩
      · rintro ⟨first, n, line, hfirst, hget, hblank, rfl⟩
        obtain rfl := Option.some.inj (hhead.trans hfirst)
        exact ⟨(line, n + 1), mem_numberedLines.mpr ⟨n, rfl, hget, hblank⟩, rfl⟩

end Runtime

theorem exists_timestampedEntries {parsed : List LogLine} {l : LogLine} (h : l ∈ parsed)
    (htimed : l.timestamp ≠ "") :
    ∃ e ∈ timestampedEntries parsed, e.lineNo = l.lineNo ∧ e.timestamp = l.timestamp ∧
      e.level = l.level := by
  induction parsed with
  | nil => cases h
  | cons a rest ih =>
      rw [timestampedEntries_cons]
      rcases mem_cons.mp h with rfl | hrest
      · rw [if_neg (by simpa [LogLine.untimed] using htimed)]
        exact ⟨joinMessages l rest, mem_cons_self, rfl, rfl, rfl⟩
      · obtain ⟨e, he, hsame⟩ := ih hrest
        split
        · exact ⟨e, he, hsame⟩
        · exact ⟨e, mem_cons_of_mem _ he, hsame⟩

theorem exists_of_mem_groupEntries {parsed : List LogLine} {e : LogLine}
    (h : e ∈ groupEntries parsed) :
    ∃ l ∈ parsed, e.lineNo = l.lineNo ∧ e.timestamp = l.timestamp := by
  rcases mem_append.mp h with hraw | htimed
  · exact ⟨e, takeWhile_subset _ hraw, rfl, rfl⟩
  · clear h
    induction parsed with
    | nil => cases htimed
    | cons a rest ih =>
        rw [timestampedEntries_cons] at htimed
        split at htimed
        · obtain ⟨l, hl, hsame⟩ := ih htimed
          exact ⟨l, mem_cons_of_mem _ hl, hsame⟩
        · rcases mem_cons.mp htimed with rfl | hrest
          · exact ⟨a, mem_cons_self, rfl, rfl⟩
          · obtain ⟨l, hl, hsame⟩ := ih hrest
            exact ⟨l, mem_cons_of_mem _ hl, hsame⟩

theorem scanUpTo_eq (parts : List (List Char)) :
    (scanUpTo parts).lines =
      (parts.takeWhile fun cs => (String.ofList cs).utf8ByteSize < maxScanTokenSize).map
        fun cs => String.ofList (dropCR cs) := by
  induction parts with
  | nil => rfl
  | cons cs rest ih =>
      rw [scanUpTo, takeWhile_cons]
      by_cases hlong : maxScanTokenSize ≤ (String.ofList cs).utf8ByteSize
      · rw [if_pos hlong, if_neg (by simpa using hlong)]
        rfl
      · rw [if_neg hlong, if_pos (by simpa using hlong)]
        exact congrArg _ ih

theorem scanned_initial (text : String) (broken : Bool) :
    (scanLines text broken).lines <+: textLines text := by
  rw [scanLines, scanUpTo_eq]
  exact List.IsPrefix.map _ ( List.takeWhile_prefix _)

theorem lt_length_takeWhile {α : Type} {p : α → Bool} {xs : List α} {n : Nat}
    (hn : n < xs.length) :
    n < (xs.takeWhile p).length ↔ ∀ x ∈ xs.take (n + 1), p x = true := by
  induction xs generalizing n with
  | nil => cases hn
  | cons x xs ih =>
      rw [takeWhile_cons, take_succ_cons, forall_mem_cons]
      by_cases hx : p x = true
      · rw [if_pos hx, length_cons, and_iff_right hx]
        cases n with
        | zero => simp
        | succ n => rw [Nat.add_lt_add_iff_right, ih (Nat.lt_of_succ_lt_succ hn)]
      · rw [if_neg hx]
        exact iff_of_false (Nat.not_lt_zero n) fun h => hx h.1

theorem scanned_iff {text : String} {n : Nat} (hn : n < (textLines text).length) (broken : Bool) :
    n < (scanLines text broken).lines.length ↔ ScannedUpTo text n := by
  rw [textLines, length_map] at hn
  rw [scanLines, scanUpTo_eq, length_map, ScannedUpTo, lt_length_takeWhile hn]
  simp only [decide_eq_true_eq]

theorem firstLine_append {lines more : List String} (h : lines <+: more) {first : String}
    (hfirst : firstLine lines = some first) : firstLine more = some first := by
  obtain ⟨rest, rfl⟩ := h
  rw [firstLine, find?_append]
  rw [firstLine] at hfirst
  rw [hfirst, Option.some_or]

theorem exists_firstLine {lines : List String} {n : Nat} {line : String}
    (hget : lines[n]? = some line) (hblank : trimSpace line ≠ "") :
    ∃ first, firstLine lines = some first :=
  Option.isSome_iff_exists.mp (find?_isSome.mpr
    ⟨line, mem_of_getElem? hget, decide_eq_true hblank⟩)

theorem detectParser_announced {first : String}
    (hbrace : startsWith (trimSpace first) (String.ofList ['{']) = false) (h : Announces first) :
    detectParser first = .log4j2 := by
  rw [detectParser, hbrace, if_neg Bool.false_ne_true]
  split
  · rfl
  next hbracket => rw [if_pos (h.resolve_left hbracket)]

theorem detectParser_other {first : String}
    (hbrace : startsWith (trimSpace first) (String.ofList ['{']) = false) (h : ¬ Announces first) :
    detectParser first = .raw := by
  obtain ⟨hbracket, hplain⟩ := not_or.mp h
  rw [detectParser, hbrace, if_neg Bool.false_ne_true, if_neg hbracket, if_neg hplain]

/-! ## What `searchFile` finds -/

theorem matchFilters_unfiltered (rt : Runtime) {params : SearchParams} (h : params.Unfiltered)
    (line : LogLine) : matchFilters rt line params = true := by
  simp [matchFilters, matchLevel, matchKeyword, matchAfter, matchTimeRange, h.level, h.keyword,
    h.after, h.time]

theorem length_entries_le (rt : Runtime) (fileName : String) (lines : List String) :
    (groupEntries (parsedLines rt fileName lines)).length ≤ lines.length := by
  have hparsed : (parsedLines rt fileName lines).length = (numberedLines 0 lines).length := by
    unfold parsedLines
    cases numberedLines 0 lines with
    | nil => rfl
    | cons next rest => exact length_map _
  have hnumbered : (numberedLines 0 lines).length ≤ lines.length :=
    (length_filter_le _ _).trans_eq length_zipIdx
  have hgrouped := (groupEntries_positions (parsedLines rt fileName lines)).length_le
  rw [length_map, length_map] at hgrouped
  omega

section Runtime

variable (rt : Runtime) {params : SearchParams} {r : Reader} {f : LogFile} {stored : Stored}
  (hopen : r.fs.openFile f.fullPath = some stored) (unfiltered : params.Unfiltered)
  {limit : Nat} (hlimit : (textLines stored.text).length < limit)
include hopen unfiltered hlimit

/-- Without filters and with room for all lines, all entries of the scanned lines are found. -/
theorem foundLines_eq :
    r.foundLines rt params f limit =
      groupEntries (parsedLines rt f.name (scanLines stored.text stored.broken).lines) := by
  have hfew := (length_entries_le rt f.name (scanLines stored.text stored.broken).lines).trans
    (scanned_initial stored.text stored.broken).length_le
  have htotal : Scanning.total rt params {} f.name (scanLines stored.text stored.broken).lines =
      fileMatches rt params f.name (scanLines stored.text stored.broken).lines := by
    rw [fileMatches, parsedLines_eq]
    rfl
  have hall : fileMatches rt params f.name (scanLines stored.text stored.broken).lines =
      groupEntries (parsedLines rt f.name (scanLines stored.text stored.broken).lines) :=
    filter_eq_self.mpr fun e _ => matchFilters_unfiltered rt unfiltered e
  rw [Reader.foundLines, hopen]
  dsimp only
  have hpos := Nat.zero_lt_of_lt hlimit
  rw [scanLoop_found _ _ _ _ _ _ _ hpos,
    scanLoop_spec rt params f.name limit _ {} (fun c hc => by cases hc) hpos, htotal, hall]
  exact take_of_length_le (hfew.trans hlimit.le)

/-- A line that a pattern matches is found as an entry of its own exactly if it is scanned and the
first line announces the parser of Log4j2. -/
theorem recognisedAt_iff {first line : String} {n : Nat}
    (hfirst : firstLine (textLines stored.text) = some first)
    (hbrace : startsWith (trimSpace first) (String.ofList ['{']) = false)
    (hget : (textLines stored.text)[n]? = some line) (hline : Structured line) :
    RecognisedAt rt (r.foundLines rt params f limit) n line ↔
      ScannedUpTo stored.text n ∧ Announces first := by
  have hprefix := scanned_initial stored.text stored.broken
  have hn : n < (textLines stored.text).length := (List.getElem?_eq_some_iff.mp hget).choose
  have htimed := timestamp_of_structured rt hline
  rw [foundLines_eq rt hopen unfiltered hlimit, ← scanned_iff hn stored.broken]
  constructor
  · rintro ⟨e, he, hno, _, hne, _⟩
    obtain ⟨l, hl, hlno, hltimestamp⟩ := exists_of_mem_groupEntries he
    obtain ⟨first', n', line', hfirst', hget', _, rfl⟩ := (mem_parsedLines rt).mp hl
    have hsame : n' = n := Nat.succ.inj (hlno.symm.trans hno)
    subst hsame
    refine ⟨(List.getElem?_eq_some_iff.mp hget').choose, ?_⟩
    by_contra hother
    obtain rfl := Option.some.inj ((firstLine_append hprefix hfirst').symm.trans hfirst)
    rw [hltimestamp, detectParser_other hbrace hother] at hne
    exact hne rfl
  · rintro ⟨hscanned, hannounces⟩
    obtain ⟨rest, hrest⟩ := hprefix
    have hget' : (scanLines stored.text stored.broken).lines[n]? = some line := by
      rw [← hget, ← hrest, getElem?_append_left hscanned]
    obtain ⟨first', hfirst'⟩ := exists_firstLine hget' (nonblank_of_structured hline)
    obtain rfl := Option.some.inj
      ((firstLine_append ⟨rest, hrest⟩ hfirst').symm.trans hfirst)
    have hmem := (@mem_parsedLines rt f.name _ _).mpr
      ⟨first', n, line, hfirst', hget', nonblank_of_structured hline, rfl⟩
    rw [detectParser_announced hbrace hannounces] at hmem
    obtain ⟨e, he, hno, htimestamp, hlevel⟩ := exists_timestampedEntries hmem htimed
    refine ⟨e, mem_append_right _ he, hno, htimestamp, ?_, hlevel⟩
    rw [htimestamp]
    exact htimed

/-- The lines that a pattern matches are all found as entries exactly if they are scanned and the
first line announces the parser of Log4j2. -/
theorem recognised_iff
    (hbrace : ∀ first ∈ firstLine (textLines stored.text),
      startsWith (trimSpace first) (String.ofList ['{']) = false) :
    (∀ n line, (textLines stored.text)[n]? = some line → Structured line →
        RecognisedAt rt (r.foundLines rt params f limit) n line) ↔
      ∀ n line, (textLines stored.text)[n]? = some line → Structured line →
        ScannedUpTo stored.text n ∧
          ∀ first ∈ firstLine (textLines stored.text), Announces first := by
  refine forall₄_congr fun n line hget hline => ?_
  obtain ⟨first, hfirst⟩ := exists_firstLine hget (nonblank_of_structured hline)
  rw [recognisedAt_iff rt hopen unfiltered hlimit hfirst (hbrace first hfirst) hget hline, hfirst]
  simp only [Option.mem_some_iff, forall_eq']

end Runtime

/-- A reader whose files all have this text. -/
def textReader (text : String) : Reader where
  baseDir := "/opt/logs"
  fs := { readDir := fun _ => none, openFile := fun _ => some ⟨text, false⟩ }

def textFile : LogFile := ⟨"app.log", "2024-01-15", 64, false, "/opt/logs/app/app.log"⟩

def bannerText : String := "starting app\n2024-01-15 10:30:45.123 INFO c.e.Main - started\n"

def entryText : String := "\n[INFO ] 2024-01-15 10:30:45.123 [c.e.Main] started\n  at x\n"

/-- The entry after the banner is not found. -/
theorem banner_hides_entry :
    (∀ first ∈ firstLine (textLines bannerText),
        startsWith (trimSpace first) (String.ofList ['{']) = false) ∧
      ¬ ∀ n line, (textLines bannerText)[n]? = some line → Structured line →
        RecognisedAt Runtime.ascii
          ((textReader bannerText).foundLines Runtime.ascii { app := "app" } textFile 100) n
          line := by
  refine ⟨by decide, fun h => ?_⟩
  have hline := h 1 "2024-01-15 10:30:45.123 INFO c.e.Main - started" (by decide)
    (Or.inr (by decide))
  obtain ⟨e, he, _, _, hne, _⟩ := hline
  have hraw : ∀ e ∈ (textReader bannerText).foundLines Runtime.ascii { app := "app" } textFile 100,
      e.timestamp = "" := by decide
  exact hne (hraw e he)

theorem recognised_iff_sample :
    (∀ n line, (textLines entryText)[n]? = some line → Structured line →
        RecognisedAt Runtime.ascii
          ((textReader entryText).foundLines Runtime.ascii { app := "app" } textFile 100) n line) ↔
      ∀ n line, (textLines entryText)[n]? = some line → Structured line →
        ScannedUpTo entryText n ∧ ∀ first ∈ firstLine (textLines entryText), Announces first :=
  @recognised_iff Runtime.ascii { app := "app" } (textReader entryText) textFile
    ⟨entryText, false⟩ rfl ⟨rfl, rfl, rfl, by decide⟩ 100 (by decide)
    (by decide)

end NestGateway.LogReader
