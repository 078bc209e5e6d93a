import NestGateway.LogReader.Confinement
import NestGateway.LogReader.ReadErrors
import NestGateway.LogReader.TimeWindow

/-! # The dates of a search

The dates of a search choose files by the date in the name, or by the day of
the last modification for a file that has none. The entries of the chosen files
are held to the dates only when there is a clock bound.
-/

namespace NestGateway.LogReader

open Text GoTime List

theorem scanDir_date {fs : FileSystem} {dir dirPrefix fromDate toDate : String} {f : LogFile}
    (h : f ∈ scanDir fs dir dirPrefix fromDate toDate) :
    (fromDate ≠ "" → fromDate ≤ f.date) ∧ (toDate ≠ "" → f.date ≤ toDate) := by
  obtain ⟨_, _, e, _, hscans⟩ := mem_scanDir h
  exact ⟨fun hfrom => not_lt.mp (hscans.since hfrom), fun hto => not_lt.mp (hscans.upTo hto)⟩

theorem listFiles_date {r : Reader} {app fromDate toDate : String} {f : LogFile}
    (h : f ∈ r.listFiles app fromDate toDate) :
    (fromDate ≠ "" → fromDate ≤ f.date) ∧ (toDate ≠ "" → f.date ≤ toDate) := by
  have hscanned := mem_of_mem_uniqueNames (mem_listFiles.mp h)
  rw [Reader.scanned] at hscanned
  rcases mem_append.mp hscanned with hmem | hmem
  · rcases mem_append.mp hmem with hmem | hmem
    · exact scanDir_date hmem
    · exact scanDir_date hmem
  · split at hmem
    · exact scanDir_date hmem
    · cases hmem

theorem scanEntry_day {date : String} (hdate : date ≠ "") (dir dirPrefix : String) (e : DirEntry) :
    scanEntry dir dirPrefix date date e =
      (scanEntry dir dirPrefix "" "" e).filter fun f => f.date = date := by
  rw [scanEntry, scanEntry]
  split
  next => rfl
  next =>
    split
    next => rfl
    next =>
      cases entryDate dirPrefix e with
      | none => rfl
      | some entryDate =>
          have hne : (date != "") = true := bne_iff_ne.mpr hdate
          have hempty : (("" : String) != "") = false := rfl
          simp only [Option.bind_eq_bind, Option.bind_some, hne, hempty, Bool.true_and,
            Bool.false_and, decide_eq_true_eq, Bool.false_eq_true, if_false]
          cases e.info with
          | none =>
              rw [Option.bind_none, ite_self, ite_self]
              rfl
          | some info =>
              rw [Option.bind_some, Option.filter_some]
              rcases lt_trichotomy entryDate date with hlt | heq | hgt
              · rw [if_pos hlt, if_neg (by simpa using hlt.ne)]
              · rw [if_neg heq.not_lt, if_neg heq.not_gt]
                exact (if_pos (decide_eq_true heq)).symm
              · rw [if_neg hgt.not_gt, if_pos hgt, if_neg (by simpa using hgt.ne')]

theorem scanned_day {date : String} (hdate : date ≠ "") (r : Reader) (app : String) :
    r.scanned app date date = (r.scanned app "" "").filter fun f => f.date = date := by
  have hdir (dir dirPrefix : String) : scanDir r.fs dir dirPrefix date date =
      (scanDir r.fs dir dirPrefix "" "").filter fun f => f.date = date := by
    rw [scanDir, scanDir]
    cases r.fs.readDir dir with
    | none => rfl
    | some entries =>
        dsimp only
        rw [filter_filterMap]
        exact congrArg (filterMap · entries) (funext fun e => scanEntry_day hdate dir dirPrefix e)
  rw [Reader.scanned, Reader.scanned, filter_append, filter_append, ← hdir, ← hdir]
  split
  next => rw [← hdir]
  next => rfl

theorem mem_listFiles_day {r : Reader} {app : String} {f : LogFile}
    (h : f ∈ r.listFiles app "" "") (hdate : f.date ≠ "") : f ∈ r.listFiles app f.date f.date := by
  rw [mem_listFiles, uniqueNames_eq] at h ⊢
  rw [scanned_day hdate]
  exact mem_firstOfKey_filter h (decide_eq_true rfl)

section Runtime

variable (rt : Runtime)

theorem mem_searchFiles {params : SearchParams} {r : Reader} {limit : Nat} {files : List LogFile}
    {lines : List LogLine} {hasMore : Bool} {line : LogLine}
    (h : line ∈ (r.searchFiles rt params limit files lines hasMore).1) :
    line ∈ lines ∨ ∃ f ∈ files, line ∈ fileMatches rt params f.name (r.fileLines f) := by
  induction files generalizing lines hasMore with
  | nil => exact Or.inl h
  | cons f files ih =>
      have hlater : (∃ g ∈ files, line ∈ fileMatches rt params g.name (r.fileLines g)) →
          ∃ g ∈ f :: files, line ∈ fileMatches rt params g.name (r.fileLines g) :=
        fun ⟨g, hg, hline⟩ => ⟨g, mem_cons_of_mem f hg, hline⟩
      rw [Reader.searchFiles] at h
      split at h
      next => exact Or.inl h
      next hfew =>
        cases hfile : r.searchFile rt params f (limit - lines.length) with
        | none =>
            rw [hfile] at h
            exact (ih h).imp_right hlater
        | some result =>
            have hfound := searchFile_take rt params f (by omega) hfile
            rw [hfile] at h
            rcases ih h with hmem | hmem
            · rcases mem_append.mp hmem with hold | hnew
              · exact Or.inl hold
              · rw [hfound] at hnew
                exact Or.inr ⟨f, mem_cons_self, mem_of_mem_take hnew⟩
            · exact Or.inr (hlater hmem)

theorem mem_search {params : SearchParams} {r : Reader} {nodeName : String} {line : LogLine}
    (h : line ∈ (r.search rt params nodeName).lines) :
    ∃ f ∈ r.listFiles params.app params.fromDate params.toDate,
      line.file = f.name ∧ matchFilters rt line params = true := by
  rcases mem_searchFiles rt h with hmem | ⟨f, hf, hmem⟩
  · cases hmem
  · exact ⟨f, hf, (fileMatches_positions rt params f.name (r.fileLines f)).2 line hmem,
      (mem_filter.mp hmem).2⟩

def dayStart (d : CalendarDate) : Instant := localSecond rt d 0 0 0 * 1000000000

def dayEnd (d : CalendarDate) : Instant := (localSecond rt d 23 59 59 + 1) * 1000000000

/-- Every second of the day lies within the day: the zone does not skip over midnight. -/
def KeepsDay (d : CalendarDate) : Prop :=
  ∀ hour < 24, ∀ minute < 60, ∀ second < 60,
    localSecond rt d 0 0 0 ≤ localSecond rt d hour minute second ∧
      localSecond rt d hour minute second ≤ localSecond rt d 23 59 59

/-- An absent clock is an empty text. -/
def clockText (clock : Option Clock) : String := (clock.map Clock.text).getD ""

/-- The beginning of a range that starts on a date, at a clock if there is one. -/
def rangeStart (d : CalendarDate) (clock : Option Clock) : Instant :=
  (clock.map (unitStart rt d)).getD (dayStart rt d)

/-- The end of a range that ends on a date, with a clock if there is one. -/
def rangeEnd (d : CalendarDate) (clock : Option Clock) : Instant :=
  (clock.map (unitEnd rt d)).getD (dayEnd rt d)

theorem second_getD_lt (c : Clock) {s : Nat} (h : s < 60) : c.second.getD s < 60 := by
  cases hs : c.second with
  | none => exact h
  | some s => exact c.second_lt s hs

theorem lowerBound_range (d : CalendarDate) (clock : Option Clock) :
    parseTimeBound rt d.text (clockText clock) false = some (rangeStart rt d clock) := by
  cases clock with
  | none =>
      rw [parseTimeBound, trimSpace_date, if_neg (date_ne_empty d)]
      have hday := parseFirst_bound rt d (show 0 < 24 by decide) (show 0 < 60 by decide)
        (show 0 < 60 by decide) false
      exact hday.trans (congrArg some (Int.add_zero _))
  | some c => exact lowerBound_eq rt d c

theorem upperBound_range (d : CalendarDate) (clock : Option Clock) :
    parseTimeBound rt d.text (clockText clock) true = some (rangeEnd rt d clock - 1000000) := by
  cases clock with
  | none =>
      rw [parseTimeBound, trimSpace_date, if_neg (date_ne_empty d)]
      have hday := parseFirst_bound rt d (show 23 < 24 by decide) (show 59 < 60 by decide)
        (show 59 < 60 by decide) true
      have hnanos : boundNanoseconds true = 1 * 1000000000 - 1000000 := rfl
      have hend : rangeEnd rt d none = (localSecond rt d 23 59 59 + 1) * 1000000000 := rfl
      rw [hend, Int.add_mul, Int.add_sub_assoc, ← hnanos]
      exact hday
  | some c => exact upperBound_eq rt d c

theorem dayStart_le {d : CalendarDate} (keeps : KeepsDay rt d) (clock : Option Clock) :
    dayStart rt d ≤ rangeStart rt d clock := by
  cases clock with
  | none => exact le_refl (dayStart rt d)
  | some c =>
      have hle := (keeps c.hour c.hour_lt c.minute c.minute_lt (c.second.getD 0)
        (second_getD_lt c (by decide))).1
      exact Int.mul_le_mul_of_nonneg_right hle (by decide)

theorem le_dayEnd {d : CalendarDate} (keeps : KeepsDay rt d) (clock : Option Clock) :
    rangeEnd rt d clock ≤ dayEnd rt d := by
  cases clock with
  | none => exact le_refl (dayEnd rt d)
  | some c =>
      have hle := (keeps c.hour c.hour_lt c.minute c.minute_lt (c.second.getD 59)
        (second_getD_lt c (by decide))).2
      exact Int.mul_le_mul_of_nonneg_right (Int.add_le_add_right hle 1) (by decide)

/-- A search over a range of dates, with clocks or without. -/
def SearchParams.dated (params : SearchParams) (first last : CalendarDate)
    (lower upper : Option Clock) : SearchParams :=
  { params with
    fromDate := first.text
    toDate := last.text
    fromTime := clockText lower
    toTime := clockText upper }

variable {rt} {params : SearchParams} {first last : CalendarDate} {lower upper : Option Clock}

/-- With a clock bound, what passes the filters has an instant within the range. -/
theorem instant_of_dated {timestamp : String} (hclock : lower.isSome ∨ upper.isSome)
    (h : matchTimeRange rt timestamp (params.dated first last lower upper) = true) :
    ∃ t, parseLogTimestamp rt timestamp = some t ∧
      rangeStart rt first lower ≤ t ∧ t ≤ rangeEnd rt last upper - 1000000 := by
  have hfilter : hasTimeFilter (params.dated first last lower upper) = true := by
    rw [hasTimeFilter, Bool.or_eq_true]
    rcases hclock with hlower | hupper
    · obtain ⟨c, rfl⟩ := Option.isSome_iff_exists.mp hlower
      left
      simp [SearchParams.dated, clockText, trimSpace_clock, clock_ne_empty]
    · obtain ⟨c, rfl⟩ := Option.isSome_iff_exists.mp hupper
      right
      simp [SearchParams.dated, clockText, trimSpace_clock, clock_ne_empty]
  cases hparse : parseLogTimestamp rt timestamp with
  | none =>
      rw [matchTimeRange, hfilter, hparse] at h
      split at h
      · next hfalse => cases hfalse
      · split at h <;> cases h
  | some t =>
      obtain ⟨hlow, hhigh⟩ := (matchTimeRange_parsed rt hparse hfilter).mp h
      exact ⟨t, rfl, hlow _ (lowerBound_range rt first lower),
        hhigh _ (upperBound_range rt last upper)⟩

/-- Every line that a search returns comes from a file of a date within the range. With a clock
bound it has an instant within the range too, on a day from the first to the last. -/
theorem search_dates {r : Reader} {nodeName : String} {line : LogLine}
    (h : line ∈ (r.search rt (params.dated first last lower upper) nodeName).lines) :
    (∃ f ∈ r.listFiles params.app first.text last.text,
        line.file = f.name ∧ first.text ≤ f.date ∧ f.date ≤ last.text) ∧
      (lower.isSome ∨ upper.isSome → ∃ t, parseLogTimestamp rt line.timestamp = some t ∧
        (rangeStart rt first lower ≤ t ∧ t < rangeEnd rt last upper) ∧
        (KeepsDay rt first → dayStart rt first ≤ t) ∧ (KeepsDay rt last → t < dayEnd rt last)) := by
  obtain ⟨f, hf, hfile, hmatch⟩ := mem_search rt h
  obtain ⟨hfrom, hto⟩ := listFiles_date hf
  refine ⟨⟨f, hf, hfile, hfrom (date_ne_empty first), hto (date_ne_empty last)⟩, fun hclock => ?_⟩
  rw [matchFilters, Bool.and_eq_true] at hmatch
  obtain ⟨t, hparse, hlow, hhigh⟩ := instant_of_dated hclock hmatch.2
  have hend (t bound : Int) (hle : t ≤ bound - 1000000) : t < bound := by omega
  have hbefore := hend _ _ hhigh
  exact ⟨t, hparse, ⟨hlow, hbefore⟩, fun keeps => le_trans (dayStart_le rt keeps lower) hlow,
    fun keeps => lt_of_lt_of_le hbefore (le_dayEnd rt keeps upper)⟩

end Runtime

/-- An app whose file has no date in its name; it holds an entry of the day before it was last
written to. -/
def undatedReader : Reader where
  baseDir := "/opt/logs"
  fs :=
    { readDir := fun dir =>
        if dir = "/opt/logs/app" then some [⟨"app.log", false, some ⟨"2024-01-15", 50⟩⟩] else none
      openFile := fun path =>
        if path = "/opt/logs/app/app.log" then
          some ⟨"[INFO ] 2024-01-14 10:30:45.123 [c.e.S] started\n", false⟩
        else none }

/-- A search of one day without clocks returns an entry of the day before. -/
theorem search_leaves_range :
    let lines := (undatedReader.search Runtime.ascii
      (SearchParams.dated { app := "app" } sampleDate sampleDate none none) "node-1").lines
    lines.map (fun line => parseLogTimestamp Runtime.ascii line.timestamp) =
        [some 1705228245123000000] ∧
      1705228245123000000 < dayStart Runtime.ascii sampleDate := by
  decide

def sampleLine : LogLine where
  timestamp := "2024-01-15 10:30:45.123"
  level := "INFO"
  source := "c.e.S"
  message := "started\n  at x"
  file := "app.2024-01-15.log"
  lineNo := 2

theorem search_dates_sample :
    ∃ t, parseLogTimestamp Runtime.ascii sampleLine.timestamp = some t ∧
      dayStart Runtime.ascii sampleDate ≤ t := by
  have hline : sampleLine ∈ (sampleReader.search Runtime.ascii
      (SearchParams.dated { app := "app" } sampleDate sampleDate (some sampleClock) none)
      "node-1").lines := by decide +kernel
  obtain ⟨t, hparse, ⟨hlow, _⟩, _⟩ := (search_dates hline).2 (Or.inl rfl)
  exact ⟨t, hparse, le_trans (by decide) hlow⟩

end NestGateway.LogReader
