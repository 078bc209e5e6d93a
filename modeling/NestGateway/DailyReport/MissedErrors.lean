import NestGateway.DailyReport.Report
import NestGateway.LogReader.DateRange

/-! # Errors the daily report misses

Which errors of a day the report holds: those of the apps of the first instance
that lists some, among the first 500 that an instance can read, and not taken
for another line when timestamp and message are joined.
-/

namespace NestGateway.DailyReport

open Text GoTime LogReader LogHistory

section Definitions

variable (rt : Runtime) (localeCompare : String → String → Int) (ips : List Instance)
  (d : CalendarDate) (app : String) (e : LogReader.LogLine)

def appDirs (ip : Instance) : List String :=
  if ip.reachable then ip.handler.reader.listApps.getD [] else []

/-- The app has a directory on a reachable instance. -/
def AppExists : Prop := app ≠ "" ∧ ∃ ip ∈ ips, app ∈ appDirs ip

/-- An entry is of the day by the date of its file or by its timestamp. -/
def OfDay (f : LogFile) : Prop :=
  f.date = d.text ∨ ∃ t, parseLogTimestamp rt e.timestamp = some t ∧
    dayStart rt d ≤ t ∧ t < dayEnd rt d

/-- An error of the day in a log file of the app on a reachable instance. -/
structure IsError (ip : Instance) (f : LogFile) : Prop where
  reachable : ip.reachable = true
  file : f ∈ ip.handler.reader.listFiles app "" ""
  entry : e ∈ ip.handler.reader.fileEntries rt f
  level : equalFold rt e.level "ERROR" = true
  day : OfDay rt d e f

/-- Equal in timestamp and message. -/
def SameError (l : LogReader.LogLine) : Prop :=
  l.timestamp = e.timestamp ∧ l.message = e.message

/-- The list of the app in the report has a line of the error. -/
def Reported : Prop :=
  ∃ report errors, appErrors rt localeCompare d.text ips = some report ∧
    (app, errors) ∈ report ∧
    ∃ line ∈ errors, line.timestamp = omitEmpty e.timestamp ∧ line.message = e.message

def MissesNoError : Prop :=
  ∀ app, AppExists ips app → ∀ ip ∈ ips, ∀ f e, IsError rt d app e ip f →
    Reported rt localeCompare ips d app e

def errorParams (date : String) : SearchParams where
  app := app
  fromDate := date
  toDate := date
  level := "ERROR"
  limit := 500

/-- The first 500 errors of an instance in the files of the day that it can read. -/
def firstErrors (date : String) (ip : Instance) : List LogReader.LogLine :=
  if ip.reachable then
    let params := errorParams app date
    let r := ip.handler.reader
    (r.filesMatches rt params (r.heldFiles rt params 500 (r.listFiles app date date) 0)).take 500
  else []

/-- The app directories of the first instance that has some. -/
def firstDirs : List String := ((ips.map appDirs).find? (· ≠ [])).getD []

def errorKey (l : LogReader.LogLine) : String := lineKey (answerLine l)

inductive Lost : Prop
  | unlisted (h : app ∉ firstDirs ips)
  | unanswered (h : ∀ l ∈ ips.flatMap (firstErrors rt app d.text), ¬ SameError e l)
  | merged (l : LogReader.LogLine) (hother : ¬ SameError e l)
      (h : (ips.flatMap (firstErrors rt app d.text)).find? (fun l => errorKey l = errorKey e) =
        some l)

end Definitions

variable {rt : Runtime} {localeCompare : String → String → Int} {ips : List Instance}
  {d : CalendarDate} {app : String} {e : LogReader.LogLine}

theorem appDirs_answer (ip : Instance) :
    (if ip.reachable then ip.handler.apps.bind (·.apps) else none) =
      if appDirs ip = [] then none else some (appDirs ip) := by
  rw [appDirs, LogFilesHandler.apps]
  split
  next hreachable =>
    cases ip.handler.reader.listApps with
    | none => rfl
    | some names => rfl
  next => rfl

theorem fetchAppList_eq (ips : List Instance) :
    fetchAppList ips = (ips.map appDirs).find? (· ≠ []) := by
  induction ips with
  | nil => rfl
  | cons ip ips ih =>
      rw [fetchAppList, appDirs_answer, List.map_cons, List.find?_cons]
      by_cases hempty : appDirs ip = []
      · rw [if_pos hempty, decide_eq_false (not_not.mpr hempty)]
        exact ih
      · rw [if_neg hempty, decide_eq_true hempty]

theorem requestParams_errorQuery (app date : String) :
    requestParams (errorQuery app date) = errorParams app date := by
  have hlimit : requestLimit "500" = 500 := by decide
  have hparams : requestParams (errorQuery app date) =
      { errorParams app date with limit := requestLimit "500" } := rfl
  rw [hparams, hlimit]
  rfl

theorem fetchErrors_eq (happ : app ≠ "") (date : String) (ip : Instance) :
    (fetchErrors rt app date ip).getD [] = (firstErrors rt app date ip).map answerLine := by
  rw [fetchErrors, firstErrors]
  split
  next hreachable =>
    have hget : queryGet (errorQuery app date) "app" = app := rfl
    have hlimit : searchLimit (errorParams app date) = 500 := rfl
    rw [LogFilesHandler.search, hget, if_neg happ, requestParams_errorQuery]
    dsimp only
    rw [Reader.search, hlimit]
    have hpos : ([] : List LogReader.LogLine).length < 500 := by decide
    exact congrArg (fun result => result.1.map answerLine)
      (searchFiles_held rt (errorParams app date) _ hpos false)
  next => rfl

theorem omitEmpty_inj {s t : String} (h : omitEmpty s = omitEmpty t) : s = t := by
  rw [omitEmpty, omitEmpty] at h
  split at h
  next hs =>
    split at h
    next ht => exact hs.trans ht.symm
    next => cases h
  next hs =>
    split at h
    next => cases h
    next => exact Option.some.inj h

theorem sameError_iff {l : LogReader.LogLine} :
    SameError e l ↔
      (answerLine l).timestamp = omitEmpty e.timestamp ∧ (answerLine l).message = e.message := by
  constructor
  · rintro ⟨htimestamp, hmessage⟩
    exact ⟨congrArg omitEmpty htimestamp, hmessage⟩
  · rintro ⟨htimestamp, hmessage⟩
    exact ⟨omitEmpty_inj htimestamp, hmessage⟩

theorem lineKey_of_same {line : AnswerLine} (htimestamp : line.timestamp = omitEmpty e.timestamp)
    (hmessage : line.message = e.message) : lineKey line = errorKey e := by
  rw [errorKey, lineKey, lineKey, htimestamp, hmessage]
  rfl

variable (localeCompare) in
/-- A line of the error is kept if it is the first answer with its key. -/
theorem kept_iff (happ : app ≠ "") (date : String) :
    (∃ line ∈ fetchErrorsForApp rt localeCompare app date ips,
        line.timestamp = omitEmpty e.timestamp ∧ line.message = e.message) ↔
      ∃ l, (ips.flatMap (firstErrors rt app date)).find? (fun l => errorKey l = errorKey e) =
        some l ∧ SameError e l := by
  have hresults : (ips.flatMap fun ip => (fetchErrors rt app date ip).getD []) =
      (ips.flatMap (firstErrors rt app date)).map answerLine := by
    rw [List.map_flatMap]
    exact List.flatMap_congr fun ip _ => fetchErrors_eq happ date ip
  have hfirst : ((ips.flatMap (firstErrors rt app date)).map answerLine).find?
      (fun l => lineKey l = errorKey e) =
        ((ips.flatMap (firstErrors rt app date)).find?
          fun l => errorKey l = errorKey e).map answerLine := by
    rw [List.find?_map]
    rfl
  constructor
  · rintro ⟨line, hline, htimestamp, hmessage⟩
    rw [mem_fetchErrorsForApp, hresults, lineKey_of_same htimestamp hmessage, hfirst] at hline
    obtain ⟨l, hl, rfl⟩ := Option.map_eq_some_iff.mp hline
    exact ⟨l, hl, sameError_iff.mpr ⟨htimestamp, hmessage⟩⟩
  · rintro ⟨l, hl, same⟩
    obtain ⟨htimestamp, hmessage⟩ := sameError_iff.mp same
    refine ⟨answerLine l, ?_, htimestamp, hmessage⟩
    rw [mem_fetchErrorsForApp, hresults, lineKey_of_same htimestamp hmessage, hfirst, hl]
    rfl

/-! ## The report -/

theorem reported_iff (happ : app ≠ "") :
    Reported rt localeCompare ips d app e ↔ app ∈ firstDirs ips ∧
      ∃ l, (ips.flatMap (firstErrors rt app d.text)).find? (fun l => errorKey l = errorKey e) =
        some l ∧ SameError e l := by
  rw [← kept_iff localeCompare happ, Reported, appErrors, fetchAppList_eq,
    firstDirs]
  cases (ips.map appDirs).find? (· ≠ []) with
  | none => simp
  | some apps =>
      simp only [Option.map_some, Option.some.injEq, Option.getD_some]
      constructor
      · rintro ⟨report, errors, rfl, hmem, line⟩
        obtain ⟨app', happ', heq⟩ := List.mem_map.mp hmem
        obtain ⟨rfl, rfl⟩ := Prod.mk.inj heq
        exact ⟨happ', line⟩
      · rintro ⟨hlisted, line⟩
        exact ⟨_, _, rfl, List.mem_map.mpr ⟨app, hlisted, rfl⟩, line⟩

theorem reported_iff_not_lost (happ : app ≠ "") :
    Reported rt localeCompare ips d app e ↔ ¬ Lost rt ips d app e := by
  rw [reported_iff happ]
  constructor
  · rintro ⟨hlisted, l, hfirst, same⟩ lost
    cases lost with
    | unlisted h => exact h hlisted
    | unanswered h => exact h l (List.mem_of_find?_eq_some hfirst) same
    | merged l' hother h =>
        obtain rfl := Option.some.inj (hfirst.symm.trans h)
        exact hother same
  · intro kept
    refine ⟨not_not.mp fun h => kept (.unlisted h), ?_⟩
    cases hfirst : (ips.flatMap (firstErrors rt app d.text)).find?
        fun l => errorKey l = errorKey e with
    | none =>
        refine absurd (.unanswered fun l hl same => ?_) kept
        obtain ⟨htimestamp, hmessage⟩ := sameError_iff.mp same
        exact absurd (lineKey_of_same htimestamp hmessage)
          (of_decide_eq_false (Bool.eq_false_iff.mpr (List.find?_eq_none.mp hfirst l hl)))
    | some l => exact ⟨l, rfl, not_not.mp fun h => kept (.merged l h hfirst)⟩

theorem mem_matchList {ip : Instance} {f : LogFile} (herror : IsError rt d app e ip f)
    (hdated : f.date = d.text) :
    e ∈ ip.handler.reader.matchList rt (errorParams app d.text) := by
  have hfile := mem_listFiles_day herror.file (hdated ▸ date_ne_empty d)
  rw [hdated] at hfile
  have hmatch : matchFilters rt e (errorParams app d.text) = true := by
    have hlevel : matchLevel rt e (errorParams app d.text) = true :=
      Bool.or_eq_true_iff.mpr (Or.inr herror.level)
    rw [matchFilters, hlevel]
    rfl
  exact List.mem_flatMap.mpr ⟨f, hfile, List.mem_filter.mpr ⟨herror.entry, hmatch⟩⟩

/-- An error in a file of the day is not lost when its app is listed, the files of the day can be
read and hold at most 500 errors, and no other answer has its key. -/
theorem not_lost_of_few {ip : Instance} {f : LogFile} (hlisted : app ∈ firstDirs ips)
    (hip : ip ∈ ips) (herror : IsError rt d app e ip f) (hdated : f.date = d.text)
    (hreadable : ∀ g ∈ ip.handler.reader.listFiles app d.text d.text,
      ip.handler.reader.Readable g)
    (hfew : (ip.handler.reader.matchList rt (errorParams app d.text)).length ≤ 500)
    (hkeys : ∀ l ∈ ips.flatMap (firstErrors rt app d.text), errorKey l = errorKey e →
      SameError e l) : ¬ Lost rt ips d app e := by
  have hanswer : e ∈ ips.flatMap (firstErrors rt app d.text) := by
    refine List.mem_flatMap.mpr ⟨ip, hip, ?_⟩
    rw [firstErrors, if_pos herror.reachable]
    dsimp only
    rw [heldFiles_readable rt _ hreadable]
    exact (List.take_of_length_le hfew).symm ▸ mem_matchList herror hdated
  intro lost
  cases lost with
  | unlisted h => exact h hlisted
  | unanswered h => exact h e hanswer ⟨rfl, rfl⟩
  | merged l hother h =>
      have hkey := List.find?_some h
      exact hother (hkeys l (List.mem_of_find?_eq_some h) (of_decide_eq_true hkey))

/-- The report misses no error exactly if none of a day is lost: each is of an app of the first
instance with apps, among the first 500 that some instance can read, and the first of its key. -/
theorem missesNoError_iff :
    MissesNoError rt localeCompare ips d ↔
      ∀ app, AppExists ips app → ∀ ip ∈ ips, ∀ f e, IsError rt d app e ip f →
        ¬ Lost rt ips d app e := by
  constructor
  · intro misses app hexists ip hip f e herror
    exact (reported_iff_not_lost hexists.1).mp (misses app hexists ip hip f e herror)
  · intro kept app hexists ip hip f e herror
    exact (reported_iff_not_lost hexists.1).mpr (kept app hexists ip hip f e herror)

/-- A disk with one app and one log file of the day, which holds an error. -/
def oneError (app : String) : Reader where
  baseDir := "/opt/logs"
  fs :=
    { readDir := fun dir =>
        if dir = "/opt/logs" then some [⟨app, true, none⟩]
        else if dir = "/opt/logs/" ++ app then
          some [⟨"app.2024-01-15.log", false, some ⟨"2024-01-16", 60⟩⟩]
        else none
      openFile := fun _ => some ⟨"2024-01-15 10:30:45.123 ERROR c.e.S - failed\n", false⟩ }

def twoNodes : List Instance :=
  [⟨true, ⟨oneError "gateway", "node-1"⟩⟩, ⟨true, ⟨oneError "billing", "node-2"⟩⟩]

def dayFile : LogFile where
  name := "app.2024-01-15.log"
  date := "2024-01-15"
  size := 60
  compressed := false
  fullPath := "/opt/logs/billing/app.2024-01-15.log"

def failedLine : LogReader.LogLine where
  timestamp := "2024-01-15 10:30:45.123"
  level := "ERROR"
  source := "c.e.S"
  message := "failed"
  file := "app.2024-01-15.log"
  lineNo := 1

/-- The error of an app that only the second node has is in no list. -/
theorem missesNoError_two_nodes :
    ¬ MissesNoError Runtime.ascii (fun _ _ => 0) twoNodes sampleDate := by
  intro misses
  have hexists : AppExists twoNodes "billing" :=
    ⟨by decide, twoNodes[1], List.mem_cons_of_mem _ List.mem_cons_self, by decide⟩
  have herror : IsError Runtime.ascii sampleDate "billing" failedLine twoNodes[1] dayFile := {
    reachable := rfl
    file := by decide
    entry := by decide
    level := by decide
    day := Or.inl (by decide) }
  have reported := misses "billing" hexists _ (List.mem_cons_of_mem _ List.mem_cons_self)
    dayFile failedLine herror
  exact absurd ((reported_iff (by decide)).mp reported).1 (by decide)

end NestGateway.DailyReport
