import NestGateway.Core.CountByKey
import NestGateway.Core.JsString
import NestGateway.Core.StableSort
import NestGateway.DailyReport.MissedErrors

/-! # The message of the daily report

What the script posts to Slack: a section for each app with its errors counted
by the first line of their messages, the most frequent first, cut to what Slack
accepts. Texts are code units.
-/

namespace NestGateway.DailyReport

open Text GoTime LogReader LogHistory JsString

def SLACK_CHAR_LIMIT : Nat := 40000

def newline : UInt16 := 10

def truncateMessage (str : String) (max : Nat := 200) : List UInt16 :=
  let firstLine := (units str).takeWhile (· ≠ newline)
  if firstLine.length ≤ max then firstLine else firstLine.take max ++ units "..."

structure ErrorGroup where
  message : List UInt16
  count : Nat
  deriving Repr, DecidableEq

def groupErrors (errors : List AnswerLine) : List ErrorGroup :=
  ((countByKey (fun line => truncateMessage line.message) errors).entries.map
    fun entry => (⟨entry.1, entry.2⟩ : ErrorGroup)).insertionSort fun a b => b.count ≤ a.count

def groupLine (group : ErrorGroup) : List UInt16 :=
  units "> • " ++ group.message ++
    if 1 < group.count then units (" _(" ++ Nat.repr group.count ++ "건)_") else []

def appLines (app : String) (errors : List AnswerLine) : List (List UInt16) :=
  if errors = [] then [units (":white_check_mark: *" ++ app ++ "* — ERROR: 0건")]
  else
    units (":red_circle: *" ++ app ++ "* — ERROR: " ++ Nat.repr errors.length ++ "건") ::
      (groupErrors errors).map groupLine

/-- `parts` of `buildSlackMessage`. -/
def parts (date : String) (appErrors : List (String × List AnswerLine)) : List (List UInt16) :=
  units ("*Daily ERROR Log Report (" ++ date ++ ")*") :: [] ::
    appErrors.flatMap fun (app, errors) => appLines app errors ++ [[]]

def wholeText (date : String) (appErrors : List (String × List AnswerLine)) : List UInt16 :=
  [newline].intercalate (parts date appErrors)

def notice : List UInt16 :=
  units "\n\n:warning: _Report truncated due to Slack message size limit._"

structure SlackMessage where
  text : List UInt16
  totalErrors : Nat
  deriving Repr, DecidableEq

def buildSlackMessage (date : String) (appErrors : List (String × List AnswerLine)) :
    SlackMessage where
  text :=
    if SLACK_CHAR_LIMIT < (wholeText date appErrors).length then
      (wholeText date appErrors).take (SLACK_CHAR_LIMIT - notice.length) ++ notice
    else wholeText date appErrors
  totalErrors := appErrors.foldl (fun total entry => total + entry.2.length) 0

structure Outcome where
  posted : Option (List UInt16)
  exitCode : Nat
  deriving Repr, DecidableEq

/-- `main` for the date of yesterday; the addresses are none when DNS does not resolve. -/
def main (rt : Runtime) (localeCompare : String → String → Int)
    (slackWebhookUrl : Option String) (reportNoErrors : Bool) (date : String)
    (discovered : Option (List Instance)) (slackAccepts : Bool) : Outcome :=
  match slackWebhookUrl.filter (· ≠ ""), discovered with
  | none, _ => ⟨none, 1⟩
  | some _, none => ⟨none, 1⟩
  | some _, some ips =>
      match appErrors rt localeCompare date ips with
      | none => ⟨none, 1⟩
      | some report =>
          let message := buildSlackMessage date report
          if message.totalErrors = 0 ∧ reportNoErrors = false then ⟨none, 0⟩
          else ⟨some message.text, if slackAccepts then 0 else 1⟩

/-- How often an app's errors read the same. -/
def alike (errors : List AnswerLine) (message : List UInt16) : Nat :=
  countOf (fun line : AnswerLine => truncateMessage line.message) errors message

/-- The groups an app's errors fall into, in the order in which they are told. -/
structure Grouped (errors : List AnswerLine) (groups : List ErrorGroup) : Prop where
  mem : ∀ group, group ∈ groups ↔
    group.message ∈ errors.map (fun line => truncateMessage line.message) ∧
      group.count = alike errors group.message
  once : (groups.map ErrorGroup.message).Nodup
  total : (groups.map ErrorGroup.count).sum = errors.length
  frequent : groups.Pairwise fun a b => b.count ≤ a.count
  /-- Of groups with one count the one whose error came first is first. -/
  first : ∀ n, (groups.filter (·.count = n)).map ErrorGroup.message =
    (firstKeys (fun line : AnswerLine => truncateMessage line.message) errors).filter
      (alike errors · = n)

theorem groupErrors_eq (errors : List AnswerLine) :
    groupErrors errors =
      ((firstKeys (fun line : AnswerLine => truncateMessage line.message) errors).map
        fun message => (⟨message, alike errors message⟩ : ErrorGroup)).insertionSort
          fun a b => b.count ≤ a.count := by
  unfold groupErrors
  rw [entries_countByKey, List.map_map]
  rfl

theorem grouped_groupErrors (errors : List AnswerLine) : Grouped errors (groupErrors errors) := by
  rw [groupErrors_eq]
  generalize hgroups :
    (firstKeys (fun line : AnswerLine => truncateMessage line.message) errors).map
      (fun message => (⟨message, alike errors message⟩ : ErrorGroup)) = groups
  have hperm := List.perm_insertionSort (fun a b : ErrorGroup => b.count ≤ a.count) groups
  have hmessages : groups.map ErrorGroup.message =
      firstKeys (fun line : AnswerLine => truncateMessage line.message) errors := by
    rw [← hgroups, List.map_map]
    exact List.map_id _
  have trans : ∀ a b c : ErrorGroup, b.count ≤ a.count → c.count ≤ b.count → c.count ≤ a.count :=
    fun _ _ _ hab hbc => hbc.trans hab
  have total : ∀ a b : ErrorGroup, b.count ≤ a.count ∨ a.count ≤ b.count :=
    fun a b => Nat.le_total _ _
  refine ⟨fun group => ?_, ?_, ?_, ?_, fun n => ?_⟩
  · rw [hperm.mem_iff, ← hgroups, List.mem_map, ← mem_firstKeys]
    constructor
    · rintro ⟨message, hmem, rfl⟩
      exact ⟨hmem, rfl⟩
    · rintro ⟨hmem, hcount⟩
      exact ⟨group.message, hmem, by rw [← hcount]⟩
  · rw [(hperm.map _).nodup_iff, hmessages]
    exact nodup_firstKeys errors
  · rw [(hperm.map _).sum_eq, ← hgroups, List.map_map]
    exact sum_countOf errors
  · have : Std.Total fun a b : ErrorGroup => b.count ≤ a.count := ⟨total⟩
    have : IsTrans ErrorGroup fun a b => b.count ≤ a.count := ⟨trans⟩
    exact List.pairwise_insertionSort _ groups
  · rw [StableSort.filter_insertionSort trans total]
    have hsame : ∀ a ∈ groups.filter (·.count = n), ∀ b ∈ groups.filter (·.count = n),
        b.count ≤ a.count := by
      intro a ha b hb
      have := of_decide_eq_true (List.mem_filter.mp ha).2
      have := of_decide_eq_true (List.mem_filter.mp hb).2
      omega
    have hsorted : (groups.filter (·.count = n)).Pairwise fun a b => b.count ≤ a.count :=
      List.pairwise_of_forall_mem_list hsame
    rw [hsorted.insertionSort_eq, ← hgroups, List.filter_map, List.map_map]
    exact List.map_id _

/-! ## Sections of the text -/

theorem intercalate_append {sep : List UInt16} {xs ys : List (List UInt16)} (hxs : xs ≠ [])
    (hys : ys ≠ []) :
    sep.intercalate (xs ++ ys) = sep.intercalate xs ++ (sep ++ sep.intercalate ys) := by
  induction xs with
  | nil => exact absurd rfl hxs
  | cons x xs ih =>
      rw [List.cons_append,
        List.intercalate_cons_of_ne_nil (List.append_ne_nil_of_right_ne_nil xs hys)]
      cases xs with
      | nil => rw [List.nil_append, List.intercalate_singleton, List.append_assoc]
      | cons x' xs =>
          rw [ih (List.cons_ne_nil _ _), List.intercalate_cons_of_ne_nil (List.cons_ne_nil _ _)]
          simp only [List.append_assoc]

theorem infix_intercalate {sep : List UInt16} {xs ys zs : List (List UInt16)} (hys : ys ≠ []) :
    sep.intercalate ys <:+: sep.intercalate (xs ++ (ys ++ zs)) := by
  have hfront : sep.intercalate ys <+: sep.intercalate (ys ++ zs) := by
    by_cases hzs : zs = []
    · rw [hzs, List.append_nil]
    · rw [intercalate_append hys hzs]
      exact List.prefix_append _ _
  have hback : sep.intercalate (ys ++ zs) <:+ sep.intercalate (xs ++ (ys ++ zs)) := by
    by_cases hxs : xs = []
    · rw [hxs, List.nil_append]
    · rw [intercalate_append hxs (List.append_ne_nil_of_left_ne_nil hys zs), ← List.append_assoc]
      exact List.suffix_append _ _
  exact hfront.isInfix.trans hback.isInfix

theorem appLines_ne_nil (app : String) (errors : List AnswerLine) : appLines app errors ≠ [] := by
  unfold appLines
  split
  · exact List.cons_ne_nil _ _
  · exact List.cons_ne_nil _ _

theorem section_within {date app : String} {report : List (String × List AnswerLine)}
    {errors : List AnswerLine} (h : (app, errors) ∈ report) :
    [newline].intercalate (appLines app errors) <:+: wholeText date report := by
  obtain ⟨before, after, rfl⟩ := List.append_of_mem h
  unfold wholeText parts
  rw [List.flatMap_append, List.flatMap_cons, List.append_assoc, ← List.cons_append,
    ← List.cons_append]
  exact infix_intercalate (appLines_ne_nil app errors)

theorem length_notice : notice.length = 63 := by decide

theorem text_of_fits {date : String} {report : List (String × List AnswerLine)}
    (h : (wholeText date report).length ≤ SLACK_CHAR_LIMIT) :
    (buildSlackMessage date report).text = wholeText date report := by
  unfold buildSlackMessage
  dsimp only
  rw [if_neg (Nat.not_lt.mpr h)]

theorem text_of_long {date : String} {report : List (String × List AnswerLine)}
    (h : SLACK_CHAR_LIMIT < (wholeText date report).length) :
    (buildSlackMessage date report).text =
      (wholeText date report).take (SLACK_CHAR_LIMIT - notice.length) ++ notice := by
  unfold buildSlackMessage
  dsimp only
  rw [if_pos h]

theorem length_buildSlackMessage (date : String) (report : List (String × List AnswerLine)) :
    (buildSlackMessage date report).text.length ≤ SLACK_CHAR_LIMIT := by
  rcases Nat.lt_or_ge SLACK_CHAR_LIMIT (wholeText date report).length with hlong | hfits
  · rw [text_of_long hlong, List.length_append, List.length_take, length_notice]
    unfold SLACK_CHAR_LIMIT at hlong ⊢
    omega
  · rw [text_of_fits hfits]
    exact hfits

theorem totalErrors_eq (date : String) (report : List (String × List AnswerLine)) :
    (buildSlackMessage date report).totalErrors = (report.map fun entry => entry.2.length).sum := by
  unfold buildSlackMessage
  rw [List.sum_eq_foldl, List.foldl_map]

theorem totalErrors_ne_zero {date app : String} {report : List (String × List AnswerLine)}
    {errors : List AnswerLine} (h : (app, errors) ∈ report) (hne : errors ≠ []) :
    (buildSlackMessage date report).totalErrors ≠ 0 := by
  have hle := List.single_le_sum (l := report.map fun entry => entry.2.length)
    (fun _ _ => Nat.zero_le _) errors.length (List.mem_map.mpr ⟨_, h, rfl⟩)
  have hpos := List.length_pos_iff.mpr hne
  rw [totalErrors_eq]
  omega

/-! ## What is posted -/

/-- The lines of an app with errors, whose groups are given. -/
def sectionLines (app : String) (errors : List AnswerLine) (groups : List ErrorGroup) :
    List (List UInt16) :=
  units (":red_circle: *" ++ app ++ "* — ERROR: " ++ Nat.repr errors.length ++ "건") ::
    groups.map groupLine

/-- An error that the report's list of its app holds is posted: its app has a section that counts
it among those that read the same, unless the text is longer than Slack accepts and is cut. -/
theorem reported_posted {rt : Runtime} {localeCompare : String → String → Int}
    {ips : List Instance} {d : CalendarDate} {app : String} {e : LogReader.LogLine}
    (hreported : Reported rt localeCompare ips d app e) {url : String} (hurl : url ≠ "")
    (reportNoErrors slackAccepts : Bool) :
    ∃ report errors groups text, appErrors rt localeCompare d.text ips = some report ∧
      (app, errors) ∈ report ∧
      main rt localeCompare (some url) reportNoErrors d.text (some ips) slackAccepts =
        ⟨some text, if slackAccepts then 0 else 1⟩ ∧
      Grouped errors groups ∧
      (∃ group ∈ groups, group.message = truncateMessage e.message ∧ 0 < group.count) ∧
      text.length ≤ SLACK_CHAR_LIMIT ∧
      if (wholeText d.text report).length ≤ SLACK_CHAR_LIMIT then
        [newline].intercalate (sectionLines app errors groups) <:+: text
      else text = (wholeText d.text report).take (SLACK_CHAR_LIMIT - notice.length) ++ notice := by
  obtain ⟨report, errors, hreport, happ, line, hline, _, hmessage⟩ := hreported
  have hne : errors ≠ [] := List.ne_nil_of_mem hline
  refine ⟨report, errors, groupErrors errors, (buildSlackMessage d.text report).text, hreport, happ,
    ?_, grouped_groupErrors errors, ?_, length_buildSlackMessage d.text report, ?_⟩
  · unfold main
    rw [Option.filter_some, if_pos (decide_eq_true hurl)]
    dsimp only
    rw [hreport]
    dsimp only
    rw [if_neg fun h => totalErrors_ne_zero happ hne h.1]
  · have hread : truncateMessage e.message ∈
        errors.map fun line => truncateMessage line.message :=
      List.mem_map.mpr ⟨line, hline, by rw [hmessage]⟩
    refine ⟨⟨_, alike errors (truncateMessage e.message)⟩,
      ((grouped_groupErrors errors).mem _).mpr ⟨hread, rfl⟩, rfl, ?_⟩
    exact List.countP_pos_iff.mpr ⟨line, hline, decide_eq_true (congrArg truncateMessage hmessage)⟩
  · have hsection := @section_within d.text _ _ _ happ
    unfold appLines at hsection
    rw [if_neg hne] at hsection
    rw [ite_prop_iff_and]
    refine ⟨fun hfits => ?_, fun hlong => text_of_long (Nat.lt_of_not_le hlong)⟩
    rw [text_of_fits hfits]
    exact hsection

/-- The disk of a node whose app has failed twice and lost something in between. -/
def threeErrors : Reader where
  baseDir := "/opt/logs"
  fs :=
    { readDir := fun dir =>
        if dir = "/opt/logs" then some [⟨"gateway", true, none⟩]
        else if dir = "/opt/logs/gateway" then
          some [⟨"app.2024-01-15.log", false, some ⟨"2024-01-15", 120⟩⟩]
        else none
      openFile := fun _ =>
        some ⟨"[ERROR] 2024-01-15 10:30:45.123 [S] failed\n" ++
          "[ERROR] 2024-01-15 10:30:46.000 [S] lost\n" ++
          "[ERROR] 2024-01-15 10:30:47.000 [S] failed\n", false⟩ }

/-- The other node does not answer. -/
def oneOfTwo : List Instance :=
  [⟨false, ⟨oneError "billing", "node-1"⟩⟩, ⟨true, ⟨threeErrors, "node-2"⟩⟩]

def lostLine : LogReader.LogLine where
  timestamp := "2024-01-15 10:30:46.000"
  level := "ERROR"
  source := "S"
  message := "lost"
  file := "app.2024-01-15.log"
  lineNo := 2

theorem reported_lostLine :
    Reported Runtime.ascii (fun _ _ => 0) oneOfTwo sampleDate "gateway" lostLine :=
  (reported_iff (by decide)).mpr ⟨by decide +kernel, lostLine, by decide +kernel, rfl, rfl⟩

theorem reported_posted_first :
    ∃ report errors groups text,
      appErrors Runtime.ascii (fun _ _ => 0) sampleDate.text oneOfTwo = some report ∧
      ("gateway", errors) ∈ report ∧
      main Runtime.ascii (fun _ _ => 0) (some "https://hooks.example.com") false sampleDate.text
        (some oneOfTwo) true = ⟨some text, if true then 0 else 1⟩ ∧
      Grouped errors groups ∧
      (∃ group ∈ groups, group.message = truncateMessage lostLine.message ∧ 0 < group.count) ∧
      text.length ≤ SLACK_CHAR_LIMIT ∧
      if (wholeText sampleDate.text report).length ≤ SLACK_CHAR_LIMIT then
        [newline].intercalate (sectionLines "gateway" errors groups) <:+: text
      else text =
        (wholeText sampleDate.text report).take (SLACK_CHAR_LIMIT - notice.length) ++ notice :=
  @reported_posted _ _ _ _ _ _ reported_lostLine "https://hooks.example.com" (by decide) false true

end NestGateway.DailyReport
