import NestGateway.Core.FirstOfKey
import NestGateway.LogHistory.Streamer

/-! # The daily error report

The script that collects the errors of a day: it takes the apps from the first
instance that lists some, asks every instance for the errors of each app, and
keeps one line of each timestamp and message. The order of two texts in the
locale is a parameter, `localeCompare`.
-/

namespace NestGateway.DailyReport

open Text LogReader LogHistory

/-- A log-streamer at one of the addresses that DNS gives. -/
structure Instance where
  reachable : Bool
  handler : LogFilesHandler

/-- `fetchAppList`; an answer without a list throws as a failed request does. -/
def fetchAppList : List Instance → Option (List String)
  | [] => none
  | ip :: ips =>
      match if ip.reachable then ip.handler.apps.bind (·.apps) else none with
      | some names => some names
      | none => fetchAppList ips

def errorQuery (app date : String) : Query :=
  [("app", app), ("from", date), ("to", date), ("level", "ERROR"), ("limit", "500")]

/-- Timestamp and message as the script joins them. -/
def lineKey (line : AnswerLine) : String :=
  line.timestamp.getD "undefined" ++ "|" ++ line.message

section Runtime

variable (rt : Runtime) (localeCompare : String → String → Int)

/-- The lines of one instance, none when the request fails. -/
def fetchErrors (app date : String) (ip : Instance) : Option (List AnswerLine) :=
  if ip.reachable then
    (ip.handler.search rt (errorQuery app date)).bind (·.lines)
  else none

def fetchErrorsForApp (app date : String) (ips : List Instance) : List AnswerLine :=
  let results := ips.flatMap fun ip => (fetchErrors rt app date ip).getD []
  (firstOfKey lineKey [] results).insertionSort fun a b =>
    localeCompare (a.timestamp.getD "") (b.timestamp.getD "") ≤ 0

/-- `appErrors` of `main`, none when no instance lists an app. -/
def appErrors (date : String) (ips : List Instance) :
    Option (List (String × List AnswerLine)) :=
  (fetchAppList ips).map fun apps =>
    apps.map fun app => (app, fetchErrorsForApp rt localeCompare app date ips)

end Runtime

theorem mem_fetchErrorsForApp {rt : Runtime} {localeCompare : String → String → Int}
    {app date : String} {ips : List Instance} {line : AnswerLine} :
    line ∈ fetchErrorsForApp rt localeCompare app date ips ↔
      (ips.flatMap fun ip => (fetchErrors rt app date ip).getD []).find?
        (fun l => lineKey l = lineKey line) = some line := by
  rw [fetchErrorsForApp, (List.perm_insertionSort _ _).mem_iff, mem_firstOfKey]
  exact and_iff_right List.not_mem_nil

end NestGateway.DailyReport
