import NestGateway.Core.JsMap
import NestGateway.Core.JsString
import NestGateway.Core.JsonText

/-! # The log lines of the services

`ecsJsonFormat` of the winston logger writes one JSON object for each record:
the fields of the ECS schema, then the other entries of the record.
-/

namespace NestGateway.Logger

open Text GoJson
open JsString (truthy)

/-- A winston record; `rest` are the entries other than the four that are taken out. -/
structure Info where
  level : String
  message : String
  context : Option String := none
  trace : Option String := none
  /-- An entry that is undefined has no value. -/
  rest : JsMap String (Option Json) := JsMap.empty

/-- The time of a record, with the parts of it in Korea that the formatter yields. -/
structure Moment where
  toISOString : String
  nonempty : toISOString ≠ ""
  formatToParts : List (String × String)

structure Process where
  pid : Nat
  /-- The variable `SERVICE_NAME`. -/
  serviceName : Option String := none
  deriving Repr, DecidableEq

def koreaTimeZone : String := "Asia/Seoul"

def getDateTimePart (parts : List (String × String)) (type : String) : String :=
  match parts.find? (·.1 = type) with
  | none => ""
  | some part => part.2

def getKoreaIsoTimestamp (date : Moment) : String :=
  let part := getDateTimePart date.formatToParts
  part "year" ++ "-" ++ part "month" ++ "-" ++ part "day" ++ "T" ++ part "hour" ++ ":" ++
    part "minute" ++ ":" ++ part "second" ++ "." ++ part "fractionalSecond" ++ "+09:00"

/-- The number that a key is the decimal text of, if it is an array index. -/
def arrayIndex (key : String) : Option Nat :=
  match digitsValue key.toList with
  | none => none
  | some n => if Nat.repr n = key ∧ n < 2 ^ 32 - 1 then some n else none

/-- The order in which an object enumerates its properties: the array indices in ascending
order, then the other keys as they were added. -/
def propertyOrder {β : Type} (fields : List (String × β)) : List (String × β) :=
  (fields.filter fun field => (arrayIndex field.1).isSome).insertionSort
      (fun a b => (arrayIndex a.1).getD 0 ≤ (arrayIndex b.1).getD 0) ++
    fields.filter fun field => !(arrayIndex field.1).isSome

theorem propertyOrder_perm {β : Type} (fields : List (String × β)) :
    (propertyOrder fields).Perm fields :=
  ((List.perm_insertionSort _ _).append_right _).trans (List.filter_append_perm _ _)

/-- The keys of a record that are not written as they are. -/
def internalKeys : List String := ["level", "message", "splat", "context", "trace"]

/-- The keys that the format writes itself. -/
def ecsKeys : List String :=
  ["@timestamp", "event.created_kst", "event.timezone", "log.level", "message", "ecs.version",
    "process.pid", "service.name", "log.logger", "error.stack_trace"]

def fixedFields (process : Process) (now : Moment) (info : Info) : List (String × Json) :=
  [("@timestamp", .str now.toISOString),
    ("event.created_kst", .str (getKoreaIsoTimestamp now)),
    ("event.timezone", .str koreaTimeZone),
    ("log.level", .str info.level),
    ("message", .str info.message),
    ("ecs.version", .str "8.11.0"),
    ("process.pid", .num (Nat.repr process.pid)),
    ("service.name", .str ((truthy process.serviceName).getD "app"))]

/-- Set a field to a text unless it is falsy. -/
def setTruthy (key : String) (text : Option String) (ecs : List (String × Json)) :
    List (String × Json) :=
  match truthy text with
  | none => ecs
  | some text => setKey key (.str text) ecs

/-- `ecs[key] = value`: under `__proto__` it sets the prototype, of which nothing is written. -/
def assign (key : String) (value : Json) (ecs : List (String × Json)) : List (String × Json) :=
  if key = "__proto__" then ecs else setKey key value ecs

/-- One turn of the loop over the other entries. -/
def setRest (ecs : List (String × Json)) (entry : String × Option Json) : List (String × Json) :=
  if entry.1 ∈ internalKeys then ecs
  else
    match entry.2 with
    | none => ecs
    | some value => assign entry.1 value ecs

/-- The object, its fields in the order in which they are set. -/
def ecsFields (process : Process) (now : Moment) (info : Info) : List (String × Json) :=
  let ecs := fixedFields process now info
  let ecs := setTruthy "log.logger" info.context ecs
  let ecs := setTruthy "error.stack_trace" info.trace ecs
  info.rest.entries.foldl setRest ecs

def ecsObject (process : Process) (now : Moment) (info : Info) : List (String × Json) :=
  propertyOrder (ecsFields process now info)

def ecsJsonFormat (process : Process) (now : Moment) (info : Info) : String :=
  stringify (.obj (ecsObject process now info))

def textField (key : String) (text : Option String) : List (String × Json) :=
  match truthy text with
  | none => []
  | some text => [(key, .str text)]

def definedEntries (info : Info) : List (String × Json) :=
  info.rest.entries.filterMap fun entry => entry.2.map (entry.1, ·)

/-- The other entries take none of the keys that the format writes, leaves out or loses. -/
def Apart (info : Info) : Prop :=
  ∀ key ∈ info.rest.keys, key ∉ internalKeys ∧ key ∉ ecsKeys ∧ key ≠ "__proto__"

theorem setTruthy_new {key : String} {ecs : List (String × Json)}
    (h : key ∉ ecs.map Prod.fst) (text : Option String) :
    setTruthy key text ecs = ecs ++ textField key text := by
  rw [setTruthy, textField]
  split
  · exact (List.append_nil ecs).symm
  · exact setKey_new h _

theorem foldl_setRest {entries : List (String × Option Json)} {ecs : List (String × Json)}
    (hinternal : ∀ entry ∈ entries, entry.1 ∉ internalKeys)
    (hproto : ∀ entry ∈ entries, entry.1 ≠ "__proto__")
    (hnew : ∀ entry ∈ entries, entry.1 ∉ ecs.map Prod.fst)
    (hnodup : (entries.map Prod.fst).Nodup) :
    entries.foldl setRest ecs =
      ecs ++ entries.filterMap fun entry => entry.2.map (entry.1, ·) := by
  induction entries generalizing ecs with
  | nil => exact (List.append_nil ecs).symm
  | cons entry entries ih =>
      obtain ⟨key, value⟩ := entry
      obtain ⟨hfresh, hrest⟩ := List.nodup_cons.mp hnodup
      have hinternal' : ∀ entry ∈ entries, entry.1 ∉ internalKeys := fun entry hmem =>
        hinternal entry (List.mem_cons_of_mem _ hmem)
      have hproto' : ∀ entry ∈ entries, entry.1 ≠ "__proto__" := fun entry hmem =>
        hproto entry (List.mem_cons_of_mem _ hmem)
      have hnew' : ∀ entry ∈ entries, entry.1 ∉ ecs.map Prod.fst := fun entry hmem =>
        hnew entry (List.mem_cons_of_mem _ hmem)
      rw [List.foldl_cons, setRest, if_neg (hinternal _ List.mem_cons_self)]
      cases value with
      | none => exact ih hinternal' hproto' hnew' hrest
      | some value =>
          dsimp only
          rw [assign, if_neg (hproto _ List.mem_cons_self),
            setKey_new (hnew _ List.mem_cons_self), ih hinternal' hproto' _ hrest,
            List.append_assoc]
          · rfl
          · intro entry hmem
            rw [List.map_append, List.mem_append, not_or]
            refine ⟨hnew' entry hmem, fun heq => hfresh ?_⟩
            rw [← List.mem_singleton.mp heq]
            exact List.mem_map_of_mem hmem

theorem keys_textField {key k : String} {text : Option String}
    (h : k ∈ (textField key text).map Prod.fst) : k = key := by
  rw [textField] at h
  split at h
  · cases h
  · exact List.mem_singleton.mp h

/-- The fields that the format adds itself. -/
def ownFields (process : Process) (now : Moment) (info : Info) : List (String × Json) :=
  fixedFields process now info ++ textField "log.logger" info.context ++
    textField "error.stack_trace" info.trace

theorem keys_fixedFields (process : Process) (now : Moment) (info : Info) :
    (fixedFields process now info).map Prod.fst = ecsKeys.take 8 := rfl

theorem keys_ownFields {process : Process} {now : Moment} {info : Info} {key : String}
    (h : key ∈ (ownFields process now info).map Prod.fst) : key ∈ ecsKeys := by
  rw [ownFields, List.map_append, List.map_append, keys_fixedFields] at h
  rcases List.mem_append.mp h with h | h
  · rcases List.mem_append.mp h with h | h
    · exact List.mem_of_mem_take h
    · rw [keys_textField h]
      decide
  · rw [keys_textField h]
    decide

theorem nodup_textField (key : String) (text : Option String) :
    ((textField key text).map Prod.fst).Nodup := by
  rw [textField]
  split
  · exact List.nodup_nil
  · exact List.nodup_singleton _

theorem nodup_ownFields (process : Process) (now : Moment) (info : Info) :
    ((ownFields process now info).map Prod.fst).Nodup := by
  rw [ownFields, List.map_append, List.map_append, keys_fixedFields]
  refine List.Nodup.append (List.Nodup.append (by decide) (nodup_textField _ _) ?_)
    (nodup_textField _ _) ?_
  · intro key hfixed hlogger
    rw [keys_textField hlogger] at hfixed
    exact absurd hfixed (by decide)
  · intro key hown htrace
    rw [keys_textField htrace] at hown
    rcases List.mem_append.mp hown with h | h
    · exact absurd h (by decide)
    · exact absurd (keys_textField h) (by decide)

theorem mem_keys_definedEntries {info : Info} {key : String}
    (h : key ∈ (definedEntries info).map Prod.fst) : key ∈ info.rest.keys := by
  obtain ⟨field, hfield, rfl⟩ := List.mem_map.mp h
  obtain ⟨entry, hentry, heq⟩ := List.mem_filterMap.mp hfield
  obtain ⟨value, _, rfl⟩ := Option.map_eq_some_iff.mp heq
  exact List.mem_map_of_mem hentry

theorem keys_defined_sublist (entries : List (String × Option Json)) :
    List.Sublist ((entries.filterMap fun entry => entry.2.map (entry.1, ·)).map Prod.fst)
      (entries.map Prod.fst) := by
  induction entries with
  | nil => exact List.Sublist.slnil
  | cons entry entries ih =>
      obtain ⟨key, value⟩ := entry
      cases value with
      | none => exact ih.cons key
      | some value => exact ih.cons_cons key

/-- The object when no entry takes a key of the format. -/
theorem ecsFields_eq {info : Info} (apart : Apart info) (process : Process) (now : Moment) :
    ecsFields process now info = ownFields process now info ++ definedEntries info := by
  have hlogger : "log.logger" ∉ (fixedFields process now info).map Prod.fst := by
    rw [keys_fixedFields]
    decide
  have htrace : "error.stack_trace" ∉
      (fixedFields process now info ++ textField "log.logger" info.context).map Prod.fst := by
    rw [List.map_append, keys_fixedFields, List.mem_append, not_or]
    exact ⟨by decide, fun h => absurd (keys_textField h) (by decide)⟩
  have hmem : ∀ entry ∈ info.rest.entries, entry.1 ∈ info.rest.keys := fun entry h =>
    List.mem_map_of_mem h
  rw [ecsFields, setTruthy_new hlogger, setTruthy_new htrace,
    foldl_setRest (fun entry h => (apart _ (hmem entry h)).1)
      (fun entry h => (apart _ (hmem entry h)).2.2) (fun entry h hown => ?_) info.rest.nodup]
  · rfl
  · exact (apart _ (hmem entry h)).2.1 (keys_ownFields hown)

theorem nodup_ecsFields {info : Info} (apart : Apart info) (process : Process) (now : Moment) :
    ((ecsFields process now info).map Prod.fst).Nodup := by
  rw [ecsFields_eq apart, List.map_append]
  refine List.Nodup.append (nodup_ownFields process now info) ?_ ?_
  · exact (keys_defined_sublist info.rest.entries).nodup info.rest.nodup
  · intro key hown hdefined
    exact (apart key (mem_keys_definedEntries hdefined)).2.1 (keys_ownFields hown)

end NestGateway.Logger
