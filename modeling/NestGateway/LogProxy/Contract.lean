import Mathlib.Data.List.TakeWhile
import NestGateway.Core.JsString
import NestGateway.LogProxy.Topics

/-! # Streamed lines and the GraphQL schema

A line on its way to a viewer: the message the log-streamer sends for it, as a
JSON object without its empty fields, and the payload the gateway publishes, in
which a missing field stays undefined. The schema has no null for these fields.
-/

namespace NestGateway.LogProxy

open LogStreamer
open JsString (truthy truthy_none truthy_empty truthy_of_ne isSome_truthy getD_truthy)

/-- What a stream reads at once: a frame with the kind in its header, or a line of a TTY. -/
inductive Output where
  | frame (kind : UInt8) (payload : String)
  | tty (line : String)

/-- `strings.TrimRight(payload, "\n")` -/
def trimNewlines (cs : List Char) : List Char := (cs.reverse.dropWhile (· = '\n')).reverse

def Output.lines : Output → List LogLine
  | .frame kind payload =>
      ((trimNewlines payload.toList).splitOn '\n').map fun cs =>
        ⟨if kind = 2 then "stderr" else "stdout", String.ofList cs⟩
  | .tty line => [⟨"stdout", line⟩]

/-- The members of a JSON object of texts. -/
abbrev Members := List (String × String)

def omitEmpty (key value : String) : Members := if value = "" then [] else [(key, value)]

def marshalMessage (msg : Message) : Members :=
  [("type", msg.type)] ++ omitEmpty "containerId" msg.containerId ++
    omitEmpty "serviceName" msg.serviceName ++ omitEmpty "timestamp" msg.timestamp ++
    omitEmpty "message" msg.message ++ omitEmpty "stream" msg.stream ++
    omitEmpty "event" msg.event

structure WSLogMessage where
  type : Option String
  containerId : Option String
  serviceName : Option String
  timestamp : Option String
  message : Option String
  stream : Option String
  event : Option String
  deriving Repr, DecidableEq

def parseMessage (members : Members) : WSLogMessage where
  type := members.lookup "type"
  containerId := members.lookup "containerId"
  serviceName := members.lookup "serviceName"
  timestamp := members.lookup "timestamp"
  message := members.lookup "message"
  stream := members.lookup "stream"
  event := members.lookup "event"

/-- `LogEntry`, none where the published object has no such field. -/
structure LogEntry where
  containerId : Option String
  timestamp : Option String
  message : Option String
  stream : Option String
  deriving Repr, DecidableEq

/-- `ServiceLogEntry`; its `event` may be null. -/
structure ServiceLogEntry where
  containerId : Option String
  serviceName : Option String
  timestamp : Option String
  message : Option String
  stream : Option String
  event : Option String
  deriving Repr, DecidableEq

inductive Entry where
  | containerLog (entry : LogEntry)
  | serviceLog (entry : ServiceLogEntry)
  deriving Repr, DecidableEq

/-- Every field that the schema declares non-null is a text. -/
def Entry.Conforms : Entry → Prop
  | .containerLog e =>
      e.containerId.isSome ∧ e.timestamp.isSome ∧ e.message.isSome ∧ e.stream.isSome
  | .serviceLog e =>
      e.containerId.isSome ∧ e.serviceName.isSome ∧ e.timestamp.isSome ∧ e.message.isSome ∧
        e.stream.isSome

/-- The message handler, with the fields a message may lack. -/
def messageHandler (message : WSLogMessage) : List (String × Entry) :=
  match message.type with
  | some "log" =>
      match truthy message.containerId with
      | none => []
      | some containerId =>
          (containerTopic containerId, .containerLog
            { containerId := some containerId
              timestamp := message.timestamp
              message := message.message
              stream := message.stream }) ::
            match truthy message.serviceName with
            | none => []
            | some serviceName =>
                [(serviceTopic serviceName, .serviceLog
                  { containerId := some containerId
                    serviceName := some serviceName
                    timestamp := message.timestamp
                    message := message.message
                    stream := message.stream
                    event := none })]
  | some "service_event" =>
      match truthy message.serviceName with
      | none => []
      | some serviceName =>
          [(serviceTopic serviceName, .serviceLog
            { containerId := some (message.containerId.getD "")
              serviceName := some serviceName
              timestamp := message.timestamp
              message := message.message
              stream := some "event"
              event := message.event })]
  | _ => []

def entries (msg : Message) : List (String × Entry) :=
  messageHandler (parseMessage (marshalMessage msg))

theorem lookup_omitEmpty (key key' value : String) :
    (omitEmpty key value).lookup key' = if key' = key then truthy (some value) else none := by
  by_cases hempty : value = ""
  · simp [omitEmpty, hempty, truthy_empty]
  · by_cases hkey : key' = key
    · simp [omitEmpty, hempty, hkey, truthy_of_ne hempty]
    · simp [omitEmpty, hempty, hkey]

theorem parse_marshal (msg : Message) :
    parseMessage (marshalMessage msg) =
      { type := some msg.type
        containerId := truthy (some msg.containerId)
        serviceName := truthy (some msg.serviceName)
        timestamp := truthy (some msg.timestamp)
        message := truthy (some msg.message)
        stream := truthy (some msg.stream)
        event := truthy (some msg.event) } := by
  simp [parseMessage, marshalMessage, List.lookup_append, lookup_omitEmpty, List.lookup_cons]

/-- An entry with the missing fields read as empty. -/
def Entry.payload : Entry → Payload
  | .containerLog e =>
      .containerLog (e.containerId.getD "") (e.timestamp.getD "") (e.message.getD "")
        (e.stream.getD "")
  | .serviceLog e =>
      .serviceLog (e.containerId.getD "") (e.serviceName.getD "") (e.timestamp.getD "")
        (e.message.getD "") (e.stream.getD "") e.event

/-- Up to missing fields the entries are the publications of `onMessage`. -/
theorem entries_onMessage (msg : Message) :
    (entries msg).map (fun e => ⟨e.1, e.2.payload⟩) = onMessage msg := by
  rw [entries, parse_marshal, onMessage]
  by_cases hlog : msg.type = "log"
  · by_cases hid : msg.containerId = ""
    · simp [messageHandler, hlog, hid, truthy_none, truthy_empty]
    · by_cases hname : msg.serviceName = ""
      · simp [messageHandler, hlog, hid, hname, truthy_none, truthy_empty, truthy_of_ne,
          Entry.payload, getD_truthy]
      · simp [messageHandler, hlog, hid, hname, truthy_of_ne, truthy_of_ne hname, Entry.payload,
          getD_truthy]
  · by_cases hevent : msg.type = "service_event"
    · by_cases hname : msg.serviceName = ""
      · simp [messageHandler, hevent, hname, truthy_none, truthy_empty]
      · by_cases hkind : msg.event = ""
        · simp [messageHandler, hevent, hname, truthy_of_ne, truthy_empty, Entry.payload,
            getD_truthy, hkind]
        · simp [messageHandler, hevent, hname, truthy_of_ne, truthy_of_ne hkind, Entry.payload,
            getD_truthy, hkind]
    · have hnone : ∀ m : WSLogMessage, m.type = some msg.type → messageHandler m = [] := by
        intro m hm
        rw [messageHandler]
        split
        next h => exact absurd (Option.some.inj (hm.symm.trans h)) hlog
        next h => exact absurd (Option.some.inj (hm.symm.trans h)) hevent
        next => rfl
      rw [hnone _ rfl, if_neg fun h => hlog h.1, if_neg fun h => hevent h.1, List.map_nil]

/-- What is published for a log message conforms exactly if none of its fields was left out. -/
theorem conforms_log {msg : Message} (htype : msg.type = "log") (hid : msg.containerId ≠ "") :
    (∀ e ∈ entries msg, e.2.Conforms) ↔
      msg.timestamp ≠ "" ∧ msg.message ≠ "" ∧ msg.stream ≠ "" := by
  rw [entries, parse_marshal]
  by_cases hname : msg.serviceName = ""
  · simp [messageHandler, htype, truthy_of_ne hid, hname, truthy_none, truthy_empty,
      Entry.Conforms, isSome_truthy]
  · simp [messageHandler, htype, truthy_of_ne hid, truthy_of_ne hname, Entry.Conforms,
      isSome_truthy]

/-! ## Lines without a text -/

/-- The line is a timestamp as Docker writes it and the blank behind it, and nothing more. -/
def EndsAtStamp (line : String) : Prop :=
  30 < Text.byteLen line ∧ byteAt line 4 = some 45 ∧ byteAt line 10 = some 84 ∧
    ∃ stamp, line.toList = stamp ++ [' '] ∧ ' ' ∉ stamp

theorem takeWhile_blank {stamp : List Char} (rest : List Char) (h : ' ' ∉ stamp) :
    (stamp ++ ' ' :: rest).takeWhile (· ≠ ' ') = stamp := by
  have hall : ∀ c ∈ stamp, decide (c ≠ ' ') = true := by
    intro c hc
    exact decide_eq_true fun heq => h (heq ▸ hc)
  rw [List.takeWhile_append_of_pos hall]
  simp

theorem split_at_blank {cs : List Char} (h : cs.takeWhile (· ≠ ' ') ≠ cs) :
    ∃ rest, cs = cs.takeWhile (· ≠ ' ') ++ ' ' :: rest := by
  have hsplit := List.takeWhile_append_dropWhile (p := fun c : Char => decide (c ≠ ' ')) (l := cs)
  cases hrest : cs.dropWhile (fun c : Char => decide (c ≠ ' ')) with
  | nil =>
      rw [hrest, List.append_nil] at hsplit
      exact absurd hsplit h
  | cons c rest =>
      have hc : c = ' ' := by
        have hhead := List.head?_dropWhile_not (fun c : Char => decide (c ≠ ' ')) cs
        rw [hrest] at hhead
        simpa using hhead
      rw [hrest, hc] at hsplit
      exact ⟨rest, hsplit.symm⟩

theorem ofList_eq_empty {cs : List Char} : String.ofList cs = "" ↔ cs = [] := by
  rw [← String.toList_inj, String.toList_ofList, String.toList_empty]

theorem splitTimestamp_message_eq_empty (now : String) {line : String} (h : line ≠ "") :
    (splitTimestamp now line).2 = "" ↔ EndsAtStamp line := by
  rw [splitTimestamp, EndsAtStamp]
  split
  next hstamp =>
    obtain ⟨hlen, hdash, ht, hne, hwhole⟩ := hstamp
    obtain ⟨rest, hline⟩ := split_at_blank hwhole
    have hblank : ' ' ∉ line.toList.takeWhile (· ≠ ' ') := by
      intro hmem
      simpa using List.mem_takeWhile_imp hmem
    generalize line.toList.takeWhile (· ≠ ' ') = stamp at hline hblank
    have hdrop : (stamp ++ ' ' :: rest).drop (stamp.length + 1) = rest := by
      rw [← List.drop_drop, List.drop_left, List.drop_one, List.tail_cons]
    rw [ofList_eq_empty, hline, hdrop]
    constructor
    · rintro rfl
      exact ⟨hlen, hdash, ht, stamp, rfl, hblank⟩
    · rintro ⟨_, _, _, stamp', hsame, hblank'⟩
      have hstamp : stamp = stamp' := by
        rw [← takeWhile_blank rest hblank, hsame, takeWhile_blank [] hblank']
      rw [hstamp] at hsame
      exact (List.cons.inj (List.append_cancel_left hsame)).2
  next hplain =>
    refine iff_of_false h ?_
    rintro ⟨hlen, hdash, ht, stamp, hline, hblank⟩
    have hstamp : line.toList.takeWhile (· ≠ ' ') = stamp := by
      rw [hline, takeWhile_blank [] hblank]
    refine hplain ⟨hlen, hdash, ht, ?_, ?_⟩
    · rw [hstamp]
      rintro rfl
      have hone : line = " " := String.toList_inj.mp hline
      rw [hone] at hlen
      exact absurd hlen (by decide)
    · rw [hstamp, hline]
      exact fun hsame => absurd (congrArg List.length hsame) (by simp)

theorem splitTimestamp_stamp_ne_empty {now : String} (hnow : now ≠ "") (line : String) :
    (splitTimestamp now line).1 ≠ "" := by
  rw [splitTimestamp]
  split
  next hstamp => exact fun h => hstamp.2.2.2.1 (ofList_eq_empty.mp h)
  next => exact hnow

theorem streamType_of_mem_lines {o : Output} {line : LogLine} (h : line ∈ o.lines) :
    line.streamType ≠ "" := by
  cases o with
  | frame kind payload =>
      obtain ⟨cs, _, rfl⟩ := List.mem_map.mp h
      dsimp only
      split
      · decide
      · decide
  | tty text =>
      rw [List.mem_singleton.mp h]
      exact show "stdout" ≠ "" by decide

/-- A log message for a line conforms exactly if the line does not end at its timestamp. -/
theorem conforms_logMessage {now containerId : String} (hnow : now ≠ "") (hid : containerId ≠ "")
    (serviceName : String) {line : LogLine} (htype : line.streamType ≠ "")
    (htext : line.text ≠ "") :
    (∀ e ∈ entries (logMessage now containerId serviceName line), e.2.Conforms) ↔
      ¬ EndsAtStamp line.text := by
  rw [conforms_log rfl hid, ← splitTimestamp_message_eq_empty now htext]
  exact ⟨fun h => h.2.1, fun h => ⟨splitTimestamp_stamp_ne_empty hnow line.text, h, htype⟩⟩

/-- Whatever is published for a line of a container, to its own topic and to that of its service,
has all the fields the schema asks for, exactly if the line has a text behind its timestamp. -/
theorem line_conforms_iff {now : String} (hnow : now ≠ "") {stream : LogStreamer.Stream}
    (hid : stream.containerId ≠ "") {o : Output} {line : LogLine} (hline : line ∈ o.lines) :
    (∀ msg ∈ sendLine now stream line, ∀ e ∈ entries msg, e.2.Conforms) ↔
      ¬ EndsAtStamp line.text := by
  have htype := streamType_of_mem_lines hline
  rw [sendLine]
  split
  next hempty =>
    refine iff_of_true (fun msg hmsg => (List.not_mem_nil hmsg).elim) fun hends => ?_
    rw [hempty] at hends
    exact absurd hends.1 (by decide)
  next htext =>
    cases stream.serviceName with
    | none =>
        rw [List.forall_mem_singleton]
        exact conforms_logMessage hnow hid "" htype htext
    | some serviceName =>
        rw [List.forall_mem_singleton]
        exact conforms_logMessage hnow hid serviceName htype htext

def webStream : LogStreamer.Stream where
  containerId := "0123456789ab"
  serviceName := some "web"

/-- An empty line of a container, as Docker writes it. -/
def emptyLine : String := "2024-01-15T10:30:45.123456789Z "

theorem line_conforms_ready :
    (¬ EndsAtStamp (emptyLine ++ "ready")) ∧
      ((∀ msg ∈ sendLine "2024-01-15T10:30:46Z" webStream ⟨"stderr", emptyLine ++ "ready"⟩,
          ∀ e ∈ entries msg, e.2.Conforms) ↔ ¬ EndsAtStamp (emptyLine ++ "ready")) := by
  constructor
  · rintro ⟨_, _, _, stamp, hline, hblank⟩
    have hlast : (emptyLine ++ "ready").toList.getLast? = some ' ' := by
      rw [hline, List.getLast?_concat]
    exact absurd hlast (by decide)
  · exact line_conforms_iff (o := .frame 2 (emptyLine ++ "ready\n")) (by decide) (by decide)
      (by decide)

/-- The message of an empty line is left out of the JSON, and the entry has none. -/
theorem emptyLine_not_conforms :
    ¬ ∀ line ∈ (Output.frame 1 (emptyLine ++ "
")).lines,
      ∀ msg ∈ sendLine "2024-01-15T10:30:46Z" webStream line, ∀ e ∈ entries msg, e.2.Conforms := by
  intro h
  have hline : (⟨"stdout", emptyLine⟩ : LogLine) ∈ (Output.frame 1 (emptyLine ++ "
")).lines := by
    decide
  refine (line_conforms_iff (by decide) (by decide) hline).mp (h _ hline) ?_
  exact ⟨by decide, by decide, by decide, "2024-01-15T10:30:45.123456789Z".toList,
    by decide, by decide⟩

end NestGateway.LogProxy
