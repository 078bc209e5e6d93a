import NestGateway.Core.GoBytes

/-! # Streaming the log of a container

A container without a terminal has its output in frames, each a header and a
payload; one with a terminal has it as it is. Both are read by a stream of the
container itself and by a stream of a service, which sends the same lines under
the name of the service. What is sent is what `writeJSON` is given, in order.
-/

namespace NestGateway.LogStreamer.Streaming

open GoBytes

structure LogMessage where
  type : String := "log"
  containerId : String
  serviceName : String := ""
  timestamp : Bytes
  message : Bytes
  stream : String
  deriving Repr, DecidableEq

/-- A hyphen after the year and a `T` after the date. -/
def hasTimestamp (line : Bytes) : Bool :=
  30 < line.length && (line)[4]? == some 45 && (line)[10]? == some 84

/-- `subscriptionManager.sendLogLine`; `now` is the clock as it is read for the line. -/
def sendLogLine (now : Bytes) (containerId streamType : String) (line : Bytes) : LogMessage :=
  let (timestamp, message) :=
    if hasTimestamp line then
      let spaceIdx := indexByte line blank
      if 0 < spaceIdx then (line.take spaceIdx.toNat, line.drop (spaceIdx.toNat + 1))
      else (now, line)
    else (now, line)
  { containerId, timestamp, message, stream := streamType }

def indexOfFrom (c : UInt8) : Int → Bytes → Int
  | _, [] => -1
  | i, b :: rest => if b == c then i else indexOfFrom c (i + 1) rest

def indexOf (s : Bytes) (c : UInt8) : Int := indexOfFrom c 0 s

def sendServiceLogLine (now : Bytes) (serviceName containerId streamType : String) (line : Bytes) :
    LogMessage :=
  let (timestamp, message) :=
    if hasTimestamp line then
      let spaceIdx := indexOf line blank
      if 0 < spaceIdx then (line.take spaceIdx.toNat, line.drop (spaceIdx.toNat + 1))
      else (now, line)
    else (now, line)
  { containerId, serviceName, timestamp, message, stream := streamType }

/-- What a stream sends for the type and the bytes of a line when the clock shows a time. -/
abbrev Send := Bytes → String → Bytes → LogMessage

section Loops

variable (send : Send) (clock : Nat → Bytes)

/-- The loop over the lines of a payload; the clock is read once for each message. -/
def sendLines (streamType : String) (lines : List Bytes) (sent : List LogMessage) :
    List LogMessage :=
  lines.foldl (fun sent line =>
    if line = [] then sent else sent ++ [send (clock sent.length) streamType line]) sent

/-- One turn reads a frame. `cancelledAt` is the turn that finds `cancel` closed, if any does. -/
def muxLoop : Nat → Option Nat → Bytes → List LogMessage → List LogMessage
  | 0, _, _, sent => sent
  | fuel + 1, cancelledAt, reader, sent =>
      if cancelledAt = some 0 then sent
      else
        match readFull 8 reader with
        | none => sent
        | some (header, reader) =>
            let streamType := if header[0]? = some 2 then "stderr" else "stdout"
            let payloadSize := uint32 (header.drop 4)
            if payloadSize = 0 then muxLoop fuel (cancelledAt.map (· - 1)) reader sent
            else
              match readFull payloadSize reader with
              | none => sent
              | some (payload, reader) =>
                  let content := trimRight newline payload
                  muxLoop fuel (cancelledAt.map (· - 1)) reader
                    (sendLines send clock streamType (content.splitOn newline) sent)

/-- One turn reads a line. -/
def ttyLoop : Nat → Option Nat → Bytes → List LogMessage → List LogMessage
  | 0, _, _, sent => sent
  | fuel + 1, cancelledAt, reader, sent =>
      match scan reader with
      | none => sent
      | some (line, reader) =>
          if cancelledAt = some 0 then sent
          else
            ttyLoop fuel (cancelledAt.map (· - 1)) reader
              (if line = [] then sent else sent ++ [send (clock sent.length) "stdout" line])

end Loops

section Streams

-- every turn but the last takes a byte at least, so the turns are no more than the bytes
variable (clock : Nat → Bytes) (cancelledAt : Option Nat) (reader : Bytes)

/-- `subscriptionManager.streamMuxLogs` -/
def streamMuxLogs (containerId : String) : List LogMessage :=
  muxLoop (fun now => sendLogLine now containerId) clock (reader.length + 1) cancelledAt reader []

def serviceStreamMuxLogs (serviceName containerId : String) : List LogMessage :=
  muxLoop (fun now => sendServiceLogLine now serviceName containerId) clock (reader.length + 1)
    cancelledAt reader []

/-- `subscriptionManager.streamTTYLogs` -/
def streamTTYLogs (containerId : String) : List LogMessage :=
  ttyLoop (fun now => sendLogLine now containerId) clock (reader.length + 1) cancelledAt reader []

def serviceStreamTTYLogs (serviceName containerId : String) : List LogMessage :=
  ttyLoop (fun now => sendServiceLogLine now serviceName containerId) clock (reader.length + 1)
    cancelledAt reader []

end Streams

theorem indexOfFrom_eq (c : UInt8) (i : Int) (s : Bytes) :
    indexOfFrom c i s =
      match s.findIdx? (· == c) with
      | none => -1
      | some j => i + j := by
  induction s generalizing i with
  | nil => rfl
  | cons b s ih =>
      rw [indexOfFrom, List.findIdx?_cons]
      by_cases hb : (b == c) = true
      · rw [if_pos hb, if_pos hb]
        exact (Int.add_zero i).symm
      · rw [if_neg hb, if_neg hb, ih]
        cases s.findIdx? (· == c) with
        | none => rfl
        | some j =>
            change i + 1 + (j : Int) = i + ((j + 1 : Nat) : Int)
            omega

theorem indexOf_eq_indexByte (s : Bytes) (c : UInt8) : indexOf s c = indexByte s c := by
  rw [indexOf, indexOfFrom_eq, indexByte]
  cases s.findIdx? (· == c) with
  | none => rfl
  | some j => exact Int.zero_add _

/-- The message of a service stream carries the name of the service besides. -/
def LogMessage.ofService (serviceName : String) (msg : LogMessage) : LogMessage :=
  { msg with serviceName }

theorem sendServiceLogLine_eq (now : Bytes) (serviceName containerId streamType : String)
    (line : Bytes) :
    sendServiceLogLine now serviceName containerId streamType line =
      (sendLogLine now containerId streamType line).ofService serviceName := by
  rw [sendServiceLogLine, indexOf_eq_indexByte]
  rfl

theorem serviceSend_eq (serviceName containerId : String) :
    (fun now => sendServiceLogLine now serviceName containerId) = fun now streamType line =>
      (sendLogLine now containerId streamType line).ofService serviceName := by
  funext now streamType line
  exact sendServiceLogLine_eq now serviceName containerId streamType line

section Loops

variable (send : Send) (clock : Nat → Bytes) (f : LogMessage → LogMessage)

theorem sendLines_map (streamType : String) (lines : List Bytes) (sent : List LogMessage) :
    sendLines (fun now streamType line => f (send now streamType line)) clock streamType lines
        (sent.map f) = (sendLines send clock streamType lines sent).map f := by
  induction lines generalizing sent with
  | nil => rfl
  | cons line lines ih =>
      simp only [sendLines, List.foldl_cons, List.length_map] at ih ⊢
      rw [← ih]
      congr 1
      split
      · rfl
      · simp

theorem muxLoop_map (fuel : Nat) (cancelledAt : Option Nat) (reader : Bytes)
    (sent : List LogMessage) :
    muxLoop (fun now streamType line => f (send now streamType line)) clock fuel cancelledAt reader
        (sent.map f) = (muxLoop send clock fuel cancelledAt reader sent).map f := by
  induction fuel generalizing cancelledAt reader sent with
  | zero => rfl
  | succ fuel ih =>
      rw [muxLoop, muxLoop]
      split
      · rfl
      · cases readFull 8 reader with
        | none => rfl
        | some header =>
            dsimp only
            split
            · exact ih _ _ _
            · cases readFull (uint32 (header.1.drop 4)) header.2 with
              | none => rfl
              | some payload =>
                  dsimp only
                  rw [sendLines_map]
                  exact ih _ _ _

theorem ttyLoop_map (fuel : Nat) (cancelledAt : Option Nat) (reader : Bytes)
    (sent : List LogMessage) :
    ttyLoop (fun now streamType line => f (send now streamType line)) clock fuel cancelledAt reader
        (sent.map f) = (ttyLoop send clock fuel cancelledAt reader sent).map f := by
  induction fuel generalizing cancelledAt reader sent with
  | zero => rfl
  | succ fuel ih =>
      rw [ttyLoop, ttyLoop]
      cases scan reader with
      | none => rfl
      | some line =>
          dsimp only
          split
          · rfl
          · rw [← ih]
            congr 1
            split
            · rfl
            · simp

end Loops

section Streams

variable (clock : Nat → Bytes) (cancelledAt : Option Nat) (reader : Bytes)

/-- A stream of a service sends what a stream of the container sends. -/
theorem serviceStreamMuxLogs_eq (serviceName containerId : String) :
    serviceStreamMuxLogs clock cancelledAt reader serviceName containerId =
      (streamMuxLogs clock cancelledAt reader containerId).map (·.ofService serviceName) := by
  rw [serviceStreamMuxLogs, serviceSend_eq, streamMuxLogs, ← muxLoop_map]
  rfl

theorem serviceStreamTTYLogs_eq (serviceName containerId : String) :
    serviceStreamTTYLogs clock cancelledAt reader serviceName containerId =
      (streamTTYLogs clock cancelledAt reader containerId).map (·.ofService serviceName) := by
  rw [serviceStreamTTYLogs, serviceSend_eq, streamTTYLogs, ← ttyLoop_map]
  rfl

end Streams

/-- The messages for lines of given types, when so many were sent before. -/
def messages (send : Send) (clock : Nat → Bytes) (sent : Nat) (lines : List (String × Bytes)) :
    List LogMessage :=
  lines.mapIdx fun i line => send (clock (sent + i)) line.1 line.2

theorem messages_cons (send : Send) (clock : Nat → Bytes) (sent : Nat) (line : String × Bytes)
    (lines : List (String × Bytes)) :
    messages send clock sent (line :: lines) =
      send (clock sent) line.1 line.2 :: messages send clock (sent + 1) lines := by
  simp [messages, List.mapIdx_cons, Nat.add_assoc, Nat.add_comm 1]

theorem messages_append (send : Send) (clock : Nat → Bytes) (sent : Nat)
    (lines later : List (String × Bytes)) :
    messages send clock sent (lines ++ later) =
      messages send clock sent lines ++ messages send clock (sent + lines.length) later := by
  simp [messages, List.mapIdx_append, Nat.add_assoc, Nat.add_comm lines.length]

@[simp] theorem length_messages (send : Send) (clock : Nat → Bytes) (sent : Nat)
    (lines : List (String × Bytes)) : (messages send clock sent lines).length = lines.length :=
  List.length_mapIdx

theorem sendLines_eq (send : Send) (clock : Nat → Bytes) (streamType : String)
    (lines : List Bytes) (sent : List LogMessage) :
    sendLines send clock streamType lines sent =
      sent ++ messages send clock sent.length ((lines.filter (· ≠ [])).map (streamType, ·)) := by
  induction lines generalizing sent with
  | nil => simp [sendLines, messages]
  | cons line lines ih =>
      simp only [sendLines, List.foldl_cons] at ih ⊢
      rw [ih]
      by_cases hempty : line = []
      · simp [hempty]
      · simp [hempty, messages_cons]

end NestGateway.LogStreamer.Streaming
