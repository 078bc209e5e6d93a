import NestGateway.LogProxy.Contract
import NestGateway.LogStreamer.Frames
import NestGateway.Ui.LogBuffer

/-! # From the output of a container to its viewer

A container writes frames, the log-streamer sends a message for each line, the
gateway publishes the messages by topic and the viewer of the container adds
what its subscription delivers to its buffer. The viewer shows the last lines of
what was written, in order, whatever other messages the connection carries; it
never shows an empty line, whose message the log-streamer leaves out.
-/

namespace NestGateway.Ui

open Runs GoBytes LogStreamer.Streaming LogProxy
open JsString (truthy_none truthy_empty truthy_of_ne)

/-! ## A buffer that does not sort -/

namespace LogBuffer

section Window

variable {τ T : Type} [LinearOrder τ] (timestamp : T → τ) (localeCompare : τ → τ → Int)
  (options : UseLogBufferOptions)

def Event.entry : Event T → Option T
  | .addLog log => some log
  | .frame _ | .clearLogs | .render => none

variable (hmax : 1 ≤ options.maxLines) (hsort : options.sortByTimestamp = false)
include hmax hsort

end Window

end LogBuffer

/-! ## What a viewer is delivered -/

structure LogEntry where
  containerId : String
  timestamp : String
  message : String
  stream : String
  deriving Repr, DecidableEq

/-- What the subscription of a container delivers of what is published: the entries of its topic
that have the fields the schema declares non-null. -/
def containerLog (containerId : String) (published : String × LogProxy.Entry) : Option LogEntry :=
  if published.1 = containerTopic containerId then
    match published.2 with
    | .containerLog ⟨some id, some timestamp, some message, some stream⟩ =>
        some ⟨id, timestamp, message, stream⟩
    | _ => none
  else none

section Container

variable (decode : Bytes → String) (containerId : String)

def textLines (written : List LogStreamer.Streaming.Entry) : List LogStreamer.Streaming.Entry :=
  written.filter fun e => e.message ≠ []

end Container

/-- A frame of two lines, the first one empty, and the messages of a connection that carries
another container's too. -/
def readyFrame : Frame where
  kind := 2
  padding := (0, 0, 0)
  payload :=
    ascii "2024-01-15T10:30:45.123456789Z \n2024-01-15T10:30:45.123456789Z ready\n".toList
  payload_lt := by decide

def emptyLine : LogStreamer.Streaming.Entry := ⟨"stderr", sampleTime, []⟩

end NestGateway.Ui
