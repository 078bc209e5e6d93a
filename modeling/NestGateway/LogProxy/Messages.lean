import Mathlib.Data.String.Basic
import NestGateway.LogStreamer.Subscription

/-! # Messages of the log-streamers

What the message handler of a socket publishes for a message.
-/

namespace NestGateway.LogProxy

open LogStreamer

inductive Payload where
  | containerLog (containerId timestamp message stream : String)
  | serviceLog (containerId serviceName timestamp message stream : String) (event : Option String)
  deriving Repr, DecidableEq

structure Publication where
  topic : String
  payload : Payload
  deriving Repr, DecidableEq

def containerTopic (containerId : String) : String := "CONTAINER_LOG." ++ containerId

def serviceTopic (serviceName : String) : String := "SERVICE_LOG." ++ serviceName

/-- The message handler. A field that the log-streamer omits is empty here. -/
def onMessage (msg : Message) : List Publication :=
  if msg.type = "log" ∧ msg.containerId ≠ "" then
    ⟨containerTopic msg.containerId,
      .containerLog msg.containerId msg.timestamp msg.message msg.stream⟩ ::
      if msg.serviceName ≠ "" then
        [⟨serviceTopic msg.serviceName, .serviceLog msg.containerId msg.serviceName msg.timestamp
          msg.message msg.stream none⟩]
      else []
  else if msg.type = "service_event" ∧ msg.serviceName ≠ "" then
    [⟨serviceTopic msg.serviceName, .serviceLog msg.containerId msg.serviceName msg.timestamp
      msg.message "event" (if msg.event = "" then none else some msg.event)⟩]
  else []

theorem containerTopic_inj {id id' : String} (h : containerTopic id = containerTopic id') :
    id = id' := by
  have hlist := congrArg String.toList h
  rw [containerTopic, containerTopic, String.toList_append, String.toList_append] at hlist
  exact String.toList_injective (List.append_cancel_left hlist)

theorem containerTopic_ne_serviceTopic (id name : String) :
    containerTopic id ≠ serviceTopic name := by
  intro h
  have hlist := congrArg String.toList h
  rw [containerTopic, serviceTopic, String.toList_append, String.toList_append] at hlist
  have hhead := congrArg List.head? hlist
  simp at hhead

end NestGateway.LogProxy
