import NestGateway.Core.Runs
import NestGateway.LogProxy.Contract

/-! # Failures of a publish

The message handler starts its publishes and does not wait for them. What one
throws at once is caught and logged. A promise that is rejected later has no
handler, nor has the process one for such rejections, and ends with it.
-/

namespace NestGateway.LogProxy.Publishing

open Runs
open JsString (truthy)

/-- A publication that the handler asks for. -/
abbrev Publish := String × Entry

inductive Log where
  | warn (text : String)
  | error (text : String)
  deriving Repr, DecidableEq

/-- The gateway, as far as the messages of one log-streamer concern it. -/
structure Gateway where
  /-- The calls of `publish` so far. -/
  calls : List Publish
  /-- The calls whose promise has not settled, by their position. -/
  pending : List Nat
  logged : List Log
  /-- An unhandled rejection has ended the process. -/
  terminated : Bool
  deriving Repr, DecidableEq

def Gateway.start : Gateway := ⟨[], [], [], false⟩

/-- A message as it is parsed; none is a text that is not JSON, or `null`. -/
inductive Event where
  /-- `throws` tells which calls of `publish` throw at once, the first call of the handler being
  the call 0. -/
  | message (message : Option WSLogMessage) (throws : Nat → Bool)
  | resolved (call : Nat)
  | rejected (call : Nat)

section Handler

variable (host : String)

/-- `${value}` of a text that may be undefined. -/
def interpolated (value : Option String) : String := value.getD "undefined"

def warning (message : WSLogMessage) : String :=
  "Log-streamer error [" ++ host ++ "]" ++
    (match truthy message.containerId with
      | none => ""
      | some containerId => " [container=" ++ containerId ++ "]") ++
    (match truthy message.serviceName with
      | none => ""
      | some serviceName => " [service=" ++ serviceName ++ "]") ++
    ": " ++ interpolated message.message

def failure : Log := .error ("Failed to parse WebSocket message [" ++ host ++ "]")

/-- The calls of `publish` one after the other, up to the first that throws: those that return a
promise, and whether one has thrown. -/
def startPublishes (throws : Nat → Bool) : Nat → List Publish → List Publish × Bool
  | _, [] => ([], false)
  | i, p :: later =>
      if throws i then ([], true)
      else
        let (started, threw) := startPublishes throws (i + 1) later
        (p :: started, threw)

/-- What the handler does with a message: the calls that return a promise, and what it logs. -/
def handleMessage (message : Option WSLogMessage) (throws : Nat → Bool) : List Publish × List Log :=
  match message with
  | none => ([], [failure host])
  | some message =>
      let (started, threw) := startPublishes throws 0 (messageHandler message)
      let warned := if message.type = some "error" then [Log.warn (warning host message)] else []
      (started, if threw then [failure host] else warned)

/-- One event. A process that has ended handles no message any more. -/
def Gateway.step (g : Gateway) : Event → Option Gateway
  | .message message throws =>
      if g.terminated then some g
      else
        let (started, logged) := handleMessage host message throws
        some
          { g with
            calls := g.calls ++ started
            pending := g.pending ++ List.range' g.calls.length started.length
            logged := g.logged ++ logged }
  | .resolved call =>
      if call ∈ g.pending then some { g with pending := g.pending.erase call } else none
  | .rejected call =>
      if call ∈ g.pending then
        some { g with pending := g.pending.erase call, terminated := true }
      else none

def Event.calls : Event → List Publish
  | .message msg throws => (handleMessage host msg throws).1
  | _ => []

def Event.logs : Event → List Log
  | .message msg throws => (handleMessage host msg throws).2
  | _ => []

/-- No rejection is unhandled, and the event has the effects it has on its own. -/
structure Confined (g : Gateway) (e : Event) (g' : Gateway) : Prop where
  running : g'.terminated = false
  calls : g'.calls = g.calls ++ e.calls host
  logged : g'.logged = g.logged ++ e.logs host

def Event.isRejection : Event → Prop
  | .rejected _ => True
  | _ => False

theorem confined_of_not_rejection {g g' : Gateway} {e : Event} (hrunning : g.terminated = false)
    (he : ¬ e.isRejection) (h : g.step host e = some g') : Confined host g e g' := by
  cases e with
  | message message throws =>
      rw [Gateway.step, hrunning, if_neg Bool.false_ne_true] at h
      obtain rfl := Option.some.inj h
      exact ⟨rfl, rfl, rfl⟩
  | resolved call =>
      rw [Gateway.step] at h
      split at h
      next =>
        obtain rfl := Option.some.inj h
        exact ⟨hrunning, (List.append_nil _).symm, (List.append_nil _).symm⟩
      next => cases h
  | rejected call => exact absurd trivial he

theorem not_rejection_of_confined {g g' : Gateway} {e : Event} (hconfined : Confined host g e g')
    (h : g.step host e = some g') : ¬ e.isRejection := by
  intro he
  cases e with
  | message message throws => exact he
  | resolved call => exact he
  | rejected call =>
      rw [Gateway.step] at h
      split at h
      next =>
        obtain rfl := Option.some.inj h
        exact Bool.false_ne_true hconfined.running.symm
      next => cases h

/-- What a run calls and logs is what each of its messages does, one after the other. -/
theorem effects_of_confined {g g' : Gateway} {es : List Event}
    (hconfined : EachStep (Gateway.step host) (Confined host) g es)
    (hrun : run (Gateway.step host) g es = some g') :
    g'.calls = g.calls ++ es.flatMap (Event.calls host) ∧
      g'.logged = g.logged ++ es.flatMap (Event.logs host) := by
  induction es generalizing g with
  | nil =>
      obtain rfl := Option.some.inj hrun
      exact ⟨(List.append_nil _).symm, (List.append_nil _).symm⟩
  | cons e es ih =>
      obtain ⟨next, hstep, hrun⟩ := exists_of_run_cons hrun
      obtain ⟨hone, hrest⟩ := (eachStep_cons hstep).mp hconfined
      obtain ⟨hcalls, hlogged⟩ := ih hrest hrun
      rw [hcalls, hlogged, hone.calls, hone.logged, List.flatMap_cons, List.flatMap_cons,
        List.append_assoc, List.append_assoc]
      exact ⟨rfl, rfl⟩

/-- Every failure of a run is confined to its message exactly if no publish is rejected. -/
theorem publish_failures_confined_iff (es : List Event) :
    EachStep (Gateway.step host) (Confined host) .start es ↔
      EachStep (Gateway.step host) (fun _ e _ => ¬ e.isRejection) .start es := by
  refine eachStep_iff (I := fun g => g.terminated = false) ?_ ?_ rfl
  · intro g e g' hrunning he h
    have hconfined := confined_of_not_rejection host hrunning he h
    exact ⟨hconfined.running, hconfined⟩
  · intro g e g' _ hconfined h
    exact not_rejection_of_confined host hconfined h

end Handler

def readyMessage : WSLogMessage :=
  ⟨some "log", some "0123456789ab", none, some "2024-01-15T10:30:45.123456789Z", some "ready",
    some "stdout", none⟩

/-- The publish of the first line is rejected, and the second line is not published. -/
theorem publish_rejected :
    ¬ EachStep (Gateway.step "localhost") (Confined "localhost") .start
      [.message (some readyMessage) fun _ => false, .rejected 0,
        .message (some readyMessage) fun _ => false] := by
  intro h
  have hrejected := (eachStep_cons rfl).mp ((eachStep_cons rfl).mp h).2
  exact Bool.false_ne_true hrejected.1.running.symm

end NestGateway.LogProxy.Publishing
