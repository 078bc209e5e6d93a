import NestGateway.Core.Contexts
import NestGateway.LogStreamer.ServiceWatch

/-! # The goroutines of a connection

`Handle` is one goroutine. Every service subscription has another one for its
Docker events, and every stream has two: one that reads the log and one that
passes a cancellation on. They take turns after any statement. The containers of
a service subscription are shared and have a lock; the maps of the manager are
used by `Handle` alone, so their locks are always free. What is written on the
socket is left to `SubscriptionManager` and `Watch`.
-/

namespace NestGateway.LogStreamer.Goroutines

open Runs

/-! ## State -/

/-- Where a goroutine is in `startContainerStream` or `stopContainerStream`. -/
inductive Place where
  | locking
  | locked
  | unlocking
  deriving Repr, DecidableEq

inductive Watcher where
  | unstarted
  /-- In a `select`, for an event or to connect again. -/
  | waiting
  | handling (action : Action) (containerId : String) (place : Place)
  | returned
  deriving Repr, DecidableEq

structure ServiceSubscription where
  serviceName : String
  mu : Bool
  containers : JsMap String Nat
  ctx : Context
  cancel : Nat
  watcher : Watcher

def newServiceSubscription (ctx : Context) (cancel : Nat) (serviceName : String) :
    ServiceSubscription :=
  ⟨serviceName, false, JsMap.empty, ctx, cancel, .unstarted⟩

inductive Task where
  /-- `streamLogs` is given its channel, and makes a context. -/
  | streamLogs (cancel : Nat) (ctxCancel : Option Nat)
  /-- `streamServiceLogs` is given its context, and makes a channel once the log is open. -/
  | streamServiceLogs (subscription : Nat) (ctx : Context) (cancel : Option Nat)
  deriving Repr, DecidableEq

structure Stream where
  containerId : String
  task : Task
  /-- The cancellation was passed on to what the task has made. -/
  relayed : Bool := false
  deriving Repr, DecidableEq

/-- Where `Stop` of a service subscription is. -/
inductive Stopping where
  | cancelling
  | locking
  | draining
  /-- It has returned, and the subscription is about to be deleted from its map. -/
  | deleting
  deriving Repr, DecidableEq

inductive Handler where
  | reading
  /-- `Subscribe` has asked Docker for the container. -/
  | subscribing (containerId : String)
  /-- `Start` has asked Docker for the containers of the service. -/
  | listing (subscription : Nat)
  /-- `Start` is starting the streams of the containers. -/
  | starting (subscription : Nat) (place : Place) (containers : List String)
  /-- `Stop`, called by `UnsubscribeService` or by `CloseAll`. -/
  | stopping (serviceName : String) (subscription : Nat) (stage : Stopping) (closeAll : Bool)
  /-- The first loop of `CloseAll`. -/
  | closingSubs
  | closingServices
  | closed
  deriving Repr, DecidableEq

structure Conn where
  contexts : Contexts
  /-- How often each channel was closed. -/
  channels : Heap Nat
  request : Context
  requestCancel : Nat
  subs : JsMap String Nat
  serviceSubs : JsMap String Nat
  subscriptions : Heap ServiceSubscription
  streams : Heap Stream
  handler : Handler

def newConn : Conn :=
  let (request, requestCancel, contexts) := Contexts.empty.withCancel .background
  ⟨contexts, Heap.empty, request, requestCancel, JsMap.empty, JsMap.empty, Heap.empty, Heap.empty,
    .reading⟩

namespace Conn

def close (c : Conn) (channel : Nat) : Conn :=
  { c with channels := c.channels.modify channel (· + 1) }

def cancel (c : Conn) (n : Nat) : Conn := { c with contexts := c.contexts.cancel n }

def modifySubscription (c : Conn) (k : Nat) (f : ServiceSubscription → ServiceSubscription) :
    Conn :=
  { c with subscriptions := c.subscriptions.modify k f }

def setMu (c : Conn) (k : Nat) (mu : Bool) : Conn :=
  c.modifySubscription k fun s => { s with mu }

def setWatcher (c : Conn) (k : Nat) (watcher : Watcher) : Conn :=
  c.modifySubscription k fun s => { s with watcher }

def setHandler (c : Conn) (handler : Handler) : Conn := { c with handler }

def subscribe (c : Conn) (containerId : String) : Conn :=
  if c.subs.has containerId then c else c.setHandler (.subscribing containerId)

/-- `Subscribe`, once Docker has answered. -/
def subscribed (c : Conn) (containerId : String) (found : Bool) : Conn :=
  if !found then c.setHandler .reading
  else
    { c with
      channels := c.channels.alloc 0
      subs := c.subs.set containerId c.channels.size
      streams := c.streams.alloc { containerId, task := .streamLogs c.channels.size none }
      handler := .reading }

def unsubscribe (c : Conn) (containerId : String) : Conn :=
  match c.subs.get containerId with
  | none => c
  | some cancel => { c.close cancel with subs := c.subs.delete containerId }

/-- Up to the first statement of `Start`. -/
def subscribeService (c : Conn) (serviceName : String) : Conn :=
  if c.serviceSubs.has serviceName then c
  else
    let (ctx, cancel, contexts) := c.contexts.withCancel c.request
    { c with
      contexts := contexts
      serviceSubs := c.serviceSubs.set serviceName c.subscriptions.size
      subscriptions := c.subscriptions.alloc (newServiceSubscription ctx cancel serviceName)
      handler := .listing c.subscriptions.size }

/-- Up to the first statement of `Stop`. -/
def unsubscribeService (c : Conn) (serviceName : String) : Conn :=
  match c.serviceSubs.get serviceName with
  | none => c
  | some k => c.setHandler (.stopping serviceName k .cancelling false)

/-- A message, up to the first statement that can wait. -/
def handle (c : Conn) (msg : Message) : Conn :=
  if msg.type = "subscribe" then
    if msg.containerId = "" then c else c.subscribe msg.containerId
  else if msg.type = "unsubscribe" then
    if msg.containerId ≠ "" then c.unsubscribe msg.containerId else c
  else if msg.type = "subscribe_service" then
    if msg.serviceName = "" then c else c.subscribeService msg.serviceName
  else if msg.type = "unsubscribe_service" then
    if msg.serviceName ≠ "" then c.unsubscribeService msg.serviceName else c
  else c

def startContainerStream (k : Nat) (containerId : String) (c : Conn) : Conn :=
  match c.subscriptions.get k with
  | none => c
  | some s =>
      if s.containers.has containerId then c
      else
        let (streamCtx, streamCancel, contexts) := c.contexts.withCancel s.ctx
        { c with
          contexts := contexts
          subscriptions := c.subscriptions.modify k fun s =>
            { s with containers := s.containers.set containerId streamCancel }
          streams := c.streams.alloc
            { containerId, task := .streamServiceLogs k streamCtx none } }

def stopContainerStream (k : Nat) (containerId : String) (c : Conn) : Conn :=
  match c.subscriptions.get k with
  | none => c
  | some s =>
      match s.containers.get containerId with
      | none => c
      | some cancelFn =>
          (c.cancel cancelFn).modifySubscription k fun s =>
            { s with containers := s.containers.delete containerId }

def lock (c : Conn) (k : Nat) : Option Conn :=
  match c.subscriptions.get k with
  | none => none
  | some s => if s.mu then none else some (c.setMu k true)

theorem eq_of_lock {c c' : Conn} {k : Nat} (h : c.lock k = some c') : c' = c.setMu k true := by
  rw [Conn.lock] at h
  split at h
  · cases h
  · split at h
    · cases h
    · exact (Option.some.inj h).symm

/-- The next statement of a function that does `body` under the lock, and where it is then. -/
def underLock (c : Conn) (k : Nat) (body : Conn → Conn) : Place → Option (Conn × Option Place)
  | .locking => (c.lock k).map (·, some .locked)
  | .locked => some (body c, some .unlocking)
  | .unlocking => some (c.setMu k false, none)

/-- The next statement of `Handle`, when nothing is to be waited for or chosen. -/
def proceed (c : Conn) : Option Conn :=
  match c.handler with
  | .starting k place (containerId :: rest) =>
      (c.underLock k (startContainerStream k containerId) place).map fun (c', place') =>
        match place' with
        | some place' => c'.setHandler (.starting k place' (containerId :: rest))
        | none => c'.setHandler (.starting k .locking rest)
  | .starting k _ [] => some ((c.setWatcher k .waiting).setHandler .reading)
  | .stopping serviceName k .cancelling closeAll =>
      (c.subscriptions.get k).map fun s =>
        (c.cancel s.cancel).setHandler (.stopping serviceName k .locking closeAll)
  | .stopping serviceName k .locking closeAll =>
      (c.lock k).map (·.setHandler (.stopping serviceName k .draining closeAll))
  | .stopping serviceName k .draining closeAll =>
      match c.subscriptions.get k with
      | none => none
      | some s =>
          if s.containers.keys = [] then
            some ((c.setMu k false).setHandler (.stopping serviceName k .deleting closeAll))
          else none
  | .stopping serviceName _ .deleting closeAll =>
      some
        { c with
          serviceSubs := c.serviceSubs.delete serviceName
          handler := if closeAll then .closingServices else .reading }
  | .closingSubs => if c.subs.keys = [] then some (c.setHandler .closingServices) else none
  | .closingServices => if c.serviceSubs.keys = [] then some (c.setHandler .closed) else none
  | _ => none

/-- The next turn of a loop over a map, which may come to any of its keys. -/
def visit (c : Conn) (key : String) : Option Conn :=
  match c.handler with
  | .stopping _ k .draining _ =>
      match c.subscriptions.get k with
      | none => none
      | some s => if s.containers.has key then some (c.stopContainerStream k key) else none
  | .closingSubs => if c.subs.has key then some (c.unsubscribe key) else none
  | .closingServices =>
      (c.serviceSubs.get key).map fun k => c.setHandler (.stopping key k .cancelling true)
  | _ => none

/-! ## The other goroutines -/

/-- `watchEvents` takes an event of Docker. The `select` may do so although the context is done. -/
def take (c : Conn) (k : Nat) (evt : ServiceEvent) : Option Conn :=
  match c.subscriptions.get k with
  | none => none
  | some s =>
      if s.watcher = .waiting then
        if evt.serviceName ≠ s.serviceName then some c
        else some (c.setWatcher k (.handling evt.action evt.containerId .locking))
      else none

/-- The next statement of the handling of an event. -/
def watch (c : Conn) (k : Nat) : Option Conn :=
  match c.subscriptions.get k with
  | none => none
  | some s =>
      match s.watcher with
      | .handling action containerId place =>
          let body :=
            match action with
            | .start => startContainerStream k containerId
            | .die => stopContainerStream k containerId
          (c.underLock k body place).map fun (c', place') =>
            match place' with
            | some place' => c'.setWatcher k (.handling action containerId place')
            | none => c'.setWatcher k .waiting
      | _ => none

def returned (c : Conn) (k : Nat) : Option Conn :=
  match c.subscriptions.get k with
  | none => none
  | some s =>
      if s.watcher = .waiting ∧ c.contexts.Done s.ctx then some (c.setWatcher k .returned) else none

def Closed (c : Conn) (channel : Nat) : Prop := ∃ n, c.channels.get channel = some n ∧ 0 < n

instance (c : Conn) (channel : Nat) : Decidable (c.Closed channel) :=
  decidable_of_iff (0 < (c.channels.get channel).getD 0) <| by
    rw [Closed]
    cases c.channels.get channel with
    | none => simp
    | some n => simp

/-- A stream makes the context or the channel that it is not given. -/
def prepare (c : Conn) (i : Nat) : Option Conn :=
  match c.streams.get i with
  | none => none
  | some s =>
      match s.task with
      | .streamLogs cancel none =>
          let (_, ctxCancel, contexts) := c.contexts.withCancel .background
          some
            { c with
              contexts := contexts
              streams := c.streams.modify i fun s =>
                { s with task := .streamLogs cancel (some ctxCancel) } }
      | .streamServiceLogs k ctx none =>
          some
            { c with
              channels := c.channels.alloc 0
              streams := c.streams.modify i fun s =>
                { s with task := .streamServiceLogs k ctx (some c.channels.size) } }
      | _ => none

/-- What a stream has made is cancelled after what it was given. -/
def relay (c : Conn) (i : Nat) : Option Conn :=
  match c.streams.get i with
  | none => none
  | some s =>
      let c' := { c with streams := c.streams.modify i fun s => { s with relayed := true } }
      if s.relayed then none
      else
        match s.task with
        | .streamLogs cancel (some ctxCancel) =>
            if c.Closed cancel then some (c'.cancel ctxCancel) else none
        | .streamServiceLogs _ ctx (some cancel) =>
            if c.contexts.Done ctx then some (c'.close cancel) else none
        | _ => none

end Conn

inductive Event where
  | message (msg : Message)
  /-- The connection is lost, and the deferred `CloseAll` starts. -/
  | disconnected
  /-- Docker's answer to `Subscribe`. -/
  | answered (found : Bool)
  | listed (containers : List String)
  | proceeded
  | visited (key : String)
  | taken (subscription : Nat) (evt : ServiceEvent)
  | watched (subscription : Nat)
  | returned (subscription : Nat)
  | prepared (stream : Nat)
  | relayed (stream : Nat)
  | requestDone
  deriving Repr, DecidableEq

def step (c : Conn) : Event → Option Conn
  | .message msg =>
      match c.handler with
      | .reading => some (c.handle msg)
      | _ => none
  | .disconnected =>
      match c.handler with
      | .reading => some (c.setHandler .closingSubs)
      | _ => none
  | .answered found =>
      match c.handler with
      | .subscribing containerId => some (c.subscribed containerId found)
      | _ => none
  | .listed containers =>
      match c.handler with
      | .listing k => some (c.setHandler (.starting k .locking containers))
      | _ => none
  | .proceeded => c.proceed
  | .visited key => c.visit key
  | .taken k evt => c.take k evt
  | .watched k => c.watch k
  | .returned k => c.returned k
  | .prepared i => c.prepare i
  | .relayed i => c.relay i
  | .requestDone => some (c.cancel c.requestCancel)

/-- A stream was told to end: by its channel, or by the context it was given. -/
def Conn.Cancelled (c : Conn) (s : Stream) : Prop :=
  match s.task with
  | .streamLogs cancel _ => c.Closed cancel
  | .streamServiceLogs _ ctx _ => c.contexts.Done ctx

instance (c : Conn) (s : Stream) : Decidable (c.Cancelled s) :=
  match h : s.task with
  | .streamLogs cancel _ => decidable_of_iff (c.Closed cancel) (by simp only [Conn.Cancelled, h])
  | .streamServiceLogs _ ctx _ =>
      decidable_of_iff (c.contexts.Done ctx) (by simp only [Conn.Cancelled, h])

def Stream.Direct (s : Stream) : Prop := ∃ cancel ctxCancel, s.task = .streamLogs cancel ctxCancel

/-- A stream of a subscription to this service. -/
def Conn.IsOf (c : Conn) (s : Stream) (serviceName : String) : Prop :=
  ∃ k ctx cancel sub, s.task = .streamServiceLogs k ctx cancel ∧
    c.subscriptions.get k = some sub ∧ sub.serviceName = serviceName

structure Conn.Sound (c : Conn) : Prop where
  closedOnce : ∀ channel n, c.channels.get channel = some n → n ≤ 1
  onePerContainer : ∀ i j s t, c.streams.get i = some s → c.streams.get j = some t →
    s.Direct → t.Direct → s.containerId = t.containerId →
    ¬ c.Cancelled s → ¬ c.Cancelled t → i = j
  onePerService : ∀ i j s t serviceName, c.streams.get i = some s → c.streams.get j = some t →
    c.IsOf s serviceName → c.IsOf t serviceName → s.containerId = t.containerId →
    ¬ c.Cancelled s → ¬ c.Cancelled t → i = j
  allCancelled : c.handler = .closed → ∀ i s, c.streams.get i = some s → c.Cancelled s

end NestGateway.LogStreamer.Goroutines
