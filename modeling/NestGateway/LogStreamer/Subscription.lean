import NestGateway.Core.Heap
import NestGateway.Core.JsMap

/-! # Subscriptions of one connection

The log-streamer keeps a `subscriptionManager` for each connection: the
containers and the services whose logs it streams. `Handle` reads one message
after the other and changes the manager. Every stream is a goroutine of its own;
cancelling it takes it out of its map, and it ends some time later.
-/

namespace NestGateway.LogStreamer

structure Message where
  type : String
  containerId : String := ""
  serviceName : String := ""
  timestamp : String := ""
  message : String := ""
  stream : String := ""
  event : String := ""
  deriving Repr, DecidableEq

/-- A goroutine that sends the log of a container under an id, for a service or directly. -/
structure Stream where
  containerId : String
  serviceName : Option String
  /-- The container whose log is open, and the next line of it. -/
  log : Option (String × Nat) := none
  ended : Bool := false
  deriving Repr, DecidableEq

structure ServiceSubscription where
  serviceName : String
  containers : JsMap String Nat

def newServiceSubscription (serviceName : String) : ServiceSubscription :=
  ⟨serviceName, JsMap.empty⟩

namespace ServiceSubscription

def startContainerStream (s : ServiceSubscription) (streams : Heap Stream) (containerId : String) :
    ServiceSubscription × Heap Stream :=
  if s.containers.has containerId then (s, streams)
  else
    ({ s with containers := s.containers.set containerId streams.size },
      streams.alloc { containerId, serviceName := some s.serviceName })

def stopContainerStream (s : ServiceSubscription) (containerId : String) : ServiceSubscription :=
  if s.containers.has containerId then { s with containers := s.containers.delete containerId }
  else s

def stop (s : ServiceSubscription) : ServiceSubscription := { s with containers := JsMap.empty }

theorem mem_startContainerStream {s : ServiceSubscription} {streams : Heap Stream}
    {containerId id : String} :
    id ∈ (s.startContainerStream streams containerId).1.containers.keys ↔
      id = containerId ∨ id ∈ s.containers.keys := by
  rw [startContainerStream]
  split
  next hmem => exact JsMap.mem_keys_of_has hmem
  next => exact JsMap.mem_keys_set

theorem mem_stopContainerStream {s : ServiceSubscription} {containerId id : String} :
    id ∈ (s.stopContainerStream containerId).containers.keys ↔
      id ≠ containerId ∧ id ∈ s.containers.keys := by
  rw [stopContainerStream]
  split
  next => exact JsMap.mem_keys_delete
  next habsent => exact JsMap.mem_keys_of_not_has habsent

@[simp] theorem serviceName_startContainerStream (s : ServiceSubscription)
    (streams : Heap Stream) (containerId : String) :
    (s.startContainerStream streams containerId).1.serviceName = s.serviceName := by
  rw [startContainerStream]
  split <;> rfl

@[simp] theorem serviceName_stopContainerStream (s : ServiceSubscription) (containerId : String) :
    (s.stopContainerStream containerId).serviceName = s.serviceName := by
  rw [stopContainerStream]
  split <;> rfl

end ServiceSubscription

structure SubscriptionManager where
  subs : JsMap String Nat
  serviceSubs : JsMap String ServiceSubscription
  streams : Heap Stream
  written : List Message

def newSubscriptionManager : SubscriptionManager := ⟨JsMap.empty, JsMap.empty, Heap.empty, []⟩

namespace SubscriptionManager

def writeJSON (m : SubscriptionManager) (msg : Message) : SubscriptionManager :=
  { m with written := m.written ++ [msg] }

/-- `containerExists` is what Docker answers while the message is handled. -/
def subscribe (containerExists : String → Bool) (m : SubscriptionManager)
    (containerId : String) : SubscriptionManager :=
  if m.subs.has containerId then m
  else if !containerExists containerId then
    m.writeJSON { type := "error", message := "container not found: " ++ containerId }
  else
    { m with
      subs := m.subs.set containerId m.streams.size
      streams := m.streams.alloc { containerId, serviceName := none } }

def unsubscribe (m : SubscriptionManager) (containerId : String) : SubscriptionManager :=
  if m.subs.has containerId then { m with subs := m.subs.delete containerId } else m

/-- The new subscription starts its streams afterwards, one by one. -/
def subscribeService (m : SubscriptionManager) (serviceName : String) : SubscriptionManager :=
  if m.serviceSubs.has serviceName then m
  else { m with serviceSubs := m.serviceSubs.set serviceName (newServiceSubscription serviceName) }

def unsubscribeService (m : SubscriptionManager) (serviceName : String) : SubscriptionManager :=
  if m.serviceSubs.has serviceName then { m with serviceSubs := m.serviceSubs.delete serviceName }
  else m

/-- One turn of the loop of `Handle`. -/
def handle (containerExists : String → Bool) (m : SubscriptionManager) (msg : Message) :
    SubscriptionManager :=
  if msg.type = "subscribe" then
    if msg.containerId = "" then
      m.writeJSON { type := "error", message := "containerId is required" }
    else m.subscribe containerExists msg.containerId
  else if msg.type = "unsubscribe" then
    if msg.containerId ≠ "" then m.unsubscribe msg.containerId else m
  else if msg.type = "subscribe_service" then
    if msg.serviceName = "" then
      m.writeJSON { type := "error", message := "serviceName is required" }
    else m.subscribeService msg.serviceName
  else if msg.type = "unsubscribe_service" then
    if msg.serviceName ≠ "" then m.unsubscribeService msg.serviceName else m
  else m

theorem mem_subs_subscribe {containerExists : String → Bool} {m : SubscriptionManager}
    {containerId id : String} :
    id ∈ (m.subscribe containerExists containerId).subs.keys ↔
      (id = containerId ∧ containerExists containerId = true) ∨ id ∈ m.subs.keys := by
  rw [subscribe]
  split
  next hmem =>
    rw [JsMap.has_iff] at hmem
    refine ⟨Or.inr, ?_⟩
    rintro (⟨rfl, _⟩ | h)
    · exact hmem
    · exact h
  next =>
    split
    next habsent =>
      have hfalse : containerExists containerId = false := by simpa using habsent
      simp [writeJSON, hfalse]
    next hexists =>
      have htrue : containerExists containerId = true := by simpa using hexists
      simp [htrue, JsMap.mem_keys_set]

theorem serviceSubs_subscribe (containerExists : String → Bool) (m : SubscriptionManager)
    (containerId : String) :
    (m.subscribe containerExists containerId).serviceSubs = m.serviceSubs := by
  rw [subscribe]
  split
  · rfl
  · split <;> rfl

theorem mem_subs_unsubscribe {m : SubscriptionManager} {containerId id : String} :
    id ∈ (m.unsubscribe containerId).subs.keys ↔ id ≠ containerId ∧ id ∈ m.subs.keys := by
  rw [unsubscribe]
  split
  next => exact JsMap.mem_keys_delete
  next habsent => exact JsMap.mem_keys_of_not_has habsent

theorem serviceSubs_unsubscribe (m : SubscriptionManager) (containerId : String) :
    (m.unsubscribe containerId).serviceSubs = m.serviceSubs := by
  rw [unsubscribe]
  split <;> rfl

theorem mem_serviceSubs_subscribeService {m : SubscriptionManager} {serviceName name : String} :
    name ∈ (m.subscribeService serviceName).serviceSubs.keys ↔
      name = serviceName ∨ name ∈ m.serviceSubs.keys := by
  rw [subscribeService]
  split
  next hmem => exact JsMap.mem_keys_of_has hmem
  next => exact JsMap.mem_keys_set

theorem subs_subscribeService (m : SubscriptionManager) (serviceName : String) :
    (m.subscribeService serviceName).subs = m.subs := by
  rw [subscribeService]
  split <;> rfl

theorem mem_serviceSubs_unsubscribeService {m : SubscriptionManager} {serviceName name : String} :
    name ∈ (m.unsubscribeService serviceName).serviceSubs.keys ↔
      name ≠ serviceName ∧ name ∈ m.serviceSubs.keys := by
  rw [unsubscribeService]
  split
  next => exact JsMap.mem_keys_delete
  next habsent => exact JsMap.mem_keys_of_not_has habsent

theorem subs_unsubscribeService (m : SubscriptionManager) (serviceName : String) :
    (m.unsubscribeService serviceName).subs = m.subs := by
  rw [unsubscribeService]
  split <;> rfl

end SubscriptionManager

end NestGateway.LogStreamer
