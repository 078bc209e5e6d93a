import NestGateway.LogProxy.Lifecycle
import NestGateway.LogProxy.Refcount
import NestGateway.LogStreamer.Subscription

/-! # What a log-streamer has been asked for

The requests sent on a socket, read by a manager that starts empty, leave it
with the keys the gateway counts: a key is asked for when its first viewer comes
and cancelled when the last one goes, and a socket that opens is asked for all
the keys of that moment.
-/

namespace NestGateway.LogProxy

open Runs LogStreamer

/-! ## Requests read by a manager -/

def Request.message : Request → Message
  | .subscribe containerId => { type := "subscribe", containerId }
  | .unsubscribe containerId => { type := "unsubscribe", containerId }
  | .subscribeService serviceName => { type := "subscribe_service", serviceName }
  | .unsubscribeService serviceName => { type := "unsubscribe_service", serviceName }

/-- The manager after a list of requests. `containerExists i` is what Docker answers while
request `i` is handled. -/
def received (containerExists : Nat → String → Bool) (requests : List Request) :
    SubscriptionManager :=
  requests.zipIdx.foldl (fun m r => m.handle (containerExists r.2) r.1.message)
    newSubscriptionManager

/-- The place of the last request for a key, unless it has been cancelled since. -/
def standing (kind : Kind) (key : String) (requests : List Request) : Option Nat :=
  requests.zipIdx.foldl (fun place r =>
    if r.1 = subscribeRequest kind key then some r.2
    else if r.1 = unsubscribeRequest kind key then none else place) none

theorem received_snoc (containerExists : Nat → String → Bool) (requests : List Request)
    (r : Request) : received containerExists (requests ++ [r]) =
      (received containerExists requests).handle (containerExists requests.length) r.message := by
  simp [received, List.zipIdx_append]

theorem standing_snoc (kind : Kind) (key : String) (requests : List Request) (r : Request) :
    standing kind key (requests ++ [r]) =
      if r = subscribeRequest kind key then some requests.length
      else if r = unsubscribeRequest kind key then none else standing kind key requests := by
  simp [standing, List.zipIdx_append]

theorem handle_subscribe (containerExists : String → Bool) (m : SubscriptionManager)
    (containerId : String) :
    m.handle containerExists (Request.subscribe containerId).message =
      if containerId = "" then m.writeJSON { type := "error", message := "containerId is required" }
      else m.subscribe containerExists containerId := rfl

theorem handle_unsubscribe (containerExists : String → Bool) (m : SubscriptionManager)
    (containerId : String) :
    m.handle containerExists (Request.unsubscribe containerId).message =
      if containerId ≠ "" then m.unsubscribe containerId else m := rfl

theorem handle_subscribeService (containerExists : String → Bool) (m : SubscriptionManager)
    (serviceName : String) :
    m.handle containerExists (Request.subscribeService serviceName).message =
      if serviceName = "" then m.writeJSON { type := "error", message := "serviceName is required" }
      else m.subscribeService serviceName := rfl

theorem handle_unsubscribeService (containerExists : String → Bool) (m : SubscriptionManager)
    (serviceName : String) :
    m.handle containerExists (Request.unsubscribeService serviceName).message =
      if serviceName ≠ "" then m.unsubscribeService serviceName else m := rfl

theorem mem_subs_handle_subscribe {containerExists : String → Bool} {m : SubscriptionManager}
    {kind : Kind} {key id : String} :
    id ∈ (m.handle containerExists (subscribeRequest kind key).message).subs.keys ↔
      ((.container = kind ∧ id = key) ∧ id ≠ "" ∧ containerExists id = true) ∨
        id ∈ m.subs.keys := by
  cases kind with
  | container =>
      rw [subscribeRequest, handle_subscribe]
      by_cases hkey : key = ""
      · rw [if_pos hkey]
        refine (or_iff_right ?_).symm
        rintro ⟨⟨_, rfl⟩, hid, _⟩
        exact hid hkey
      · rw [if_neg hkey, SubscriptionManager.mem_subs_subscribe]
        refine or_congr_left ⟨?_, ?_⟩
        · rintro ⟨rfl, hexists⟩
          exact ⟨⟨rfl, rfl⟩, hkey, hexists⟩
        · rintro ⟨⟨_, rfl⟩, _, hexists⟩
          exact ⟨rfl, hexists⟩
  | service =>
      have hsubs : (m.handle containerExists (subscribeRequest .service key).message).subs =
          m.subs := by
        rw [subscribeRequest, handle_subscribeService]
        split
        · rfl
        · exact SubscriptionManager.subs_subscribeService _ _
      rw [hsubs]
      simp

theorem mem_serviceSubs_handle_subscribe {containerExists : String → Bool}
    {m : SubscriptionManager} {kind : Kind} {key name : String} :
    name ∈ (m.handle containerExists (subscribeRequest kind key).message).serviceSubs.keys ↔
      ((.service = kind ∧ name = key) ∧ name ≠ "") ∨ name ∈ m.serviceSubs.keys := by
  cases kind with
  | container =>
      have hsubs : (m.handle containerExists
          (subscribeRequest .container key).message).serviceSubs = m.serviceSubs := by
        rw [subscribeRequest, handle_subscribe]
        split
        · rfl
        · exact SubscriptionManager.serviceSubs_subscribe _ _ _
      rw [hsubs]
      simp
  | service =>
      rw [subscribeRequest, handle_subscribeService]
      by_cases hkey : key = ""
      · rw [if_pos hkey]
        refine (or_iff_right ?_).symm
        rintro ⟨⟨_, rfl⟩, hname⟩
        exact hname hkey
      · rw [if_neg hkey, SubscriptionManager.mem_serviceSubs_subscribeService]
        refine or_congr_left ⟨?_, fun h => h.1.2⟩
        rintro rfl
        exact ⟨⟨rfl, rfl⟩, hkey⟩

theorem mem_subs_handle_unsubscribe {containerExists : String → Bool} {m : SubscriptionManager}
    {kind : Kind} {key id : String} :
    id ∈ (m.handle containerExists (unsubscribeRequest kind key).message).subs.keys ↔
      ¬ ((.container = kind ∧ id = key) ∧ id ≠ "") ∧ id ∈ m.subs.keys := by
  cases kind with
  | container =>
      rw [unsubscribeRequest, handle_unsubscribe]
      by_cases hkey : key = ""
      · rw [if_neg (not_not.mpr hkey)]
        refine (and_iff_right ?_).symm
        rintro ⟨⟨_, rfl⟩, hid⟩
        exact hid hkey
      · rw [if_pos hkey, SubscriptionManager.mem_subs_unsubscribe]
        refine and_congr_left fun _ => not_congr ⟨?_, fun h => h.1.2⟩
        rintro rfl
        exact ⟨⟨rfl, rfl⟩, hkey⟩
  | service =>
      have hsubs : (m.handle containerExists (unsubscribeRequest .service key).message).subs =
          m.subs := by
        rw [unsubscribeRequest, handle_unsubscribeService]
        split
        · exact SubscriptionManager.subs_unsubscribeService _ _
        · rfl
      rw [hsubs]
      simp

theorem mem_serviceSubs_handle_unsubscribe {containerExists : String → Bool}
    {m : SubscriptionManager} {kind : Kind} {key name : String} :
    name ∈ (m.handle containerExists (unsubscribeRequest kind key).message).serviceSubs.keys ↔
      ¬ ((.service = kind ∧ name = key) ∧ name ≠ "") ∧ name ∈ m.serviceSubs.keys := by
  cases kind with
  | container =>
      have hsubs : (m.handle containerExists
          (unsubscribeRequest .container key).message).serviceSubs = m.serviceSubs := by
        rw [unsubscribeRequest, handle_unsubscribe]
        split
        · exact SubscriptionManager.serviceSubs_unsubscribe _ _
        · rfl
      rw [hsubs]
      simp
  | service =>
      rw [unsubscribeRequest, handle_unsubscribeService]
      by_cases hkey : key = ""
      · rw [if_neg (not_not.mpr hkey)]
        refine (and_iff_right ?_).symm
        rintro ⟨⟨_, rfl⟩, hname⟩
        exact hname hkey
      · rw [if_pos hkey, SubscriptionManager.mem_serviceSubs_unsubscribeService]
        refine and_congr_left fun _ => not_congr ⟨?_, fun h => h.1.2⟩
        rintro rfl
        exact ⟨⟨rfl, rfl⟩, hkey⟩

theorem subscribeRequest_inj {kind kind' : Kind} {key key' : String} :
    subscribeRequest kind key = subscribeRequest kind' key' ↔ kind = kind' ∧ key = key' := by
  cases kind <;> cases kind' <;> simp [subscribeRequest]

theorem standing_subscribe (kind kind' : Kind) (key key' : String) (requests : List Request) :
    standing kind' key' (requests ++ [subscribeRequest kind key]) =
      if kind' = kind ∧ key' = key then some requests.length
      else standing kind' key' requests := by
  rw [standing_snoc, if_neg (subscribe_ne_unsubscribe kind kind' key key')]
  simp only [subscribeRequest_inj, eq_comm]

theorem standing_unsubscribe (kind kind' : Kind) (key key' : String) (requests : List Request) :
    standing kind' key' (requests ++ [unsubscribeRequest kind key]) =
      if kind' = kind ∧ key' = key then none else standing kind' key' requests := by
  rw [standing_snoc, if_neg (subscribe_ne_unsubscribe kind' kind key' key).symm]
  simp only [unsubscribeRequest_inj, eq_comm]

/-- The requests ask for the wanted keys, and a manager that reads them has the named ones. -/
structure Served (want : Kind → String → Prop) (requests : List Request) : Prop where
  standing : ∀ kind key, (standing kind key requests).isSome = true ↔ want kind key
  containers : ∀ containerExists id, id ∈ (received containerExists requests).subs.keys ↔
    id ≠ "" ∧ ∃ i, LogProxy.standing .container id requests = some i ∧
      containerExists i id = true
  services : ∀ containerExists name, name ∈ (received containerExists requests).serviceSubs.keys ↔
    name ≠ "" ∧ want .service name

theorem served_nil : Served (fun _ _ => False) [] := by
  constructor <;> simp [LogProxy.standing, received, newSubscriptionManager]

theorem Served.congr {want want' : Kind → String → Prop} {requests : List Request}
    (h : Served want requests) (hiff : ∀ kind key, want kind key ↔ want' kind key) :
    Served want' requests := by
  have heq : want = want' := by
    funext kind key
    exact propext (hiff kind key)
  exact heq ▸ h

theorem Served.subscribe {want : Kind → String → Prop} {requests : List Request}
    (h : Served want requests) {kind : Kind} {key : String} (hnew : ¬ want kind key) :
    Served (fun kind' key' => (kind' = kind ∧ key' = key) ∨ want kind' key')
      (requests ++ [subscribeRequest kind key]) := by
  have hnone : LogProxy.standing kind key requests = none := by
    cases hs : LogProxy.standing kind key requests with
    | none => rfl
    | some i => exact absurd ((h.standing kind key).mp (by rw [hs]; rfl)) hnew
  constructor
  · intro kind' key'
    rw [standing_subscribe]
    split
    next heq => exact iff_of_true rfl (Or.inl heq)
    next hne => rw [h.standing, or_iff_right hne]
  · intro containerExists id
    rw [received_snoc, mem_subs_handle_subscribe, h.containers, standing_subscribe]
    split
    next heq =>
      obtain ⟨rfl, rfl⟩ := heq
      simp [hnone]
    next hne => simp [hne]
  · intro containerExists name
    rw [received_snoc, mem_serviceSubs_handle_subscribe, h.services]
    tauto

theorem Served.unsubscribe {want : Kind → String → Prop} {requests : List Request}
    (h : Served want requests) (kind : Kind) (key : String) :
    Served (fun kind' key' => ¬ (kind' = kind ∧ key' = key) ∧ want kind' key')
      (requests ++ [unsubscribeRequest kind key]) := by
  constructor
  · intro kind' key'
    rw [standing_unsubscribe]
    split
    next heq => simp [heq]
    next hne => rw [h.standing, and_iff_right hne]
  · intro containerExists id
    rw [received_snoc, mem_subs_handle_unsubscribe, h.containers, standing_unsubscribe]
    split
    next heq =>
      refine iff_of_false (fun hold => hold.1 ⟨heq, hold.2.1⟩) ?_
      rintro ⟨_, _, hnone, _⟩
      cases hnone
    next hne => simp [hne]
  · intro containerExists name
    rw [received_snoc, mem_serviceSubs_handle_unsubscribe, h.services]
    tauto

/-- The keys that the gateway counts. -/
def Proxy.wants (p : Proxy) (kind : Kind) (key : String) : Prop := key ∈ (p.counts kind).keys

theorem Served.subscribeAll {want : Kind → String → Prop} {requests : List Request} (kind : Kind)
    {keys : List String} (h : Served want requests) (hnodup : keys.Nodup)
    (hnew : ∀ key ∈ keys, ¬ want kind key) :
    Served (fun kind' key' => (kind' = kind ∧ key' ∈ keys) ∨ want kind' key')
      (requests ++ keys.map (subscribeRequest kind)) := by
  induction keys generalizing want requests with
  | nil => simpa using h
  | cons key keys ih =>
      obtain ⟨hfresh, hrest⟩ := List.nodup_cons.mp hnodup
      have hmore := ih (h.subscribe (hnew key List.mem_cons_self)) hrest fun key' hmem => by
        rintro (⟨_, rfl⟩ | hwant)
        · exact hfresh hmem
        · exact hnew key' (List.mem_cons_of_mem _ hmem) hwant
      rw [List.map_cons, List.append_cons]
      refine hmore.congr fun kind' key' => ?_
      simp only [List.mem_cons]
      tauto

theorem served_resubscriptions (p : Proxy) : Served p.wants (resubscriptions p) := by
  have hcontainers := served_nil.subscribeAll .container p.activeSubscriptions.nodup
    fun _ _ h => h
  have hservices := hcontainers.subscribeAll .service p.activeServiceSubscriptions.nodup
    fun key _ h => by simp at h
  refine hservices.congr fun kind key => ?_
  cases kind <;> simp [Proxy.wants, Proxy.counts, JsMap.keys]

/-! ## Steps that send nothing -/

/-- The step sends nothing, opens nothing and lists new connections only. -/
structure Silent (p p' : Proxy) : Prop where
  counts : ∀ kind, p'.counts kind = p.counts kind
  connecting : ∀ s sock', p'.sockets.get s = some sock' → sock'.readyState = .connecting →
    sock'.sent = [] ∨ ∃ sock, p.sockets.get s = some sock ∧ sock.readyState = .connecting ∧
      sock.sent = sock'.sent
  opened : ∀ s sock', p'.sockets.get s = some sock' → sock'.readyState = .opened →
    ∃ sock, p.sockets.get s = some sock ∧ sock.readyState = .opened ∧
      sock.owner = sock'.owner ∧ sock.sent = sock'.sent
  listed : ∀ host c, p'.connections.get host = some c →
    p.connections.get host = some c ∨ p.conns.size ≤ c
  size : p.conns.size ≤ p'.conns.size

theorem Silent.refl (p : Proxy) : Silent p p where
  counts _ := rfl
  connecting _ sock' hget hstate := Or.inr ⟨sock', hget, hstate, rfl⟩
  opened _ sock' hget hstate := ⟨sock', hget, hstate, rfl, rfl⟩
  listed _ _ := Or.inl
  size := Nat.le_refl _

theorem Silent.trans {p q r : Proxy} (h : Silent p q) (h' : Silent q r) : Silent p r where
  counts kind := (h'.counts kind).trans (h.counts kind)
  connecting s sock'' hget hstate := by
    rcases h'.connecting s sock'' hget hstate with hnil | ⟨sock', hget', hstate', hsent'⟩
    · exact Or.inl hnil
    · rw [← hsent']
      exact h.connecting s sock' hget' hstate'
  opened s sock'' hget hstate := by
    obtain ⟨sock', hget', hstate', howner', hsent'⟩ := h'.opened s sock'' hget hstate
    rw [← howner', ← hsent']
    exact h.opened s sock' hget' hstate'
  listed host c hget := by
    rcases h'.listed host c hget with hget' | hfresh
    · exact h.listed host c hget'
    · exact Or.inr (Nat.le_trans h.size hfresh)
  size := Nat.le_trans h.size h'.size

theorem silent_foldl {α : Type*} {f : Proxy → α → Proxy} (hf : ∀ p a, Silent p (f p a))
    (as : List α) (p : Proxy) : Silent p (as.foldl f p) :=
  List.foldlRecOn as f (motive := Silent p) (Silent.refl p) fun q hq a _ => hq.trans (hf q a)

theorem silent_of_sockets {p p' : Proxy} (counts : ∀ kind, p'.counts kind = p.counts kind)
    (sockets : p'.sockets = p.sockets) (connections : p'.connections = p.connections)
    (size : p'.conns.size = p.conns.size) : Silent p p' where
  counts := counts
  connecting _ sock' hget hstate := Or.inr ⟨sock', sockets ▸ hget, hstate, rfl⟩
  opened _ sock' hget hstate := ⟨sock', sockets ▸ hget, hstate, rfl, rfl⟩
  listed _ _ hget := Or.inl (connections ▸ hget)
  size := Nat.le_of_eq size.symm

/-- A change of one socket that keeps its state, or takes it out of the states that matter. -/
theorem silent_modify {p p' : Proxy} {i : Option Nat} {f : Socket → Socket}
    (hf : ∀ sock, (f sock).owner = sock.owner ∧ (f sock).sent = sock.sent ∧
      ((f sock).readyState = sock.readyState ∨ ¬ (f sock).readyState.Live))
    (counts : ∀ kind, p'.counts kind = p.counts kind)
    (sockets : p'.sockets = p.sockets.modifyOpt i f)
    (connections : p'.connections = p.connections)
    (size : p'.conns.size = p.conns.size) : Silent p p' := by
  have hold : ∀ s sock', p'.sockets.get s = some sock' → sock'.readyState.Live →
      ∃ sock, p.sockets.get s = some sock ∧ sock.readyState = sock'.readyState ∧
        sock.owner = sock'.owner ∧ sock.sent = sock'.sent := by
    intro s sock' hget hlive
    rw [sockets, Heap.get_modifyOpt] at hget
    split at hget
    · obtain ⟨sock, hsock, rfl⟩ := Option.map_eq_some_iff.mp hget
      obtain ⟨howner, hsent, hstate⟩ := hf sock
      refine ⟨sock, hsock, ?_, howner.symm, hsent.symm⟩
      rcases hstate with hsame | hdead
      · exact hsame.symm
      · exact absurd hlive hdead
    · exact ⟨sock', hget, rfl, rfl, rfl⟩
  refine ⟨counts, fun s sock' hget hstate => ?_, fun s sock' hget hstate => ?_,
    fun host c hget => Or.inl (connections ▸ hget), Nat.le_of_eq size.symm⟩
  · obtain ⟨sock, hsock, hsame, _, hsent⟩ := hold s sock' hget (Or.inl hstate)
    exact Or.inr ⟨sock, hsock, hsame.trans hstate, hsent⟩
  · obtain ⟨sock, hsock, hsame, howner, hsent⟩ := hold s sock' hget (Or.inr hstate)
    exact ⟨sock, hsock, hsame.trans hstate, howner, hsent⟩

theorem silent_setReadyState {p : Proxy} {s : Nat} {rs : ReadyState} (hrs : ¬ rs.Live) :
    Silent p (setReadyState p s rs) :=
  silent_modify (i := some s) (f := fun sock => { sock with readyState := rs })
    (fun _ => ⟨rfl, rfl, Or.inr hrs⟩) (fun kind => by cases kind <;> rfl) rfl rfl rfl

theorem silent_arrive (p : Proxy) (s : Nat) : Silent p (arrive p s) :=
  silent_modify (i := some s) (f := fun sock => { sock with delivered := sock.delivered + 1 })
    (fun _ => ⟨rfl, rfl, Or.inl rfl⟩) (fun kind => by cases kind <;> rfl) rfl rfl rfl

theorem silent_closeConnection (p : Proxy) (c : Nat) : Silent p (closeConnection p c) := by
  cases hconn : p.conns.get c with
  | none => exact (closeConnection_of_none hconn).symm ▸ Silent.refl p
  | some conn =>
      rw [closeConnection_of_get hconn]
      exact silent_modify (i := conn.ws) (f := Socket.close)
        (fun sock => ⟨rfl, rfl, Or.inr sock.readyState.close_not_live⟩)
        (fun kind => by cases kind <;> rfl) rfl rfl (Heap.size_modify _ _ _)

theorem silent_removeConnection (p : Proxy) (host : String) :
    Silent p (removeConnection p host) := by
  rw [removeConnection]
  cases p.connections.get host with
  | none => exact Silent.refl p
  | some c =>
      have hclosed := silent_closeConnection p c
      obtain ⟨hconnections, _⟩ := fields_closeConnection p c
      refine ⟨fun kind => ?_, hclosed.connecting, hclosed.opened, fun host' c' hget => Or.inl ?_,
        hclosed.size⟩
      · rw [← hclosed.counts kind]
        cases kind <;> rfl
      · rw [JsMap.get_delete] at hget
        split at hget
        · cases hget
        · exact hget

theorem silent_startTimer (p : Proxy) (c n d : Nat) : Silent p (startTimer p c n d) :=
  silent_of_sockets (fun kind => by cases kind <;> rfl) rfl rfl (Heap.size_modify _ _ _)

theorem silent_newSocket (p : Proxy) (c : Nat) : Silent p (newSocket p c) := by
  have hnew : ∀ s sock', (newSocket p c).sockets.get s = some sock' →
      sock' = ⟨c, .connecting, [], 0⟩ ∨ p.sockets.get s = some sock' := by
    intro s sock' hget
    change (p.sockets.alloc _).get s = some sock' at hget
    exact (Heap.get_of_alloc hget).imp_left fun hnew => hnew.2.symm
  refine ⟨fun kind => by cases kind <;> rfl, fun s sock' hget hstate => ?_,
    fun s sock' hget hstate => ?_, fun _ _ => Or.inl, Nat.le_of_eq (Heap.size_modify _ _ _).symm⟩
  · rcases hnew s sock' hget with rfl | hold
    · exact Or.inl rfl
    · exact Or.inr ⟨sock', hold, hstate, rfl⟩
  · rcases hnew s sock' hget with rfl | hold
    · cases hstate
    · exact ⟨sock', hold, hstate, rfl, rfl⟩

theorem silent_scheduleReconnect (p : Proxy) (c : Nat) : Silent p (scheduleReconnect p c) := by
  rcases scheduleReconnect_cases p c with ⟨_, heq⟩ | ⟨_, _, n, d, heq⟩
  · exact heq.symm ▸ Silent.refl p
  · exact heq.symm ▸ silent_startTimer p c n d

theorem silent_connectWebSocket (env : Env) (p : Proxy) (c : Nat) :
    Silent p (connectWebSocket env p c) := by
  rw [connectWebSocket]
  split
  · exact Silent.refl p
  · split
    · exact Silent.refl p
    · split
      · exact silent_newSocket p c
      · exact silent_scheduleReconnect p c

theorem silent_listConnection (p : Proxy) (host : String) : Silent p (listConnection p host) where
  counts kind := by cases kind <;> rfl
  connecting _ sock' hget hstate := Or.inr ⟨sock', hget, hstate, rfl⟩
  opened _ sock' hget hstate := ⟨sock', hget, hstate, rfl, rfl⟩
  listed host' c hget := by
    change (p.connections.set host p.conns.size).get host' = some c at hget
    rw [JsMap.get_set] at hget
    split at hget
    · exact Or.inr (Nat.le_of_eq (Option.some.inj hget))
    · exact Or.inl hget
  size := by
    rw [listConnection, Heap.size_alloc]
    exact Nat.le_succ _

theorem silent_addConnection (env : Env) (p : Proxy) (host : String) :
    Silent p (addConnection env p host) :=
  (silent_listConnection p host).trans (silent_connectWebSocket env _ _)

theorem silent_reconcileConnections (env : Env) (p : Proxy) (hosts : List String) :
    Silent p (reconcileConnections env p hosts) :=
  (silent_foldl silent_removeConnection _ p).trans (silent_foldl (silent_addConnection env) _ _)

theorem silent_onModuleDestroy (p : Proxy) : Silent p (onModuleDestroy p) := by
  have hdown : Silent p { p with isShuttingDown := true } :=
    silent_of_sockets (fun kind => by cases kind <;> rfl) rfl rfl rfl
  have hclosed := hdown.trans (silent_foldl silent_closeConnection p.connections.values _)
  refine ⟨fun kind => ?_, hclosed.connecting, hclosed.opened, fun host c hget => ?_, hclosed.size⟩
  · rw [← hclosed.counts kind]
    cases kind <;> rfl
  · cases hget

/-! ## Sending -/

theorem get_sendOn {p : Proxy} {requests : List Request} {c s : Nat} (h : p.WsOf c s) :
    (sendOn p requests c).sockets.get s = (p.sockets.get s).map (Socket.send requests) := by
  obtain ⟨conn, hconn, hws⟩ := h
  rw [sendOn, hconn]
  simp only [Option.bind_some, hws, Heap.get_modify, if_true]

theorem get_sendOn_other {p : Proxy} {requests : List Request} {c s : Nat} (h : ¬ p.WsOf c s) :
    (sendOn p requests c).sockets.get s = p.sockets.get s := by
  rw [sendOn]
  cases hws : (p.conns.get c).bind (·.ws) with
  | none => rfl
  | some s' =>
      obtain ⟨conn, hconn, hconnws⟩ := Option.bind_eq_some_iff.mp hws
      simp only [Heap.get_modify]
      rw [if_neg]
      rintro rfl
      exact h ⟨conn, hconn, hconnws⟩

theorem get_sends (requests : List Request) {cs : List Nat} (hnodup : cs.Nodup) {p : Proxy}
    (inj : ∀ c c' s, p.WsOf c s → p.WsOf c' s → c = c') (s : Nat) :
    ((∃ c ∈ cs, p.WsOf c s) → (cs.foldl (sendOn · requests) p).sockets.get s =
        (p.sockets.get s).map (Socket.send requests)) ∧
      ((¬ ∃ c ∈ cs, p.WsOf c s) →
        (cs.foldl (sendOn · requests) p).sockets.get s = p.sockets.get s) := by
  induction cs generalizing p with
  | nil => simp
  | cons c cs ih =>
      obtain ⟨hfresh, hrest⟩ := List.nodup_cons.mp hnodup
      have hws := (sameLines_sendOn p requests c).wsOf
      obtain ⟨hsent, hkept⟩ := ih hrest (p := sendOn p requests c) fun c₁ c₂ s' h₁ h₂ =>
        inj c₁ c₂ s' ((hws c₁ s').mp h₁) ((hws c₂ s').mp h₂)
      simp only [hws] at hsent hkept
      rw [List.foldl_cons]
      by_cases hc : p.WsOf c s
      · have hnone : ¬ ∃ c' ∈ cs, p.WsOf c' s := by
          rintro ⟨c', hmem, hc'⟩
          exact hfresh (inj c c' s hc hc' ▸ hmem)
        refine ⟨fun _ => (hkept hnone).trans (get_sendOn hc), fun h => ?_⟩
        exact absurd ⟨c, List.mem_cons_self, hc⟩ h
      · refine ⟨fun h => ?_, fun h => ?_⟩
        · obtain ⟨c', hmem, hc'⟩ := h
          rcases List.mem_cons.mp hmem with rfl | hmem
          · exact absurd hc' hc
          · exact (hsent ⟨c', hmem, hc'⟩).trans (congrArg _ (get_sendOn_other hc))
        · refine (hkept ?_).trans (get_sendOn_other hc)
          rintro ⟨c', hmem, hc'⟩
          exact h ⟨c', List.mem_cons_of_mem _ hmem, hc'⟩

theorem WellFormed.ws_inj {p : Proxy} (wf : WellFormed p) {c c' s : Nat} (h : p.WsOf c s)
    (h' : p.WsOf c' s) : c = c' := by
  obtain ⟨rs, hs⟩ := wf.ws_owner c s h
  obtain ⟨rs', hs'⟩ := wf.ws_owner c' s h'
  exact (Owns.unique hs hs').1

theorem WellFormed.nodup_values {p : Proxy} (wf : WellFormed p) : p.connections.values.Nodup :=
  JsMap.nodup_values fun host host' c h h' =>
    HostOf.unique (wf.mapped host c h) (wf.mapped host' c h')

theorem fields_send (requests : List Request) (sock : Socket) :
    (sock.send requests).owner = sock.owner ∧
      (sock.send requests).readyState = sock.readyState ∧
      (sock.readyState ≠ .opened → (sock.send requests).sent = sock.sent) ∧
      (sock.readyState = .opened → (sock.send requests).sent = sock.sent ++ requests) := by
  rw [Socket.send]
  split
  next hopen => exact ⟨rfl, rfl, fun h => absurd hopen h, fun _ => rfl⟩
  next hclosed => exact ⟨rfl, rfl, fun _ => rfl, fun h => absurd h hclosed⟩

/-- What a broadcast does to a socket. -/
theorem get_broadcast {p : Proxy} (wf : WellFormed p) {request : Request} {s : Nat}
    {sock' : Socket} (h : (broadcastToAll p request).sockets.get s = some sock') :
    ∃ sock, p.sockets.get s = some sock ∧ sock'.owner = sock.owner ∧
      sock'.readyState = sock.readyState ∧
      (sock.readyState ≠ .opened → sock'.sent = sock.sent) ∧
      ∀ host, sock.readyState = .opened → p.connections.get host = some sock.owner →
        sock'.sent = sock.sent ++ [request] := by
  obtain ⟨hsent, hkept⟩ := get_sends [request] wf.nodup_values
    (fun _ _ _ => wf.ws_inj) s
  change (p.connections.values.foldl (sendOn · [request]) p).sockets.get s = some sock' at h
  by_cases hws : ∃ c ∈ p.connections.values, p.WsOf c s
  · rw [hsent hws] at h
    obtain ⟨sock, hsock, rfl⟩ := Option.map_eq_some_iff.mp h
    obtain ⟨howner, hstate, hsilent, hopened⟩ := fields_send [request] sock
    exact ⟨sock, hsock, howner, hstate, hsilent, fun _ hopen _ => hopened hopen⟩
  · rw [hkept hws] at h
    refine ⟨sock', h, rfl, rfl, fun _ => rfl, fun host hopen hmapped => absurd ?_ hws⟩
    exact ⟨sock'.owner, JsMap.mem_values_of_get hmapped,
      wf.held _ s _ ⟨sock', h, rfl, rfl⟩ (Or.inr hopen)⟩

/-! ## The invariant -/

/-- Every open socket of a listed connection has been asked for what the gateway counts. -/
structure InStep (p : Proxy) : Prop where
  wf : WellFormed p
  counted : ∀ kind key, (p.counts kind).get key ≠ some 0
  connecting : ∀ s sock, p.sockets.get s = some sock → sock.readyState = .connecting →
    sock.sent = []
  served : ∀ host s sock, p.sockets.get s = some sock → sock.readyState = .opened →
    p.connections.get host = some sock.owner → Served p.wants sock.sent

theorem wants_of_counts {p p' : Proxy} (h : ∀ kind, p'.counts kind = p.counts kind) :
    p'.wants = p.wants := by
  funext kind key
  rw [Proxy.wants, Proxy.wants, h]

theorem InStep.silent {p p' : Proxy} (inStep : InStep p) (h : Silent p p')
    (wf : WellFormed p') : InStep p' where
  wf := wf
  counted kind key := by
    rw [h.counts]
    exact inStep.counted kind key
  connecting s sock' hget hstate := by
    rcases h.connecting s sock' hget hstate with hnil | ⟨sock, hget', hstate', hsent⟩
    · exact hnil
    · rw [← hsent]
      exact inStep.connecting s sock hget' hstate'
  served host s sock' hget hstate hmapped := by
    obtain ⟨sock, hget', hstate', howner, hsent⟩ := h.opened s sock' hget hstate
    rw [wants_of_counts h.counts, ← hsent]
    rcases h.listed host _ hmapped with hlisted | hfresh
    · exact inStep.served host s sock hget' hstate' (howner ▸ hlisted)
    · have := inStep.wf.owner sock.owner s _ ⟨sock, hget', rfl, rfl⟩
      omega

/-- New counts, with the request that makes up for the change of keys. -/
theorem InStep.recount {p : Proxy} (inStep : InStep p) {kind : Kind} {counts : JsMap String Nat}
    (wanted : Bool) (request : Request) (counted : ∀ key, counts.get key ≠ some 0)
    (loud : wanted = true → ∀ sent, Served p.wants sent →
      Served (p.setCounts kind counts).wants (sent ++ [request]))
    (quiet : wanted = false → (p.setCounts kind counts).wants = p.wants) :
    InStep (broadcastIf wanted (p.setCounts kind counts) request) := by
  have hsockets : (p.setCounts kind counts).sockets = p.sockets := by cases kind <;> rfl
  have hconnections : (p.setCounts kind counts).connections = p.connections := by
    cases kind <;> rfl
  have hwf := (sameLines_setCounts p kind counts).wellFormed inStep.wf
  obtain ⟨hcounts, _, _⟩ := fields_recount p kind counts wanted request
  have hwants : (broadcastIf wanted (p.setCounts kind counts) request).wants =
      (p.setCounts kind counts).wants :=
    wants_of_counts fun kind' => (hcounts kind').trans (counts_setCounts p kind kind' counts).symm
  refine ⟨(sameLines_broadcastIf wanted _ request).wellFormed hwf, fun kind' key => ?_, ?_, ?_⟩
  · rw [hcounts]
    split
    · exact counted key
    · exact inStep.counted kind' key
  all_goals rw [broadcastIf]
  · intro s sock' hget hstate
    cases wanted with
    | false =>
        rw [if_neg (by decide), hsockets] at hget
        exact inStep.connecting s sock' hget hstate
    | true =>
        obtain ⟨sock, hsock, _, hsame, hsent, _⟩ := get_broadcast hwf hget
        rw [hsent (by rw [← hsame, hstate]; decide)]
        exact inStep.connecting s sock (hsockets ▸ hsock) (hsame ▸ hstate)
  · intro host s sock' hget hstate hmapped
    rw [broadcastIf] at hwants
    rw [hwants]
    cases wanted with
    | false =>
        rw [if_neg (by decide)] at hget hmapped
        rw [quiet rfl]
        exact inStep.served host s sock' (hsockets ▸ hget) hstate (hconnections ▸ hmapped)
    | true =>
        obtain ⟨sock, hsock, howner, hsame, _, hsent⟩ := get_broadcast hwf hget
        have hmapped' : (p.setCounts kind counts).connections.get host = some sock.owner := by
          rw [← howner, ← hmapped, if_pos rfl, (sameLines_broadcast _ request).connections]
        rw [hsent host (hsame ▸ hstate) hmapped']
        exact loud rfl sock.sent (inStep.served host s sock (hsockets ▸ hsock) (hsame ▸ hstate)
          (hconnections ▸ hmapped'))

theorem wants_setCounts {p : Proxy} {kind kind' : Kind} {counts : JsMap String Nat}
    {key : String} : (p.setCounts kind counts).wants kind' key ↔
      if kind' = kind then counts.get key ≠ none else p.wants kind' key := by
  rw [Proxy.wants, counts_setCounts]
  split
  · rw [JsMap.mem_keys, Option.ne_none_iff_exists']
  · rfl

theorem stored_of_ne_zero {count : Option Nat} (h : count ≠ some 0) : ∃ n, count = stored n := by
  match count with
  | none => exact ⟨0, rfl⟩
  | some 0 => exact absurd rfl h
  | some (n + 1) => exact ⟨n + 1, rfl⟩

theorem stored_ne_zero (n : Nat) : stored n ≠ some 0 := by
  cases n <;> simp [stored]

theorem wants_iff {p : Proxy} {kind : Kind} {key : String} {n : Nat}
    (h : (p.counts kind).get key = stored n) : p.wants kind key ↔ n ≠ 0 := by
  rw [Proxy.wants, JsMap.mem_keys, h]
  cases n <;> simp [stored]

theorem InStep.counted_of_get {p : Proxy} (inStep : InStep p) {kind : Kind} {key : String} {n : Nat}
    {counts : JsMap String Nat} (hget : ∀ key', counts.get key' =
      if key' = key then stored n else (p.counts kind).get key') (key' : String) :
    counts.get key' ≠ some 0 := by
  rw [hget]
  split
  · exact stored_ne_zero n
  · exact inStep.counted kind key'

theorem wants_of_get {p : Proxy} {kind : Kind} {key : String} {n : Nat}
    {counts : JsMap String Nat} (hget : ∀ key', counts.get key' =
      if key' = key then stored n else (p.counts kind).get key') (kind' : Kind) (key' : String) :
    (p.setCounts kind counts).wants kind' key' ↔
      if kind' = kind ∧ key' = key then n ≠ 0 else p.wants kind' key' := by
  rw [wants_setCounts]
  by_cases hkind : kind' = kind
  · subst hkind
    rw [if_pos rfl, hget]
    by_cases hkey : key' = key
    · rw [if_pos hkey, if_pos ⟨rfl, hkey⟩]
      cases n <;> simp [stored]
    · rw [if_neg hkey, if_neg fun h => hkey h.2, Proxy.wants, JsMap.mem_keys,
        Option.ne_none_iff_exists']
  · rw [if_neg hkind, if_neg fun h => hkind h.1]

theorem InStep.subscribeTo {p : Proxy} (inStep : InStep p) (kind : Kind) (key : String) :
    InStep (subscribeTo kind p key) := by
  obtain ⟨n, hn⟩ := stored_of_ne_zero (inStep.counted kind key)
  obtain ⟨hget, hfirst⟩ := retain_spec hn
  have hwants := wants_of_get hget
  have hold := wants_iff hn
  refine InStep.silent (inStep.recount (retainSubscription (p.counts kind) key).2
    (subscribeRequest kind key) (inStep.counted_of_get hget) ?_ ?_)
    (silent_of_sockets (fun kind' => counts_addViewer _ _ kind') rfl rfl rfl)
    ((sameLines_subscribeTo kind p key).wellFormed inStep.wf)
  · intro hloud sent hserved
    rw [hfirst, beq_iff_eq] at hloud
    refine (hserved.subscribe (hold.not.mpr (not_not.mpr hloud))).congr fun kind' key' => ?_
    rw [hwants]
    split
    next heq => exact iff_of_true (Or.inl heq) (Nat.succ_ne_zero n)
    next hne => exact or_iff_right hne
  · intro hquiet
    rw [hfirst, beq_eq_false_iff_ne] at hquiet
    funext kind' key'
    rw [hwants]
    split
    next heq =>
      obtain ⟨rfl, rfl⟩ := heq
      exact propext (iff_of_true (Nat.succ_ne_zero n) (hold.mpr hquiet))
    next => rfl

theorem InStep.iteratorReturn {p : Proxy} (inStep : InStep p) (i : Nat) (viewer : Viewer) :
    InStep (iteratorReturn p i viewer) := by
  obtain ⟨n, hn⟩ := stored_of_ne_zero (inStep.counted viewer.kind viewer.key)
  obtain ⟨hget, hlast⟩ := release_spec hn
  have hwants := wants_of_get hget
  have hold := wants_iff hn
  refine InStep.silent (inStep.recount (releaseSubscription (p.counts viewer.kind) viewer.key).2
    (unsubscribeRequest viewer.kind viewer.key) (inStep.counted_of_get hget) ?_ ?_)
    (silent_of_sockets (fun kind' => counts_finishViewer _ _ kind') rfl rfl rfl)
    ((sameLines_iteratorReturn p i viewer).wellFormed inStep.wf)
  · intro hloud sent hserved
    rw [hlast, beq_iff_eq] at hloud
    refine (hserved.unsubscribe viewer.kind viewer.key).congr fun kind' key' => ?_
    rw [hwants]
    split
    next heq => exact iff_of_false (fun h => h.1 heq) (by omega)
    next hne => exact and_iff_right hne
  · intro hquiet
    rw [hlast, beq_eq_false_iff_ne] at hquiet
    funext kind' key'
    rw [hwants]
    split
    next heq =>
      obtain ⟨rfl, rfl⟩ := heq
      refine propext (Iff.trans ?_ hold.symm)
      omega
    next => rfl

theorem get_socketOpened {p : Proxy} (wf : WellFormed p) {s : Nat} {sock : Socket}
    (hget : p.sockets.get s = some sock) (hstate : sock.readyState = .connecting) {s' : Nat}
    {sock' : Socket}
    (h : (onOpen (setReadyState p s .opened) sock.owner).sockets.get s' = some sock') :
    (s' = s ∧ sock'.readyState = .opened ∧ sock'.sent = sock.sent ++ resubscriptions p) ∨
      p.sockets.get s' = some sock' := by
  have hws : p.WsOf sock.owner s := wf.held _ s _ ⟨sock, hget, rfl, rfl⟩ (Or.inl hstate)
  have hkept := sameLines_conns (setReadyState p s .opened) sock.owner
    (f := fun conn => { conn with reconnectAttempts := 0 }) (fun _ => rfl) (fun _ => rfl)
    fun _ => rfl
  rw [onOpen] at h
  by_cases hs : s' = s
  · subst hs
    rw [get_sendOn ((hkept.wsOf _ _).mpr hws)] at h
    simp only [setReadyState, Heap.get_modify, if_true, hget, Option.map_some,
      Option.some.injEq] at h
    subst h
    exact Or.inl ⟨rfl, rfl, rfl⟩
  · have hother : ¬ (setReadyState p s .opened).WsOf sock.owner s' :=
      fun h' => hs (WsOf.unique h' hws)
    rw [get_sendOn_other (mt (hkept.wsOf _ _).mp hother)] at h
    simp only [setReadyState, Heap.get_modify, if_neg hs] at h
    exact Or.inr h

theorem InStep.socketOpened {p : Proxy} (inStep : InStep p) {s : Nat} {sock : Socket}
    (hget : p.sockets.get s = some sock) (hstate : sock.readyState = .connecting)
    (wf : WellFormed (onOpen (setReadyState p s .opened) sock.owner)) :
    InStep (onOpen (setReadyState p s .opened) sock.owner) := by
  have hsame : SameViewers p (onOpen (setReadyState p s .opened) sock.owner) :=
    SameViewers.trans (sameViewers_with p ..) (sameViewers_onOpen _ sock.owner)
  have hconnections := (sameLines_onOpen (setReadyState p s .opened) sock.owner).connections
  refine ⟨wf, fun kind key => ?_, fun s' sock' hget' hstate' => ?_,
    fun host s' sock' hget' hstate' hmapped => ?_⟩
  · rw [hsame.counts]
    exact inStep.counted kind key
  · rcases get_socketOpened inStep.wf hget hstate hget' with ⟨_, hopen, _⟩ | hold
    · rw [hopen] at hstate'
      cases hstate'
    · exact inStep.connecting s' sock' hold hstate'
  · rw [wants_of_counts hsame.counts]
    rcases get_socketOpened inStep.wf hget hstate hget' with ⟨_, _, hsent⟩ | hold
    · rw [hsent, inStep.connecting s sock hget hstate]
      exact served_resubscriptions p
    · exact inStep.served host s' sock' hold hstate' (hconnections ▸ hmapped)

theorem InStep.step {env : Env} {p p' : Proxy} {e : Event} (inStep : InStep p)
    (h : step env p e = some p') : InStep p' := by
  obtain ⟨hwf, _⟩ := step_spec inStep.wf h
  have hsilent : ∀ {q : Proxy}, WellFormed q → Silent p q → InStep q :=
    fun wf silent => inStep.silent silent wf
  have hfields : ∀ {q : Proxy}, (∀ kind, q.counts kind = p.counts kind) → q.sockets = p.sockets →
      q.connections = p.connections → q.conns.size = p.conns.size → Silent p q :=
    silent_of_sockets
  cases step_cases h with
  | reconcile => exact hsilent hwf (hfields (fun kind => by cases kind <;> rfl) rfl rfl rfl)
  | reconcileLate => exact inStep
  | @discovered hosts =>
      exact hsilent hwf ((hfields (q := { p with pendingReconciles := p.pendingReconciles - 1 })
        (fun kind => by cases kind <;> rfl) rfl rfl rfl).trans
          (silent_reconcileConnections env _ hosts))
  | discoveryFailed => exact hsilent hwf (hfields (fun kind => by cases kind <;> rfl) rfl rfl rfl)
  | socketOpened hget hstate => exact inStep.socketOpened hget hstate hwf
  | socketClosing => exact hsilent hwf (silent_setReadyState (by simp [ReadyState.Live]))
  | socketClosed =>
      exact hsilent hwf ((silent_setReadyState (by simp [ReadyState.Live])).trans
        (silent_scheduleReconnect _ _))
  | @delivered s => exact hsilent hwf (silent_arrive p s)
  | @timerFired t timer =>
      exact hsilent hwf ((hfields (q := clearTimer p t) (fun kind => by cases kind <;> rfl)
        rfl rfl rfl).trans (silent_connectWebSocket env _ timer.conn))
  | moduleDestroyed => exact hsilent hwf (silent_onModuleDestroy p)
  | @subscribed kind key => exact inStep.subscribeTo kind key
  | @returned i viewer => exact inStep.iteratorReturn i viewer
  | thrown => exact hsilent hwf (hfields (fun kind => by cases kind <;> rfl) rfl rfl rfl)

theorem inStep_init : InStep init := by
  refine ⟨wellFormed_init, fun kind key => ?_, ?_, ?_⟩
  · cases kind <;> exact fun h => by cases h
  · simp [init]
  · simp [init]

/-- In every reachable state and on every open socket of a listed connection, what was sent
since it opened leaves a fresh manager with the counted container ids that Docker knew when
their request was handled, and with the counted service names; the empty name is refused. -/
theorem upstream_agrees (env : Env) {es : List Event} {p : Proxy}
    (hrun : run (step env) init es = some p) {host : String} {c s : Nat} {sock : Socket}
    (hlisted : p.connections.get host = some c) (hws : p.WsOf c s)
    (hget : p.sockets.get s = some sock) (hopen : sock.readyState = .opened)
    (containerExists : Nat → String → Bool) :
    (∀ id, id ∈ (received containerExists sock.sent).subs.keys ↔
        id ≠ "" ∧ id ∈ p.activeSubscriptions.keys ∧
          ∃ i, standing .container id sock.sent = some i ∧ containerExists i id = true) ∧
      ∀ name, name ∈ (received containerExists sock.sent).serviceSubs.keys ↔
        name ≠ "" ∧ name ∈ p.activeServiceSubscriptions.keys := by
  have inStep := run_invariant (fun _ _ _ => InStep.step) inStep_init hrun
  obtain ⟨rs, hs⟩ := inStep.wf.ws_owner c s hws
  obtain ⟨rfl, _⟩ := Owns.unique hs ⟨sock, hget, rfl, rfl⟩
  have hserved := inStep.served host s sock hget hopen hlisted
  refine ⟨fun id => ?_, hserved.services containerExists⟩
  rw [hserved.containers]
  constructor
  · rintro ⟨hid, i, hi, hexists⟩
    exact ⟨hid, (hserved.standing .container id).mp (by rw [hi]; rfl), i, hi, hexists⟩
  · rintro ⟨hid, _, i, hi, hexists⟩
    exact ⟨hid, i, hi, hexists⟩

/-- A socket that opens between two viewers, the first of which leaves. -/
def joined : List Event :=
  [.reconcile, .discovered ["10.0.0.5"], .subscribed .container "web", .socketOpened 0,
    .subscribed .service "api", .subscribed .container "db", .returned 0]

theorem upstream_agrees_joined : ∃ p sock, run (step ⟨4003, fun _ => true⟩) init joined = some p ∧
    p.sockets.get 0 = some sock ∧ sock.sent = [.subscribe "web", .subscribeService "api",
      .subscribe "db", .unsubscribe "web"] ∧
    (∀ id, id ∈ (received (fun _ _ => true) sock.sent).subs.keys ↔
      id ≠ "" ∧ id ∈ p.activeSubscriptions.keys ∧
        ∃ i, standing .container id sock.sent = some i ∧ true = true) ∧
    ∀ name, name ∈ (received (fun _ _ => true) sock.sent).serviceSubs.keys ↔
      name ≠ "" ∧ name ∈ p.activeServiceSubscriptions.keys :=
  ⟨_, _, rfl, rfl, rfl, @upstream_agrees ⟨4003, fun _ => true⟩ joined _ rfl
    "10.0.0.5" 0 _ _ rfl ⟨_, rfl, rfl⟩ rfl rfl fun _ _ => true⟩

/-- A viewer of the service with the empty name is counted, and its request is refused. -/
theorem emptyName_refused : ∃ p sock,
    run (step ⟨4003, fun _ => true⟩) init [.reconcile, .discovered ["10.0.0.5"], .socketOpened 0,
      .subscribed .service ""] = some p ∧
    p.connections.get "10.0.0.5" = some 0 ∧ p.WsOf 0 0 ∧ p.sockets.get 0 = some sock ∧
    sock.readyState = .opened ∧ "" ∈ p.activeServiceSubscriptions.keys ∧
    ∀ containerExists, "" ∉ (received containerExists sock.sent).serviceSubs.keys :=
  ⟨_, _, rfl, rfl, ⟨_, rfl, rfl⟩, rfl, rfl, by decide, fun _ => List.not_mem_nil⟩

end NestGateway.LogProxy
