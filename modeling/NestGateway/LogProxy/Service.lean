import Mathlib.Algebra.Ring.Nat
import NestGateway.Core.Heap
import NestGateway.Core.JsMap
import NestGateway.Core.Runs

/-! # The log-streamer proxy of the gateway

`LogStreamerProxyService` keeps one connection object for every log-streamer
host that DNS lists, reconnects its socket with a growing delay, counts the
viewers of every container and service, and tells the log-streamers which
streams are wanted. The service runs on one thread: a step is what runs between
two awaits, or one callback of a socket or a timer.
-/

namespace NestGateway.LogProxy

/-! ## State -/

inductive ReadyState where
  | connecting
  | opened
  | closing
  | closed
  deriving Repr, DecidableEq

inductive Request where
  | subscribe (containerId : String)
  | unsubscribe (containerId : String)
  | subscribeService (serviceName : String)
  | unsubscribeService (serviceName : String)
  deriving Repr, DecidableEq

/-- A `WebSocket`: the connection whose handlers it runs, and what was sent on it. -/
structure Socket where
  owner : Nat
  readyState : ReadyState
  sent : List Request
  /-- How many of the sent requests have arrived. -/
  delivered : Nat
  deriving Repr, DecidableEq

structure Timer where
  conn : Nat
  delay : Nat
  pending : Bool
  deriving Repr, DecidableEq

/-- `LogStreamerConnection` -/
structure Connection where
  host : String
  ws : Option Nat := none
  reconnectTimeout : Option Nat := none
  reconnectAttempts : Nat := 0
  deriving Repr, DecidableEq

inductive Kind where
  | container
  | service
  deriving Repr, DecidableEq

/-- An iterator returned to a viewer, and whether `return` or `throw` has ended it. -/
structure Viewer where
  kind : Kind
  key : String
  ended : Bool
  deriving Repr, DecidableEq

structure Proxy where
  connections : JsMap String Nat
  conns : Heap Connection
  sockets : Heap Socket
  timers : Heap Timer
  /-- The calls of `reconcileConnections` that await their hosts. -/
  pendingReconciles : Nat
  isShuttingDown : Bool
  activeSubscriptions : JsMap String Nat
  activeServiceSubscriptions : JsMap String Nat
  viewers : Heap Viewer
  broadcasts : List Request

def init : Proxy where
  connections := JsMap.empty
  conns := Heap.empty
  sockets := Heap.empty
  timers := Heap.empty
  pendingReconciles := 0
  isShuttingDown := false
  activeSubscriptions := JsMap.empty
  activeServiceSubscriptions := JsMap.empty
  viewers := Heap.empty
  broadcasts := []

/-- The port of the log-streamers, and the URLs that the `WebSocket` constructor takes. -/
structure Env where
  port : Nat
  acceptsUrl : String → Bool

def wsUrl (env : Env) (host : String) : String :=
  "ws://" ++ host ++ ":" ++ Nat.repr env.port ++ "/ws/logs"

/-! ## Connections -/

def baseReconnectMs : Nat := 1000

def maxReconnectMs : Nat := 30000

/-- `conn.reconnectTimeout = setTimeout(.., delay)` -/
def startTimer (p : Proxy) (c attempts delay : Nat) : Proxy :=
  { p with
    timers := p.timers.alloc ⟨c, delay, true⟩
    conns := p.conns.modify c fun conn =>
      { conn with reconnectAttempts := attempts, reconnectTimeout := some p.timers.size } }

def scheduleReconnect (p : Proxy) (c : Nat) : Proxy :=
  match p.conns.get c with
  | none => p
  | some conn =>
      if p.isShuttingDown then p
      else if !p.connections.has conn.host then p
      else
        let attempts := conn.reconnectAttempts + 1
        let delay := min (baseReconnectMs * 2 ^ (attempts - 1)) maxReconnectMs
        startTimer p c attempts delay

/-- `conn.ws = new WebSocket(..)` -/
def newSocket (p : Proxy) (c : Nat) : Proxy :=
  { p with
    sockets := p.sockets.alloc ⟨c, .connecting, [], 0⟩
    conns := p.conns.modify c fun conn => { conn with ws := some p.sockets.size } }

def connectWebSocket (env : Env) (p : Proxy) (c : Nat) : Proxy :=
  match p.conns.get c with
  | none => p
  | some conn =>
      if p.isShuttingDown then p
      else if env.acceptsUrl (wsUrl env conn.host) then newSocket p c
      else scheduleReconnect p c

/-- `WebSocket.close`: a closing handshake, unless one is under way or over. -/
def ReadyState.close : ReadyState → ReadyState
  | .connecting => .closing
  | .opened => .closing
  | .closing => .closing
  | .closed => .closed

def Socket.close (sock : Socket) : Socket := { sock with readyState := sock.readyState.close }

def Timer.clear (timer : Timer) : Timer := { timer with pending := false }

def closeConnection (p : Proxy) (c : Nat) : Proxy :=
  match p.conns.get c with
  | none => p
  | some conn =>
      { p with
        timers := p.timers.modifyOpt conn.reconnectTimeout Timer.clear
        sockets := p.sockets.modifyOpt conn.ws Socket.close
        conns := p.conns.modify c fun conn => { conn with reconnectTimeout := none, ws := none } }

def removeConnection (p : Proxy) (host : String) : Proxy :=
  match p.connections.get host with
  | none => p
  | some c => { closeConnection p c with connections := p.connections.delete host }

/-- `this.connections.set(host, new LogStreamerConnection(..))` -/
def listConnection (p : Proxy) (host : String) : Proxy :=
  { p with
    conns := p.conns.alloc { host }
    connections := p.connections.set host p.conns.size }

def addConnection (env : Env) (p : Proxy) (host : String) : Proxy :=
  connectWebSocket env (listConnection p host) p.conns.size

/-- `new Set(hosts)` -/
def hostSet (hosts : List String) : JsMap String Unit :=
  hosts.foldl (fun set host => set.set host ()) JsMap.empty

/-- The rest of `reconcileConnections` once the hosts are known. -/
def reconcileConnections (env : Env) (p : Proxy) (hosts : List String) : Proxy :=
  let currentHosts := p.connections.keys
  let discoveredHosts := (hostSet hosts).keys
  let stale := currentHosts.filter (· ∉ discoveredHosts)
  let fresh := discoveredHosts.filter (· ∉ currentHosts)
  fresh.foldl (addConnection env) (stale.foldl removeConnection p)

def onModuleDestroy (p : Proxy) : Proxy :=
  { p.connections.values.foldl closeConnection { p with isShuttingDown := true } with
    connections := JsMap.empty }

/-- `WebSocket.send`, on a socket that is open. -/
def Socket.send (requests : List Request) (sock : Socket) : Socket :=
  if sock.readyState = .opened then { sock with sent := sock.sent ++ requests } else sock

def sendOn (p : Proxy) (requests : List Request) (c : Nat) : Proxy :=
  match (p.conns.get c).bind (·.ws) with
  | none => p
  | some s => { p with sockets := p.sockets.modify s (Socket.send requests) }

def broadcastToAll (p : Proxy) (request : Request) : Proxy :=
  { p.connections.values.foldl (sendOn · [request]) p with
    broadcasts := p.broadcasts ++ [request] }

/-- The requests of the open handler. -/
def resubscriptions (p : Proxy) : List Request :=
  p.activeSubscriptions.keys.map .subscribe ++
    p.activeServiceSubscriptions.keys.map .subscribeService

def onOpen (p : Proxy) (c : Nat) : Proxy :=
  sendOn { p with conns := p.conns.modify c fun conn => { conn with reconnectAttempts := 0 } }
    (resubscriptions p) c

/-- The new counts, and whether the key is new. -/
def retainSubscription (subscriptions : JsMap String Nat) (key : String) :
    JsMap String Nat × Bool :=
  let nextCount := (subscriptions.get key).getD 0 + 1
  (subscriptions.set key nextCount, nextCount == 1)

/-- The new counts, and whether the key is gone. -/
def releaseSubscription (subscriptions : JsMap String Nat) (key : String) :
    JsMap String Nat × Bool :=
  match subscriptions.get key with
  | none => (subscriptions, false)
  | some 0 => (subscriptions, false)
  | some 1 => (subscriptions.delete key, true)
  | some (n + 2) => (subscriptions.set key (n + 1), false)

def Proxy.counts (p : Proxy) : Kind → JsMap String Nat
  | .container => p.activeSubscriptions
  | .service => p.activeServiceSubscriptions

def Proxy.setCounts (p : Proxy) (kind : Kind) (counts : JsMap String Nat) : Proxy :=
  match kind with
  | .container => { p with activeSubscriptions := counts }
  | .service => { p with activeServiceSubscriptions := counts }

def subscribeRequest : Kind → String → Request
  | .container => .subscribe
  | .service => .subscribeService

def unsubscribeRequest : Kind → String → Request
  | .container => .unsubscribe
  | .service => .unsubscribeService

def broadcastIf (wanted : Bool) (p : Proxy) (request : Request) : Proxy :=
  if wanted then broadcastToAll p request else p

def addViewer (p : Proxy) (viewer : Viewer) : Proxy :=
  { p with viewers := p.viewers.alloc viewer }

def finishViewer (p : Proxy) (i : Nat) : Proxy :=
  { p with viewers := p.viewers.modify i fun viewer => { viewer with ended := true } }

/-- What a subscription does once Redis has confirmed it: count the viewer, ask the
log-streamers if it is the first, and return its iterator. -/
def subscribeTo (kind : Kind) (p : Proxy) (key : String) : Proxy :=
  let (counts, shouldSubscribeUpstream) := retainSubscription (p.counts kind) key
  addViewer
    (broadcastIf shouldSubscribeUpstream (p.setCounts kind counts) (subscribeRequest kind key))
    ⟨kind, key, false⟩

def subscribeToLogs : Proxy → String → Proxy := subscribeTo .container

def subscribeToServiceLogs : Proxy → String → Proxy := subscribeTo .service

/-- The wrapper's `return`. -/
def iteratorReturn (p : Proxy) (i : Nat) (viewer : Viewer) : Proxy :=
  let (counts, shouldUnsubscribeUpstream) :=
    releaseSubscription (p.counts viewer.kind) viewer.key
  finishViewer
    (broadcastIf shouldUnsubscribeUpstream (p.setCounts viewer.kind counts)
      (unsubscribeRequest viewer.kind viewer.key))
    i

/-- The wrapper's `throw` is the iterator's own: it ends the iterator and nothing else. -/
def iteratorThrow (p : Proxy) (i : Nat) : Proxy := finishViewer p i

/-! ## Steps -/

inductive Event where
  /-- `reconcileConnections` is called. -/
  | reconcile
  | discovered (hosts : List String)
  | discoveryFailed
  | socketOpened (s : Nat)
  /-- The other side begins to close. -/
  | socketClosing (s : Nat)
  | socketClosed (s : Nat)
  /-- A request arrives at the log-streamer. -/
  | delivered (s : Nat)
  | timerFired (t : Nat)
  | moduleDestroyed
  | subscribed (kind : Kind) (key : String)
  | returned (i : Nat)
  | thrown (i : Nat)
  deriving Repr, DecidableEq

def clearTimer (p : Proxy) (t : Nat) : Proxy :=
  { p with timers := p.timers.modify t Timer.clear }

def arrive (p : Proxy) (s : Nat) : Proxy :=
  { p with
    sockets := p.sockets.modify s fun sock => { sock with delivered := sock.delivered + 1 } }

def setReadyState (p : Proxy) (s : Nat) (readyState : ReadyState) : Proxy :=
  { p with sockets := p.sockets.modify s fun sock => { sock with readyState } }

def step (env : Env) (p : Proxy) : Event → Option Proxy
  | .reconcile =>
      some (if p.isShuttingDown then p
        else { p with pendingReconciles := p.pendingReconciles + 1 })
  | .discovered hosts =>
      if p.pendingReconciles = 0 then none
      else
        some
          (reconcileConnections env { p with pendingReconciles := p.pendingReconciles - 1 } hosts)
  | .discoveryFailed =>
      if p.pendingReconciles = 0 then none
      else some { p with pendingReconciles := p.pendingReconciles - 1 }
  | .socketOpened s =>
      match p.sockets.get s with
      | none => none
      | some sock =>
          if sock.readyState = .connecting then
            some (onOpen (setReadyState p s .opened) sock.owner)
          else none
  | .socketClosing s =>
      match p.sockets.get s with
      | none => none
      | some sock =>
          if sock.readyState = .connecting ∨ sock.readyState = .opened then
            some (setReadyState p s .closing)
          else none
  | .socketClosed s =>
      match p.sockets.get s with
      | none => none
      | some sock =>
          if sock.readyState = .closed then none
          else some (scheduleReconnect (setReadyState p s .closed) sock.owner)
  | .delivered s =>
      match p.sockets.get s with
      | none => none
      | some sock =>
          if sock.delivered < sock.sent.length then some (arrive p s) else none
  | .timerFired t =>
      match p.timers.get t with
      | none => none
      | some timer =>
          if timer.pending then some (connectWebSocket env (clearTimer p t) timer.conn) else none
  | .moduleDestroyed => some (onModuleDestroy p)
  | .subscribed .container key => some (subscribeToLogs p key)
  | .subscribed .service key => some (subscribeToServiceLogs p key)
  | .returned i =>
      match p.viewers.get i with
      | none => none
      | some viewer => some (iteratorReturn p i viewer)
  | .thrown i =>
      match p.viewers.get i with
      | none => none
      | some _ => some (iteratorThrow p i)

/-! ## What a step can do -/

inductive Steps (env : Env) (p : Proxy) : Event → Proxy → Prop
  | reconcile : p.isShuttingDown = false →
      Steps env p .reconcile { p with pendingReconciles := p.pendingReconciles + 1 }
  | reconcileLate : p.isShuttingDown = true → Steps env p .reconcile p
  | discovered {hosts : List String} : p.pendingReconciles ≠ 0 →
      Steps env p (.discovered hosts)
        (reconcileConnections env { p with pendingReconciles := p.pendingReconciles - 1 } hosts)
  | discoveryFailed : p.pendingReconciles ≠ 0 →
      Steps env p .discoveryFailed { p with pendingReconciles := p.pendingReconciles - 1 }
  | socketOpened {s : Nat} {sock : Socket} : p.sockets.get s = some sock →
      sock.readyState = .connecting →
      Steps env p (.socketOpened s) (onOpen (setReadyState p s .opened) sock.owner)
  | socketClosing {s : Nat} {sock : Socket} : p.sockets.get s = some sock →
      sock.readyState = .connecting ∨ sock.readyState = .opened →
      Steps env p (.socketClosing s) (setReadyState p s .closing)
  | socketClosed {s : Nat} {sock : Socket} : p.sockets.get s = some sock →
      sock.readyState ≠ .closed →
      Steps env p (.socketClosed s) (scheduleReconnect (setReadyState p s .closed) sock.owner)
  | delivered {s : Nat} {sock : Socket} : p.sockets.get s = some sock →
      sock.delivered < sock.sent.length → Steps env p (.delivered s) (arrive p s)
  | timerFired {t : Nat} {timer : Timer} : p.timers.get t = some timer → timer.pending = true →
      Steps env p (.timerFired t) (connectWebSocket env (clearTimer p t) timer.conn)
  | moduleDestroyed : Steps env p .moduleDestroyed (onModuleDestroy p)
  | subscribed {kind : Kind} {key : String} :
      Steps env p (.subscribed kind key) (subscribeTo kind p key)
  | returned {i : Nat} {viewer : Viewer} : p.viewers.get i = some viewer →
      Steps env p (.returned i) (iteratorReturn p i viewer)
  | thrown {i : Nat} {viewer : Viewer} : p.viewers.get i = some viewer →
      Steps env p (.thrown i) (iteratorThrow p i)

theorem step_cases {env : Env} {p p' : Proxy} {e : Event} (h : step env p e = some p') :
    Steps env p e p' := by
  cases e with
  | reconcile =>
      obtain rfl := Option.some.inj h
      split
      next hdown => exact .reconcileLate hdown
      next hup => exact .reconcile (by simpa using hup)
  | discovered hosts =>
      rw [step] at h
      split at h
      next => cases h
      next hne => exact Option.some.inj h ▸ .discovered hne
  | discoveryFailed =>
      rw [step] at h
      split at h
      next => cases h
      next hne => exact Option.some.inj h ▸ .discoveryFailed hne
  | socketOpened s =>
      rw [step] at h
      split at h
      next => cases h
      next sock hget =>
        split at h
        next hstate => exact Option.some.inj h ▸ .socketOpened hget hstate
        next => cases h
  | socketClosing s =>
      rw [step] at h
      split at h
      next => cases h
      next sock hget =>
        split at h
        next hstate => exact Option.some.inj h ▸ .socketClosing hget hstate
        next => cases h
  | socketClosed s =>
      rw [step] at h
      split at h
      next => cases h
      next sock hget =>
        split at h
        next => cases h
        next hopen => exact Option.some.inj h ▸ .socketClosed hget hopen
  | delivered s =>
      rw [step] at h
      split at h
      next => cases h
      next sock hget =>
        split at h
        next hlt => exact Option.some.inj h ▸ .delivered hget hlt
        next => cases h
  | timerFired t =>
      rw [step] at h
      split at h
      next => cases h
      next timer hget =>
        split at h
        next hpending => exact Option.some.inj h ▸ .timerFired hget hpending
        next => cases h
  | moduleDestroyed => exact Option.some.inj h ▸ .moduleDestroyed
  | subscribed kind key => cases kind <;> exact Option.some.inj h ▸ .subscribed
  | returned i =>
      rw [step] at h
      split at h
      next => cases h
      next viewer hget => exact Option.some.inj h ▸ .returned hget
  | thrown i =>
      rw [step] at h
      split at h
      next => cases h
      next viewer hget => exact Option.some.inj h ▸ .thrown hget

end NestGateway.LogProxy
