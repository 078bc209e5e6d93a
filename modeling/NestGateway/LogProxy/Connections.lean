import NestGateway.LogProxy.Service

/-! # Sockets and timers belong to listed connections

A connection object has at most one socket that is not closed or one pending
timer, and its fields refer to them. So long as no socket that was given up
reports its close after its host has been listed again, every live socket and
every pending timer belongs to a connection that is in the map.
-/

namespace NestGateway.LogProxy

open Runs

/-- Socket `s` belongs to connection `c` and is in state `rs`. -/
def Proxy.Owns (p : Proxy) (c s : Nat) (rs : ReadyState) : Prop :=
  ∃ sock, p.sockets.get s = some sock ∧ sock.owner = c ∧ sock.readyState = rs

/-- Timer `t` is pending for connection `c`. -/
def Proxy.Armed (p : Proxy) (c t : Nat) : Prop :=
  ∃ timer, p.timers.get t = some timer ∧ timer.conn = c ∧ timer.pending = true

def Proxy.HostOf (p : Proxy) (c : Nat) (host : String) : Prop :=
  ∃ conn, p.conns.get c = some conn ∧ conn.host = host

def Proxy.WsOf (p : Proxy) (c s : Nat) : Prop :=
  ∃ conn, p.conns.get c = some conn ∧ conn.ws = some s

def Proxy.TimeoutOf (p : Proxy) (c t : Nat) : Prop :=
  ∃ conn, p.conns.get c = some conn ∧ conn.reconnectTimeout = some t

def ReadyState.Live (rs : ReadyState) : Prop := rs = .connecting ∨ rs = .opened

structure WellFormed (p : Proxy) : Prop where
  mapped : ∀ host c, p.connections.get host = some c → p.HostOf c host
  owner : ∀ c s rs, p.Owns c s rs → c < p.conns.size
  timer_owner : ∀ c t, p.Armed c t → c < p.conns.size
  held : ∀ c s rs, p.Owns c s rs → rs.Live → p.WsOf c s
  armed : ∀ c t, p.Armed c t → p.TimeoutOf c t
  one_socket : ∀ c s s' rs rs', p.Owns c s rs → p.Owns c s' rs' → rs ≠ .closed → rs' ≠ .closed →
    s = s'
  socket_or_timer : ∀ c s rs t, p.Owns c s rs → rs ≠ .closed → ¬ p.Armed c t
  ws_owner : ∀ c s, p.WsOf c s → ∃ rs, p.Owns c s rs

/-- A connection with neither an unclosed socket nor a pending timer. -/
structure Idle (p : Proxy) (c : Nat) : Prop where
  sockets : ∀ s rs, p.Owns c s rs → rs = .closed
  timers : ∀ t, ¬ p.Armed c t

/-- Every live socket and every pending timer belongs to a listed connection. -/
structure Current (p : Proxy) : Prop where
  sockets : ∀ c s rs, p.Owns c s rs → rs.Live → ∃ host, p.connections.get host = some c
  timers : ∀ c t, p.Armed c t → ∃ host, p.connections.get host = some c

theorem HostOf.unique {p : Proxy} {c : Nat} {host host' : String} (h : p.HostOf c host)
    (h' : p.HostOf c host') : host = host' := by
  obtain ⟨conn, hconn, rfl⟩ := h
  obtain ⟨conn', hconn', rfl⟩ := h'
  rw [Option.some.inj (hconn.symm.trans hconn')]

theorem WsOf.unique {p : Proxy} {c s s' : Nat} (h : p.WsOf c s) (h' : p.WsOf c s') : s = s' := by
  obtain ⟨conn, hconn, hws⟩ := h
  obtain ⟨conn', hconn', hws'⟩ := h'
  rw [← Option.some.inj (hconn.symm.trans hconn')] at hws'
  exact Option.some.inj (hws.symm.trans hws')

theorem TimeoutOf.unique {p : Proxy} {c t t' : Nat} (h : p.TimeoutOf c t)
    (h' : p.TimeoutOf c t') : t = t' := by
  obtain ⟨conn, hconn, ht⟩ := h
  obtain ⟨conn', hconn', ht'⟩ := h'
  rw [← Option.some.inj (hconn.symm.trans hconn')] at ht'
  exact Option.some.inj (ht.symm.trans ht')

theorem Owns.unique {p : Proxy} {c c' s : Nat} {rs rs' : ReadyState} (h : p.Owns c s rs)
    (h' : p.Owns c' s rs') : c = c' ∧ rs = rs' := by
  obtain ⟨sock, hsock, rfl, rfl⟩ := h
  obtain ⟨sock', hsock', rfl, rfl⟩ := h'
  rw [Option.some.inj (hsock.symm.trans hsock')]
  exact ⟨rfl, rfl⟩

/-! ## Steps that leave the connections alone -/

/-- Two states with the same connections, sockets and timers, up to what was sent. -/
structure SameLines (p p' : Proxy) : Prop where
  connections : p'.connections = p.connections
  shutdown : p'.isShuttingDown = p.isShuttingDown
  size : p'.conns.size = p.conns.size
  socketCount : p'.sockets.size = p.sockets.size
  owns : ∀ c s rs, p'.Owns c s rs ↔ p.Owns c s rs
  armed : ∀ c t, p'.Armed c t ↔ p.Armed c t
  hostOf : ∀ c host, p'.HostOf c host ↔ p.HostOf c host
  wsOf : ∀ c s, p'.WsOf c s ↔ p.WsOf c s
  timeoutOf : ∀ c t, p'.TimeoutOf c t ↔ p.TimeoutOf c t

theorem SameLines.refl (p : Proxy) : SameLines p p :=
  ⟨rfl, rfl, rfl, rfl, fun _ _ _ => Iff.rfl, fun _ _ => Iff.rfl, fun _ _ => Iff.rfl,
    fun _ _ => Iff.rfl, fun _ _ => Iff.rfl⟩

theorem SameLines.trans {p q r : Proxy} (h : SameLines p q) (h' : SameLines q r) :
    SameLines p r where
  connections := h'.connections.trans h.connections
  shutdown := h'.shutdown.trans h.shutdown
  size := h'.size.trans h.size
  socketCount := h'.socketCount.trans h.socketCount
  owns c s rs := (h'.owns c s rs).trans (h.owns c s rs)
  armed c t := (h'.armed c t).trans (h.armed c t)
  hostOf c host := (h'.hostOf c host).trans (h.hostOf c host)
  wsOf c s := (h'.wsOf c s).trans (h.wsOf c s)
  timeoutOf c t := (h'.timeoutOf c t).trans (h.timeoutOf c t)

theorem SameLines.wellFormed {p p' : Proxy} (h : SameLines p p') (wf : WellFormed p) :
    WellFormed p' := by
  constructor <;> simp only [h.connections, h.size, h.owns, h.armed, h.hostOf, h.wsOf, h.timeoutOf]
  · exact wf.mapped
  · exact wf.owner
  · exact wf.timer_owner
  · exact wf.held
  · exact wf.armed
  · exact wf.one_socket
  · exact wf.socket_or_timer
  · exact wf.ws_owner

theorem SameLines.current {p p' : Proxy} (h : SameLines p p') (current : Current p) :
    Current p' := by
  constructor <;> simp only [h.connections, h.owns, h.armed]
  · exact current.sockets
  · exact current.timers

theorem sameLines_of_fields {p p' : Proxy} (connections : p'.connections = p.connections)
    (shutdown : p'.isShuttingDown = p.isShuttingDown) (conns : p'.conns = p.conns)
    (sockets : p'.sockets = p.sockets) (timers : p'.timers = p.timers) : SameLines p p' := by
  constructor <;>
    simp only [connections, shutdown, conns, sockets, timers, Proxy.Owns, Proxy.Armed,
      Proxy.HostOf, Proxy.WsOf, Proxy.TimeoutOf, implies_true]

theorem sameLines_sockets (p : Proxy) (s : Nat) {f : Socket → Socket}
    (howner : ∀ sock, (f sock).owner = sock.owner)
    (hstate : ∀ sock, (f sock).readyState = sock.readyState) :
    SameLines p { p with sockets := p.sockets.modify s f } := by
  refine ⟨rfl, rfl, rfl, Heap.size_modify _ _ _, fun c s' rs => ?_, fun _ _ => Iff.rfl,
    fun _ _ => Iff.rfl, fun _ _ => Iff.rfl, fun _ _ => Iff.rfl⟩
  simp only [Proxy.Owns, Heap.get_modify]
  by_cases hs : s' = s
  · subst hs
    cases p.sockets.get s' with
    | none => simp
    | some sock => simp [howner, hstate]
  · simp only [hs, if_false]

theorem sameLines_conns (p : Proxy) (c : Nat) {f : Connection → Connection}
    (hhost : ∀ conn, (f conn).host = conn.host) (hws : ∀ conn, (f conn).ws = conn.ws)
    (htimeout : ∀ conn, (f conn).reconnectTimeout = conn.reconnectTimeout) :
    SameLines p { p with conns := p.conns.modify c f } := by
  refine ⟨rfl, rfl, Heap.size_modify _ _ _, rfl, fun _ _ _ => Iff.rfl, fun _ _ => Iff.rfl,
    fun c' _ => ?_, fun c' _ => ?_, fun c' _ => ?_⟩ <;>
  · simp only [Proxy.HostOf, Proxy.WsOf, Proxy.TimeoutOf, Heap.get_modify]
    by_cases hc : c' = c
    · subst hc
      cases p.conns.get c' with
      | none => simp
      | some conn => simp [hhost, hws, htimeout]
    · simp only [hc, if_false]

theorem sameLines_sendOn (p : Proxy) (requests : List Request) (c : Nat) :
    SameLines p (sendOn p requests c) := by
  rw [sendOn]
  cases (p.conns.get c).bind (·.ws) with
  | none => exact SameLines.refl p
  | some s =>
      apply sameLines_sockets <;>
      · intro sock
        rw [Socket.send]
        split <;> rfl

theorem sameLines_broadcast (p : Proxy) (request : Request) :
    SameLines p (broadcastToAll p request) := by
  have hfold : ∀ (conns : List Nat) (q : Proxy),
      SameLines q (conns.foldl (sendOn · [request]) q) := by
    intro conns
    induction conns with
    | nil => exact SameLines.refl
    | cons c conns ih => exact fun q => (sameLines_sendOn q [request] c).trans (ih _)
  exact (hfold p.connections.values p).trans (sameLines_of_fields rfl rfl rfl rfl rfl)

theorem sameLines_setCounts (p : Proxy) (kind : Kind) (counts : JsMap String Nat) :
    SameLines p (p.setCounts kind counts) := by
  cases kind <;> exact sameLines_of_fields rfl rfl rfl rfl rfl

theorem sameLines_broadcastIf (wanted : Bool) (p : Proxy) (request : Request) :
    SameLines p (broadcastIf wanted p request) := by
  cases wanted with
  | false => exact SameLines.refl p
  | true => exact sameLines_broadcast p request

theorem sameLines_subscribeTo (kind : Kind) (p : Proxy) (key : String) :
    SameLines p (subscribeTo kind p key) :=
  ((sameLines_setCounts p kind _).trans (sameLines_broadcastIf _ _ _)).trans
    (sameLines_of_fields rfl rfl rfl rfl rfl)

theorem sameLines_iteratorReturn (p : Proxy) (i : Nat) (viewer : Viewer) :
    SameLines p (iteratorReturn p i viewer) :=
  ((sameLines_setCounts p viewer.kind _).trans (sameLines_broadcastIf _ _ _)).trans
    (sameLines_of_fields rfl rfl rfl rfl rfl)

theorem sameLines_onOpen (p : Proxy) (c : Nat) : SameLines p (onOpen p c) :=
  SameLines.trans (sameLines_conns p c (f := fun conn => { conn with reconnectAttempts := 0 })
    (fun _ => rfl) (fun _ => rfl) fun _ => rfl) (sameLines_sendOn _ _ c)

/-! ## Timers and sockets -/

theorem owns_newSocket {p : Proxy} {c c' s : Nat} {rs : ReadyState} :
    (newSocket p c).Owns c' s rs ↔
      (s = p.sockets.size ∧ c' = c ∧ rs = .connecting) ∨ p.Owns c' s rs := by
  simp only [Proxy.Owns, newSocket, Heap.get_alloc]
  by_cases hs : s = p.sockets.size
  · subst hs
    simp [Heap.get_size, eq_comm]
  · simp [hs]

theorem wsOf_newSocket {p : Proxy} {c c' s : Nat} (hc : c < p.conns.size) :
    (newSocket p c).WsOf c' s ↔ if c' = c then s = p.sockets.size else p.WsOf c' s := by
  obtain ⟨conn, hconn⟩ := Heap.get_of_lt hc
  simp only [Proxy.WsOf, newSocket, Heap.get_modify]
  by_cases h : c' = c
  · simp [h, hconn, eq_comm]
  · simp [h]

theorem hostOf_newSocket {p : Proxy} {c c' : Nat} {host : String} :
    (newSocket p c).HostOf c' host ↔ p.HostOf c' host := by
  simp only [Proxy.HostOf, newSocket, Heap.get_modify]
  by_cases h : c' = c
  · subst h
    cases p.conns.get c' <;> simp
  · simp [h]

theorem timeoutOf_newSocket {p : Proxy} {c c' t : Nat} :
    (newSocket p c).TimeoutOf c' t ↔ p.TimeoutOf c' t := by
  simp only [Proxy.TimeoutOf, newSocket, Heap.get_modify]
  by_cases h : c' = c
  · subst h
    cases p.conns.get c' <;> simp
  · simp [h]

theorem WellFormed.newSocket {p : Proxy} {c : Nat} (wf : WellFormed p) (hc : c < p.conns.size)
    (idle : Idle p c) : WellFormed (newSocket p c) := by
  have hsize : (LogProxy.newSocket p c).conns.size = p.conns.size := Heap.size_modify _ _ _
  have hnew : ∀ s rs, p.Owns c s rs → rs = .closed := idle.sockets
  have hfresh : ∀ c' rs, ¬ p.Owns c' p.sockets.size rs := by
    rintro c' rs ⟨sock, hsock, _⟩
    rw [Heap.get_size] at hsock
    cases hsock
  constructor
  · intro host c' hget
    exact hostOf_newSocket.mpr (wf.mapped host c' hget)
  · intro c' s rs hs
    rw [hsize]
    rcases owns_newSocket.mp hs with ⟨_, rfl, _⟩ | hold
    · exact hc
    · exact wf.owner c' s rs hold
  · intro c' t ht
    exact hsize ▸ wf.timer_owner c' t ht
  · intro c' s rs hs hlive
    rw [wsOf_newSocket hc]
    rcases owns_newSocket.mp hs with ⟨hid, rfl, _⟩ | hold
    · rw [if_pos rfl]
      exact hid
    · have hne : c' ≠ c := by
        rintro rfl
        have := hnew s rs hold
        rcases hlive with rfl | rfl <;> cases this
      rw [if_neg hne]
      exact wf.held c' s rs hold hlive
  · intro c' t ht
    exact timeoutOf_newSocket.mpr (wf.armed c' t ht)
  · intro c' s s' rs rs' hs hs' hrs hrs'
    rcases owns_newSocket.mp hs with ⟨rfl, rfl, _⟩ | hold
    · rcases owns_newSocket.mp hs' with ⟨rfl, _⟩ | hold'
      · rfl
      · exact absurd (hnew s' rs' hold') hrs'
    · rcases owns_newSocket.mp hs' with ⟨rfl, rfl, _⟩ | hold'
      · exact absurd (hnew s rs hold) hrs
      · exact wf.one_socket c' s s' rs rs' hold hold' hrs hrs'
  · intro c' s rs t hs hrs
    rcases owns_newSocket.mp hs with ⟨_, rfl, _⟩ | hold
    · exact idle.timers t
    · exact wf.socket_or_timer c' s rs t hold hrs
  · intro c' s hs
    rw [wsOf_newSocket hc] at hs
    split at hs
    next h => exact ⟨.connecting, owns_newSocket.mpr (Or.inl ⟨hs, h, rfl⟩)⟩
    next =>
      obtain ⟨rs, hold⟩ := wf.ws_owner c' s hs
      exact ⟨rs, owns_newSocket.mpr (Or.inr hold)⟩

theorem Current.newSocket {p : Proxy} {c : Nat} (current : Current p)
    (listed : ∃ host, p.connections.get host = some c) : Current (newSocket p c) where
  sockets c' s rs hs hlive := by
    rcases owns_newSocket.mp hs with ⟨_, rfl, _⟩ | hold
    · exact listed
    · exact current.sockets c' s rs hold hlive
  timers c' t ht := current.timers c' t ht

theorem armed_startTimer {p : Proxy} {c c' t n d : Nat} :
    (startTimer p c n d).Armed c' t ↔ (t = p.timers.size ∧ c' = c) ∨ p.Armed c' t := by
  simp only [Proxy.Armed, startTimer, Heap.get_alloc]
  by_cases ht : t = p.timers.size
  · subst ht
    simp only [if_true, Heap.get_size, true_and]
    constructor
    · rintro ⟨timer, htimer, rfl, _⟩
      exact Or.inl (Option.some.inj htimer ▸ rfl)
    · rintro (rfl | ⟨timer, htimer, _⟩)
      · exact ⟨_, rfl, rfl, rfl⟩
      · cases htimer
  · simp [ht]

theorem timeoutOf_startTimer {p : Proxy} {c c' t n d : Nat} (hc : c < p.conns.size) :
    (startTimer p c n d).TimeoutOf c' t ↔
      if c' = c then t = p.timers.size else p.TimeoutOf c' t := by
  obtain ⟨conn, hconn⟩ := Heap.get_of_lt hc
  simp only [Proxy.TimeoutOf, startTimer, Heap.get_modify]
  by_cases h : c' = c
  · simp [h, hconn, eq_comm]
  · simp [h]

theorem hostOf_startTimer {p : Proxy} {c c' n d : Nat} {host : String} :
    (startTimer p c n d).HostOf c' host ↔ p.HostOf c' host := by
  simp only [Proxy.HostOf, startTimer, Heap.get_modify]
  by_cases h : c' = c
  · subst h
    cases p.conns.get c' <;> simp
  · simp [h]

theorem wsOf_startTimer {p : Proxy} {c c' s n d : Nat} :
    (startTimer p c n d).WsOf c' s ↔ p.WsOf c' s := by
  simp only [Proxy.WsOf, startTimer, Heap.get_modify]
  by_cases h : c' = c
  · subst h
    cases p.conns.get c' <;> simp
  · simp [h]

theorem WellFormed.startTimer {p : Proxy} {c n d : Nat} (wf : WellFormed p)
    (hc : c < p.conns.size) (idle : Idle p c) : WellFormed (startTimer p c n d) := by
  have hsize : (LogProxy.startTimer p c n d).conns.size = p.conns.size := Heap.size_modify _ _ _
  constructor
  · intro host c' hget
    exact hostOf_startTimer.mpr (wf.mapped host c' hget)
  · intro c' s rs hs
    exact hsize ▸ wf.owner c' s rs hs
  · intro c' t ht
    rw [hsize]
    rcases armed_startTimer.mp ht with ⟨_, rfl⟩ | hold
    · exact hc
    · exact wf.timer_owner c' t hold
  · intro c' s rs hs hlive
    exact wsOf_startTimer.mpr (wf.held c' s rs hs hlive)
  · intro c' t ht
    rw [timeoutOf_startTimer hc]
    rcases armed_startTimer.mp ht with ⟨hid, rfl⟩ | hold
    · rw [if_pos rfl]
      exact hid
    · have hne : c' ≠ c := by
        rintro rfl
        exact idle.timers t hold
      rw [if_neg hne]
      exact wf.armed c' t hold
  · exact wf.one_socket
  · intro c' s rs t hs hrs ht
    rcases armed_startTimer.mp ht with ⟨_, rfl⟩ | hold
    · exact hrs (idle.sockets s rs hs)
    · exact wf.socket_or_timer c' s rs t hs hrs hold
  · intro c' s hs
    exact wf.ws_owner c' s (wsOf_startTimer.mp hs)

theorem Current.startTimer {p : Proxy} {c n d : Nat} (current : Current p)
    (listed : ∃ host, p.connections.get host = some c) : Current (startTimer p c n d) where
  sockets := current.sockets
  timers c' t ht := by
    rcases armed_startTimer.mp ht with ⟨_, rfl⟩ | hold
    · exact listed
    · exact current.timers c' t hold

/-! ## Reconnecting -/

/-- When `scheduleReconnect` sets a timer. -/
def Schedules (p : Proxy) (c : Nat) : Prop :=
  p.isShuttingDown = false ∧ ∃ host, p.HostOf c host ∧ p.connections.has host = true

theorem scheduleReconnect_cases (p : Proxy) (c : Nat) :
    (¬ Schedules p c ∧ scheduleReconnect p c = p) ∨
      (Schedules p c ∧ c < p.conns.size ∧ ∃ n d, scheduleReconnect p c = startTimer p c n d) := by
  rw [scheduleReconnect]
  cases hconn : p.conns.get c with
  | none =>
      refine Or.inl ⟨?_, rfl⟩
      rintro ⟨_, host, ⟨conn, hget, _⟩, _⟩
      rw [hconn] at hget
      cases hget
  | some conn =>
      have hhost : ∀ host, p.HostOf c host → host = conn.host := by
        rintro host ⟨conn', hget, rfl⟩
        rw [Option.some.inj (hget.symm.trans hconn)]
      dsimp only
      split
      next hdown => exact Or.inl ⟨fun h => by simp [h.1] at hdown, rfl⟩
      next hup =>
        split
        next hgone =>
          refine Or.inl ⟨?_, rfl⟩
          rintro ⟨_, host, hof, hhas⟩
          rw [hhost host hof] at hhas
          simp [hhas] at hgone
        next hhas =>
          refine Or.inr ⟨⟨by simpa using hup, conn.host, ⟨conn, hconn, rfl⟩, by simpa using hhas⟩,
            Heap.lt_size hconn, _, _, rfl⟩

theorem WellFormed.scheduleReconnect {p : Proxy} {c : Nat} (wf : WellFormed p)
    (idle : Idle p c) : WellFormed (scheduleReconnect p c) := by
  rcases scheduleReconnect_cases p c with ⟨_, heq⟩ | ⟨_, hc, n, d, heq⟩
  · rw [heq]
    exact wf
  · rw [heq]
    exact wf.startTimer hc idle

theorem Current.scheduleReconnect {p : Proxy} {c : Nat} (current : Current p)
    (listed : Schedules p c → ∃ host, p.connections.get host = some c) :
    Current (scheduleReconnect p c) := by
  rcases scheduleReconnect_cases p c with ⟨_, heq⟩ | ⟨hs, _, n, d, heq⟩
  · rw [heq]
    exact current
  · rw [heq]
    exact current.startTimer (listed hs)

theorem WellFormed.connectWebSocket {env : Env} {p : Proxy} {c : Nat} (wf : WellFormed p)
    (idle : Idle p c) : WellFormed (connectWebSocket env p c) := by
  rw [LogProxy.connectWebSocket]
  cases hconn : p.conns.get c with
  | none => exact wf
  | some conn =>
      dsimp only
      split
      · exact wf
      · split
        · exact wf.newSocket (Heap.lt_size hconn) idle
        · exact wf.scheduleReconnect idle

theorem Current.connectWebSocket {env : Env} {p : Proxy} {c : Nat} (current : Current p)
    (listed : ∃ host, p.connections.get host = some c) :
    Current (connectWebSocket env p c) := by
  rw [LogProxy.connectWebSocket]
  cases p.conns.get c with
  | none => exact current
  | some conn =>
      dsimp only
      split
      · exact current
      · split
        · exact current.newSocket listed
        · exact current.scheduleReconnect fun _ => listed

/-! ## Giving up a connection -/

theorem ReadyState.close_not_live (rs : ReadyState) : ¬ rs.close.Live := by
  cases rs <;> simp [ReadyState.close, ReadyState.Live]

theorem ReadyState.close_eq_closed {rs : ReadyState} (h : rs.close ≠ .closed) : rs ≠ .closed := by
  rintro rfl
  exact h rfl

theorem closeConnection_of_get {p : Proxy} {c : Nat} {conn : Connection}
    (h : p.conns.get c = some conn) : closeConnection p c =
      { p with
        timers := p.timers.modifyOpt conn.reconnectTimeout Timer.clear
        sockets := p.sockets.modifyOpt conn.ws Socket.close
        conns := p.conns.modify c fun conn =>
          { conn with reconnectTimeout := none, ws := none } } := by
  rw [closeConnection, h]

theorem closeConnection_of_none {p : Proxy} {c : Nat} (h : p.conns.get c = none) :
    closeConnection p c = p := by
  rw [closeConnection, h]

theorem wsOf_iff {p : Proxy} {c s : Nat} {conn : Connection} (h : p.conns.get c = some conn) :
    p.WsOf c s ↔ conn.ws = some s := by
  constructor
  · rintro ⟨conn', hget, hws⟩
    rwa [← Option.some.inj (hget.symm.trans h)]
  · exact fun hws => ⟨conn, h, hws⟩

theorem timeoutOf_iff {p : Proxy} {c t : Nat} {conn : Connection}
    (h : p.conns.get c = some conn) : p.TimeoutOf c t ↔ conn.reconnectTimeout = some t := by
  constructor
  · rintro ⟨conn', hget, ht⟩
    rwa [← Option.some.inj (hget.symm.trans h)]
  · exact fun ht => ⟨conn, h, ht⟩

theorem not_wsOf {p : Proxy} {c s : Nat} (h : p.conns.get c = none) : ¬ p.WsOf c s := by
  rintro ⟨conn, hget, _⟩
  rw [h] at hget
  cases hget

theorem not_timeoutOf {p : Proxy} {c t : Nat} (h : p.conns.get c = none) :
    ¬ p.TimeoutOf c t := by
  rintro ⟨conn, hget, _⟩
  rw [h] at hget
  cases hget

theorem owns_closeConnection {p : Proxy} {c c' s : Nat} {rs : ReadyState}
    (h : (closeConnection p c).Owns c' s rs) :
    ∃ rs', p.Owns c' s rs' ∧ (rs ≠ .closed → rs' ≠ .closed) ∧
      (rs.Live → rs'.Live ∧ ¬ p.WsOf c s) := by
  cases hconn : p.conns.get c with
  | none =>
      rw [closeConnection_of_none hconn] at h
      exact ⟨rs, h, id, fun hlive => ⟨hlive, not_wsOf hconn⟩⟩
  | some conn =>
      rw [closeConnection_of_get hconn] at h
      obtain ⟨sock, hsock, rfl, rfl⟩ := h
      rw [Heap.get_modifyOpt] at hsock
      rw [wsOf_iff hconn]
      split at hsock
      next hws =>
        obtain ⟨old, hold, rfl⟩ := Option.map_eq_some_iff.mp hsock
        exact ⟨old.readyState, ⟨old, hold, rfl, rfl⟩, ReadyState.close_eq_closed,
          fun hlive => absurd hlive old.readyState.close_not_live⟩
      next hws =>
        exact ⟨sock.readyState, ⟨sock, hsock, rfl, rfl⟩, id, fun hlive => ⟨hlive, hws⟩⟩

theorem owns_of_closeConnection {p : Proxy} {c c' s : Nat} {rs : ReadyState}
    (h : p.Owns c' s rs) : ∃ rs', (closeConnection p c).Owns c' s rs' := by
  cases hconn : p.conns.get c with
  | none => exact ⟨rs, (closeConnection_of_none hconn).symm ▸ h⟩
  | some conn =>
      rw [closeConnection_of_get hconn]
      obtain ⟨sock, hsock, rfl, rfl⟩ := h
      by_cases hws : conn.ws = some s
      · refine ⟨_, sock.close, ?_, rfl, rfl⟩
        rw [Heap.get_modifyOpt, if_pos hws, hsock]
        rfl
      · refine ⟨_, sock, ?_, rfl, rfl⟩
        rw [Heap.get_modifyOpt, if_neg hws, hsock]

theorem armed_closeConnection {p : Proxy} {c c' t : Nat}
    (h : (closeConnection p c).Armed c' t) : p.Armed c' t ∧ ¬ p.TimeoutOf c t := by
  cases hconn : p.conns.get c with
  | none =>
      rw [closeConnection_of_none hconn] at h
      exact ⟨h, not_timeoutOf hconn⟩
  | some conn =>
      rw [closeConnection_of_get hconn] at h
      obtain ⟨timer, htimer, rfl, hpending⟩ := h
      rw [Heap.get_modifyOpt] at htimer
      rw [timeoutOf_iff hconn]
      split at htimer
      next ht =>
        obtain ⟨old, _, rfl⟩ := Option.map_eq_some_iff.mp htimer
        cases hpending
      next ht => exact ⟨⟨timer, htimer, rfl, hpending⟩, ht⟩

theorem fields_closeConnection (p : Proxy) (c : Nat) :
    (closeConnection p c).connections = p.connections ∧
      (closeConnection p c).isShuttingDown = p.isShuttingDown ∧
      (closeConnection p c).conns.size = p.conns.size ∧
      (closeConnection p c).sockets.size = p.sockets.size ∧
      (∀ c' host, (closeConnection p c).HostOf c' host ↔ p.HostOf c' host) ∧
      (∀ c' s, (closeConnection p c).WsOf c' s ↔ c' ≠ c ∧ p.WsOf c' s) ∧
      ∀ c' t, (closeConnection p c).TimeoutOf c' t ↔ c' ≠ c ∧ p.TimeoutOf c' t := by
  cases hconn : p.conns.get c with
  | none =>
      rw [closeConnection_of_none hconn]
      refine ⟨rfl, rfl, rfl, rfl, fun _ _ => Iff.rfl, fun c' s => ?_, fun c' t => ?_⟩
      · refine ⟨fun h => ⟨?_, h⟩, fun h => h.2⟩
        rintro rfl
        exact not_wsOf hconn h
      · refine ⟨fun h => ⟨?_, h⟩, fun h => h.2⟩
        rintro rfl
        exact not_timeoutOf hconn h
  | some conn =>
      rw [closeConnection_of_get hconn]
      refine ⟨rfl, rfl, Heap.size_modify _ _ _, Heap.size_modifyOpt _ _ _, fun c' host => ?_,
        fun c' s => ?_, fun c' t => ?_⟩
      all_goals
        simp only [Proxy.HostOf, Proxy.WsOf, Proxy.TimeoutOf, Heap.get_modify]
        by_cases hc : c' = c
        · simp [hc, hconn]
        · simp [hc]

theorem WellFormed.closeConnection {p : Proxy} (wf : WellFormed p) (c : Nat) :
    WellFormed (closeConnection p c) := by
  obtain ⟨hmap, _, hsize, _, hhost, hws, htimeout⟩ := fields_closeConnection p c
  constructor
  · intro host c' hget
    exact (hhost c' host).mpr (wf.mapped host c' (hmap ▸ hget))
  · intro c' s rs hs
    obtain ⟨rs', hold, _⟩ := owns_closeConnection hs
    exact hsize ▸ wf.owner c' s rs' hold
  · intro c' t ht
    exact hsize ▸ wf.timer_owner c' t (armed_closeConnection ht).1
  · intro c' s rs hs hlive
    obtain ⟨rs', hold, _, hkept⟩ := owns_closeConnection hs
    obtain ⟨hlive', hnot⟩ := hkept hlive
    have hwsOf := wf.held c' s rs' hold hlive'
    refine (hws c' s).mpr ⟨?_, hwsOf⟩
    rintro rfl
    exact hnot hwsOf
  · intro c' t ht
    obtain ⟨hold, hnot⟩ := armed_closeConnection ht
    have hof := wf.armed c' t hold
    refine (htimeout c' t).mpr ⟨?_, hof⟩
    rintro rfl
    exact hnot hof
  · intro c' s s' rs rs' hs hs' hrs hrs'
    obtain ⟨old, hold, hne, _⟩ := owns_closeConnection hs
    obtain ⟨old', hold', hne', _⟩ := owns_closeConnection hs'
    exact wf.one_socket c' s s' old old' hold hold' (hne hrs) (hne' hrs')
  · intro c' s rs t hs hrs ht
    obtain ⟨old, hold, hne, _⟩ := owns_closeConnection hs
    exact wf.socket_or_timer c' s old t hold (hne hrs) (armed_closeConnection ht).1
  · intro c' s hs
    obtain ⟨rs, hold⟩ := wf.ws_owner c' s ((hws c' s).mp hs).2
    exact owns_of_closeConnection hold

/-- Nothing live is left of a connection that was given up. -/
theorem closeConnection_quiet {p : Proxy} (wf : WellFormed p) (c : Nat) :
    (∀ s rs, (closeConnection p c).Owns c s rs → ¬ rs.Live) ∧
      ∀ t, ¬ (closeConnection p c).Armed c t := by
  obtain ⟨_, _, _, _, _, hws, htimeout⟩ := fields_closeConnection p c
  constructor
  · intro s rs hs hlive
    exact ((hws c s).mp ((wf.closeConnection c).held c s rs hs hlive)).1 rfl
  · intro t ht
    exact ((htimeout c t).mp ((wf.closeConnection c).armed c t ht)).1 rfl

/-! ## Reconciliation -/

theorem WellFormed.removeConnection {p : Proxy} (wf : WellFormed p) (host : String) :
    WellFormed (removeConnection p host) := by
  rw [LogProxy.removeConnection]
  cases p.connections.get host with
  | none => exact wf
  | some c =>
      have hclosed := wf.closeConnection c
      refine ⟨fun host' c' hget => ?_, hclosed.owner, hclosed.timer_owner, hclosed.held,
        hclosed.armed, hclosed.one_socket, hclosed.socket_or_timer, hclosed.ws_owner⟩
      rw [JsMap.get_delete] at hget
      split at hget
      · cases hget
      · obtain ⟨hmap, _⟩ := fields_closeConnection p c
        exact hclosed.mapped host' c' (hmap ▸ hget)

theorem Current.removeConnection {p : Proxy} (wf : WellFormed p) (current : Current p)
    (host : String) : Current (removeConnection p host) := by
  rw [LogProxy.removeConnection]
  cases hget : p.connections.get host with
  | none => exact current
  | some c =>
      obtain ⟨hquiet, hstill⟩ := closeConnection_quiet wf c
      have hlisted : ∀ c', c' ≠ c → (∃ host', p.connections.get host' = some c') →
          ∃ host', (p.connections.delete host).get host' = some c' := by
        rintro c' hne ⟨host', hget'⟩
        refine ⟨host', ?_⟩
        rw [JsMap.get_delete, if_neg]
        · exact hget'
        · rintro rfl
          exact hne (Option.some.inj (hget'.symm.trans hget))
      constructor
      · intro c' s rs hs hlive
        obtain ⟨old, hold, _, hkept⟩ := owns_closeConnection (p := p) hs
        refine hlisted c' ?_ (current.sockets c' s old hold (hkept hlive).1)
        rintro rfl
        exact hquiet s rs hs hlive
      · intro c' t ht
        refine hlisted c' ?_ (current.timers c' t (armed_closeConnection (p := p) ht).1)
        rintro rfl
        exact hstill t ht

theorem connections_scheduleReconnect (p : Proxy) (c : Nat) :
    (scheduleReconnect p c).connections = p.connections := by
  rcases scheduleReconnect_cases p c with ⟨_, heq⟩ | ⟨_, _, n, d, heq⟩ <;> rw [heq]
  rfl

theorem connections_connectWebSocket (env : Env) (p : Proxy) (c : Nat) :
    (connectWebSocket env p c).connections = p.connections := by
  rw [connectWebSocket]
  cases p.conns.get c with
  | none => rfl
  | some conn =>
      dsimp only
      split
      · rfl
      · split
        · rfl
        · exact connections_scheduleReconnect p c

theorem hostOf_listConnection {p : Proxy} {host host' : String} {c : Nat} :
    (listConnection p host).HostOf c host' ↔
      (c = p.conns.size ∧ host' = host) ∨ p.HostOf c host' := by
  simp only [Proxy.HostOf, listConnection, Heap.get_alloc]
  by_cases hc : c = p.conns.size
  · subst hc
    simp [Heap.get_size, eq_comm]
  · simp [hc]

theorem wsOf_listConnection {p : Proxy} {host : String} {c s : Nat} :
    (listConnection p host).WsOf c s ↔ p.WsOf c s := by
  simp only [Proxy.WsOf, listConnection, Heap.get_alloc]
  by_cases hc : c = p.conns.size
  · subst hc
    simp [Heap.get_size]
  · simp [hc]

theorem timeoutOf_listConnection {p : Proxy} {host : String} {c t : Nat} :
    (listConnection p host).TimeoutOf c t ↔ p.TimeoutOf c t := by
  simp only [Proxy.TimeoutOf, listConnection, Heap.get_alloc]
  by_cases hc : c = p.conns.size
  · subst hc
    simp [Heap.get_size]
  · simp [hc]

theorem WellFormed.listConnection {p : Proxy} (wf : WellFormed p) (host : String) :
    WellFormed (listConnection p host) := by
  have hsize : (LogProxy.listConnection p host).conns.size = p.conns.size + 1 :=
    Heap.size_alloc _ _
  refine ⟨fun host' c hget => ?_, fun c s rs hs => ?_, fun c t ht => ?_, fun c s rs hs hlive => ?_,
    fun c t ht => ?_, wf.one_socket, wf.socket_or_timer, fun c s hs => ?_⟩
  · rw [hostOf_listConnection]
    change (p.connections.set host p.conns.size).get host' = some c at hget
    rw [JsMap.get_set] at hget
    split at hget
    next heq => exact Or.inl ⟨(Option.some.inj hget).symm, heq⟩
    next => exact Or.inr (wf.mapped host' c hget)
  · have := wf.owner c s rs hs
    omega
  · have := wf.timer_owner c t ht
    omega
  · exact wsOf_listConnection.mpr (wf.held c s rs hs hlive)
  · exact timeoutOf_listConnection.mpr (wf.armed c t ht)
  · exact wf.ws_owner c s (wsOf_listConnection.mp hs)

theorem idle_listConnection {p : Proxy} (wf : WellFormed p) (host : String) :
    Idle (listConnection p host) p.conns.size where
  sockets s rs hs := absurd (wf.owner _ s rs hs) (Nat.lt_irrefl _)
  timers t ht := absurd (wf.timer_owner _ t ht) (Nat.lt_irrefl _)

theorem WellFormed.addConnection {env : Env} {p : Proxy} (wf : WellFormed p) (host : String) :
    WellFormed (addConnection env p host) :=
  (wf.listConnection host).connectWebSocket (idle_listConnection wf host)

theorem Current.addConnection {env : Env} {p : Proxy} (current : Current p) {host : String}
    (fresh : p.connections.get host = none) : Current (addConnection env p host) := by
  have hkept : ∀ c, (∃ host', p.connections.get host' = some c) →
      ∃ host', (p.connections.set host p.conns.size).get host' = some c := by
    rintro c ⟨host', hget⟩
    refine ⟨host', ?_⟩
    rw [JsMap.get_set, if_neg]
    · exact hget
    · rintro rfl
      rw [fresh] at hget
      cases hget
  refine Current.connectWebSocket ⟨fun c s rs hs hlive => ?_, fun c t ht => ?_⟩ ⟨host, ?_⟩
  · exact hkept c (current.sockets c s rs hs hlive)
  · exact hkept c (current.timers c t ht)
  · exact (JsMap.get_set _ _ _ _).trans (if_pos rfl)

theorem get_removeConnection {p : Proxy} {host host' : String}
    (h : p.connections.get host' = none) :
    (removeConnection p host).connections.get host' = none := by
  rw [removeConnection]
  cases p.connections.get host with
  | none => exact h
  | some c =>
      change (p.connections.delete host).get host' = none
      rw [JsMap.get_delete]
      split
      · rfl
      · exact h

theorem removeConnections_spec (stale : List String) {p : Proxy} (wf : WellFormed p) :
    WellFormed (stale.foldl removeConnection p) ∧
      (Current p → Current (stale.foldl removeConnection p)) ∧
      ∀ host, p.connections.get host = none →
        (stale.foldl removeConnection p).connections.get host = none := by
  induction stale generalizing p with
  | nil => exact ⟨wf, id, fun _ => id⟩
  | cons host stale ih =>
      obtain ⟨hwf, hcurrent, habsent⟩ := ih (wf.removeConnection host)
      exact ⟨hwf, fun current => hcurrent (current.removeConnection wf host),
        fun host' h => habsent host' (get_removeConnection h)⟩

theorem addConnections_spec (env : Env) {fresh : List String} {p : Proxy} (wf : WellFormed p)
    (nodup : fresh.Nodup) (absent : ∀ host ∈ fresh, p.connections.get host = none) :
    WellFormed (fresh.foldl (addConnection env) p) ∧
      (Current p → Current (fresh.foldl (addConnection env) p)) := by
  induction fresh generalizing p with
  | nil => exact ⟨wf, id⟩
  | cons host fresh ih =>
      obtain ⟨hnew, hnodup⟩ := List.nodup_cons.mp nodup
      have habsent : ∀ host' ∈ fresh,
          (addConnection env p host).connections.get host' = none := by
        intro host' hmem
        rw [addConnection, connections_connectWebSocket]
        change (p.connections.set host p.conns.size).get host' = none
        rw [JsMap.get_set, if_neg]
        · exact absent host' (List.mem_cons_of_mem _ hmem)
        · rintro rfl
          exact hnew hmem
      obtain ⟨hwf, hcurrent⟩ := ih (wf.addConnection host) hnodup habsent
      exact ⟨hwf, fun current => hcurrent (current.addConnection (absent host List.mem_cons_self))⟩

theorem reconcileConnections_spec (env : Env) {p : Proxy} (wf : WellFormed p)
    (hosts : List String) :
    WellFormed (reconcileConnections env p hosts) ∧
      (Current p → Current (reconcileConnections env p hosts)) := by
  rw [reconcileConnections]
  obtain ⟨hwf, hcurrent, habsent⟩ := removeConnections_spec
    (p.connections.keys.filter (· ∉ (hostSet hosts).keys)) wf
  have hfresh : ∀ host ∈ (hostSet hosts).keys.filter (· ∉ p.connections.keys),
      p.connections.get host = none := by
    intro host hmem
    have hnot : host ∉ p.connections.keys := by simpa using (List.mem_filter.mp hmem).2
    cases hget : p.connections.get host with
    | none => rfl
    | some c => exact absurd (JsMap.mem_keys.mpr ⟨c, hget⟩) hnot
  obtain ⟨hwf', hcurrent'⟩ := addConnections_spec env hwf
    ((hostSet hosts).nodup.filter _) fun host hmem => habsent host (hfresh host hmem)
  exact ⟨hwf', fun current => hcurrent' (hcurrent current)⟩

theorem closeConnections_spec (cs : List Nat) {p : Proxy} (wf : WellFormed p) :
    WellFormed (cs.foldl closeConnection p) ∧
      (cs.foldl closeConnection p).isShuttingDown = p.isShuttingDown ∧
      (cs.foldl closeConnection p).sockets.size = p.sockets.size ∧
      (∀ c s rs, (cs.foldl closeConnection p).Owns c s rs → rs.Live →
        ∃ rs', p.Owns c s rs' ∧ rs'.Live ∧ c ∉ cs) ∧
      ∀ c t, (cs.foldl closeConnection p).Armed c t → p.Armed c t ∧ c ∉ cs := by
  induction cs generalizing p with
  | nil =>
      exact ⟨wf, rfl, rfl, fun c s rs hs hlive => ⟨rs, hs, hlive, List.not_mem_nil⟩,
        fun c t ht => ⟨ht, List.not_mem_nil⟩⟩
  | cons c cs ih =>
      obtain ⟨hwf, hdown, hsize, hsockets, htimers⟩ := ih (wf.closeConnection c)
      obtain ⟨_, hdown', _, hsize', _⟩ := fields_closeConnection p c
      obtain ⟨hquiet, hstill⟩ := closeConnection_quiet wf c
      refine ⟨hwf, hdown.trans hdown', hsize.trans hsize', fun c' s rs hs hlive => ?_,
        fun c' t ht => ?_⟩
      · obtain ⟨rs', hold, hlive', hnot⟩ := hsockets c' s rs hs hlive
        obtain ⟨old, hold', _, hkept⟩ := owns_closeConnection hold
        refine ⟨old, hold', (hkept hlive').1, ?_⟩
        rw [List.mem_cons, not_or]
        refine ⟨?_, hnot⟩
        rintro rfl
        exact hquiet s rs' hold hlive'
      · obtain ⟨hold, hnot⟩ := htimers c' t ht
        refine ⟨(armed_closeConnection hold).1, ?_⟩
        rw [List.mem_cons, not_or]
        refine ⟨?_, hnot⟩
        rintro rfl
        exact hstill t hold

theorem WellFormed.shutdown {p : Proxy} (wf : WellFormed p) :
    WellFormed { p with isShuttingDown := true } :=
  ⟨wf.mapped, wf.owner, wf.timer_owner, wf.held, wf.armed, wf.one_socket, wf.socket_or_timer,
    wf.ws_owner⟩

theorem WellFormed.onModuleDestroy {p : Proxy} (wf : WellFormed p) :
    WellFormed (onModuleDestroy p) := by
  obtain ⟨hwf, _⟩ :=
    closeConnections_spec p.connections.values wf.shutdown
  refine ⟨fun host c hget => ?_, hwf.owner, hwf.timer_owner, hwf.held, hwf.armed,
    hwf.one_socket, hwf.socket_or_timer, hwf.ws_owner⟩
  cases hget

theorem Current.onModuleDestroy {p : Proxy} (wf : WellFormed p) (current : Current p) :
    Current (onModuleDestroy p) := by
  obtain ⟨_, _, _, hsockets, htimers⟩ :=
    closeConnections_spec p.connections.values wf.shutdown
  constructor
  · intro c s rs hs hlive
    obtain ⟨rs', hold, hlive', hnot⟩ := hsockets c s rs hs hlive
    obtain ⟨host, hget⟩ := current.sockets c s rs' hold hlive'
    exact absurd (JsMap.mem_values_of_get hget) hnot
  · intro c t ht
    obtain ⟨hold, hnot⟩ := htimers c t ht
    obtain ⟨host, hget⟩ := current.timers c t hold
    exact absurd (JsMap.mem_values_of_get hget) hnot

end NestGateway.LogProxy
