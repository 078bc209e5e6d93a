import NestGateway.LogProxy.Connections

/-! # One live line for each host

What a step does to sockets and timers, and from it what a run does. A close
event of a socket that was given up is the one event that can leave a timer
with a connection that is no longer listed.
-/

namespace NestGateway.LogProxy

open Runs

/-! ## Sockets and timers that come to an end -/

/-- The connections are the same, sockets are no more alive and timers no more pending. -/
structure Fades (p p' : Proxy) : Prop where
  connections : p'.connections = p.connections
  conns : p'.conns = p.conns
  owns : ∀ c s rs, p'.Owns c s rs →
    ∃ old, p.Owns c s old ∧ (rs ≠ .closed → old ≠ .closed) ∧ (rs.Live → old.Live)
  kept : ∀ c s rs, p.Owns c s rs → ∃ rs', p'.Owns c s rs'
  armed : ∀ c t, p'.Armed c t → p.Armed c t

theorem Fades.wellFormed {p p' : Proxy} (h : Fades p p') (wf : WellFormed p) : WellFormed p' := by
  constructor
  · intro host c hget
    simpa only [Proxy.HostOf, h.conns] using wf.mapped host c (h.connections ▸ hget)
  · intro c s rs hs
    obtain ⟨old, hold, _⟩ := h.owns c s rs hs
    exact h.conns ▸ wf.owner c s old hold
  · intro c t ht
    exact h.conns ▸ wf.timer_owner c t (h.armed c t ht)
  · intro c s rs hs hlive
    obtain ⟨old, hold, _, hlive'⟩ := h.owns c s rs hs
    simpa only [Proxy.WsOf, h.conns] using wf.held c s old hold (hlive' hlive)
  · intro c t ht
    simpa only [Proxy.TimeoutOf, h.conns] using wf.armed c t (h.armed c t ht)
  · intro c s s' rs rs' hs hs' hrs hrs'
    obtain ⟨old, hold, hopen, _⟩ := h.owns c s rs hs
    obtain ⟨old', hold', hopen', _⟩ := h.owns c s' rs' hs'
    exact wf.one_socket c s s' old old' hold hold' (hopen hrs) (hopen' hrs')
  · intro c s rs t hs hrs ht
    obtain ⟨old, hold, hopen, _⟩ := h.owns c s rs hs
    exact wf.socket_or_timer c s old t hold (hopen hrs) (h.armed c t ht)
  · intro c s hs
    obtain ⟨rs, hold⟩ := wf.ws_owner c s (by simpa only [Proxy.WsOf, h.conns] using hs)
    exact h.kept c s rs hold

theorem Fades.current {p p' : Proxy} (h : Fades p p') (current : Current p) : Current p' where
  sockets c s rs hs hlive := by
    obtain ⟨old, hold, _, hlive'⟩ := h.owns c s rs hs
    exact h.connections ▸ current.sockets c s old hold (hlive' hlive)
  timers c t ht := h.connections ▸ current.timers c t (h.armed c t ht)

theorem owns_setReadyState {p : Proxy} {c s s' : Nat} {rs rs' : ReadyState} :
    (setReadyState p s rs).Owns c s' rs' ↔
      if s' = s then (∃ old, p.Owns c s old) ∧ rs = rs' else p.Owns c s' rs' := by
  simp only [Proxy.Owns, setReadyState, Heap.get_modify]
  by_cases hs : s' = s
  · subst hs
    cases p.sockets.get s' with
    | none => simp
    | some sock => simp
  · simp only [hs, if_false]

theorem fades_setReadyState {p : Proxy} {s : Nat} {sock : Socket} (rs : ReadyState)
    (hget : p.sockets.get s = some sock) (hopen : rs ≠ .closed → sock.readyState ≠ .closed)
    (hlive : rs.Live → sock.readyState.Live) : Fades p (setReadyState p s rs) where
  connections := rfl
  conns := rfl
  owns c s' rs' hs := by
    rw [owns_setReadyState] at hs
    split at hs
    next heq =>
      obtain ⟨⟨old, sock', hsock', howner, rfl⟩, rfl⟩ := hs
      subst heq
      obtain rfl := Option.some.inj (hget.symm.trans hsock')
      exact ⟨sock.readyState, ⟨sock, hget, howner, rfl⟩, hopen, hlive⟩
    next => exact ⟨rs', hs, id, id⟩
  kept c s' rs' hs := by
    simp only [owns_setReadyState]
    split
    next heq => exact ⟨rs, ⟨rs', heq ▸ hs⟩, rfl⟩
    next => exact ⟨rs', hs⟩
  armed _ _ := id

theorem armed_clearTimer {p : Proxy} {c t t' : Nat} :
    (clearTimer p t).Armed c t' ↔ t' ≠ t ∧ p.Armed c t' := by
  simp only [Proxy.Armed, clearTimer, Heap.get_modify]
  by_cases ht : t' = t
  · subst ht
    cases p.timers.get t' with
    | none => simp
    | some timer => simp [Timer.clear]
  · simp [ht]

theorem fades_clearTimer (p : Proxy) (t : Nat) : Fades p (clearTimer p t) where
  connections := rfl
  conns := rfl
  owns _ _ rs hs := ⟨rs, hs, id, id⟩
  kept _ _ rs hs := ⟨rs, hs⟩
  armed _ _ ht := (armed_clearTimer.mp ht).2

theorem idle_socketClosed {p : Proxy} {s : Nat} {sock : Socket} (wf : WellFormed p)
    (hget : p.sockets.get s = some sock) (hopen : sock.readyState ≠ .closed) :
    Idle (setReadyState p s .closed) sock.owner where
  sockets s' rs hs := by
    rw [owns_setReadyState] at hs
    split at hs
    next => exact hs.2.symm
    next hne =>
      by_contra hrs
      exact hne (wf.one_socket _ _ _ _ _ hs ⟨sock, hget, rfl, rfl⟩ hrs hopen)
  timers t ht := wf.socket_or_timer _ _ _ t ⟨sock, hget, rfl, rfl⟩ hopen ht

theorem idle_timerFired {p : Proxy} {t : Nat} {timer : Timer} (wf : WellFormed p)
    (hget : p.timers.get t = some timer) (hpending : timer.pending = true) :
    Idle (clearTimer p t) timer.conn where
  sockets s rs hs := by
    by_contra hrs
    exact wf.socket_or_timer _ s rs t hs hrs ⟨timer, hget, rfl, hpending⟩
  timers t' ht := by
    obtain ⟨hne, hold⟩ := armed_clearTimer.mp ht
    exact hne (TimeoutOf.unique (wf.armed _ t' hold) (wf.armed _ t ⟨timer, hget, rfl, hpending⟩))

/-! ## Steps -/

/-- When a close event is harmless: the service is shutting down, or the host of the socket's
connection is not listed, or it is listed with that very connection. -/
def CloseAllowed (p : Proxy) : Event → Prop
  | .socketClosed s =>
      ∀ sock, p.sockets.get s = some sock → ∀ conn, p.conns.get sock.owner = some conn →
        p.isShuttingDown = true ∨ p.connections.has conn.host = false ∨
          p.connections.get conn.host = some sock.owner
  | _ => True

theorem step_spec {env : Env} {p p' : Proxy} {e : Event} (wf : WellFormed p)
    (h : step env p e = some p') :
    WellFormed p' ∧ (Current p → CloseAllowed p e → Current p') := by
  have hsame : ∀ {q}, SameLines p q → WellFormed q ∧ (Current p → CloseAllowed p e → Current q) :=
    fun lines => ⟨lines.wellFormed wf, fun current _ => lines.current current⟩
  cases step_cases h with
  | reconcile => exact hsame (sameLines_of_fields rfl rfl rfl rfl rfl)
  | reconcileLate => exact hsame (SameLines.refl p)
  | discovered =>
      have lines : SameLines p { p with pendingReconciles := p.pendingReconciles - 1 } :=
        sameLines_of_fields rfl rfl rfl rfl rfl
      obtain ⟨hwf, hcurrent⟩ := reconcileConnections_spec env (lines.wellFormed wf) _
      exact ⟨hwf, fun current _ => hcurrent (lines.current current)⟩
  | discoveryFailed => exact hsame (sameLines_of_fields rfl rfl rfl rfl rfl)
  | @socketOpened s sock hget hstate =>
      have fades := fades_setReadyState .opened hget (fun _ => by simp [hstate])
        fun _ => Or.inl hstate
      have lines := sameLines_onOpen (setReadyState p s .opened) sock.owner
      exact ⟨lines.wellFormed (fades.wellFormed wf),
        fun current _ => lines.current (fades.current current)⟩
  | socketClosing hget hstate =>
      have fades := fades_setReadyState .closing hget
        (fun _ hclosed => by simp [hclosed] at hstate) fun _ => hstate
      exact ⟨fades.wellFormed wf, fun current _ => fades.current current⟩
  | @socketClosed s sock hget hopen =>
      have fades := fades_setReadyState .closed hget (fun hne => absurd rfl hne)
        fun hlive => by simp [ReadyState.Live] at hlive
      refine ⟨(fades.wellFormed wf).scheduleReconnect (idle_socketClosed wf hget hopen),
        fun current allowed => (fades.current current).scheduleReconnect ?_⟩
      -- a timer is set: the host is listed, so it is listed with this connection
      rintro ⟨hup, host, ⟨conn, hconn, rfl⟩, hhas⟩
      change p.isShuttingDown = false at hup
      change p.connections.has conn.host = true at hhas
      rcases allowed sock hget conn hconn with hdown | habsent | hlisted
      · rw [hup] at hdown
        cases hdown
      · rw [hhas] at habsent
        cases habsent
      · exact ⟨conn.host, hlisted⟩
  | @delivered s => exact hsame (sameLines_sockets p s (fun _ => rfl) fun _ => rfl)
  | @timerFired t timer hget hpending =>
      have fades := fades_clearTimer p t
      exact ⟨(fades.wellFormed wf).connectWebSocket (idle_timerFired wf hget hpending),
        fun current _ => (fades.current current).connectWebSocket
          (current.timers _ t ⟨timer, hget, rfl, hpending⟩)⟩
  | moduleDestroyed => exact ⟨wf.onModuleDestroy, fun current _ => current.onModuleDestroy wf⟩
  | @subscribed kind key => exact hsame (sameLines_subscribeTo kind p key)
  | @returned i viewer => exact hsame (sameLines_iteratorReturn p i viewer)
  | thrown => exact hsame (sameLines_of_fields rfl rfl rfl rfl rfl)

/-- A close event that is not harmless sets a timer for a connection that is not listed. -/
theorem closeAllowed_of_current {env : Env} {p p' : Proxy} {e : Event} (wf : WellFormed p)
    (h : step env p e = some p') (current : Current p') : CloseAllowed p e := by
  cases step_cases h with
  | @socketClosed s sock hget hopen =>
      intro sock' hget' conn hconn
      obtain rfl := Option.some.inj (hget.symm.trans hget')
      rcases scheduleReconnect_cases (setReadyState p s .closed) sock.owner with
        ⟨hidle, _⟩ | ⟨_, _, n, d, heq⟩
      · by_contra hall
        simp only [not_or, Bool.not_eq_true, Bool.not_eq_false] at hall
        exact hidle ⟨hall.1, conn.host, ⟨conn, hconn, rfl⟩, hall.2.1⟩
      · rw [heq] at current
        obtain ⟨host, hlisted⟩ := current.timers _ _ (armed_startTimer.mpr (Or.inl ⟨rfl, rfl⟩))
        change p.connections.get host = some sock.owner at hlisted
        have hhost := HostOf.unique (wf.mapped host _ hlisted) ⟨conn, hconn, rfl⟩
        exact Or.inr (Or.inr (hhost ▸ hlisted))
  | _ => trivial

/-! ## Shutdown -/

/-- No socket is created, and the flag stays. -/
structure NoNewSocket (p p' : Proxy) : Prop where
  shutdown : p'.isShuttingDown = p.isShuttingDown
  sockets : p'.sockets.size = p.sockets.size

theorem NoNewSocket.refl (p : Proxy) : NoNewSocket p p := ⟨rfl, rfl⟩

theorem NoNewSocket.trans {p q r : Proxy} (h : NoNewSocket p q) (h' : NoNewSocket q r) :
    NoNewSocket p r :=
  ⟨h'.shutdown.trans h.shutdown, h'.sockets.trans h.sockets⟩

theorem SameLines.noNewSocket {p p' : Proxy} (h : SameLines p p') : NoNewSocket p p' :=
  ⟨h.shutdown, h.socketCount⟩

theorem noNewSocket_setReadyState (p : Proxy) (s : Nat) (rs : ReadyState) :
    NoNewSocket p (setReadyState p s rs) :=
  ⟨rfl, Heap.size_modify _ _ _⟩

theorem noNewSocket_closeConnection (p : Proxy) (c : Nat) :
    NoNewSocket p (closeConnection p c) := by
  obtain ⟨_, hdown, _, hsize, _⟩ := fields_closeConnection p c
  exact ⟨hdown, hsize⟩

theorem noNewSocket_removeConnection (p : Proxy) (host : String) :
    NoNewSocket p (removeConnection p host) := by
  rw [removeConnection]
  cases p.connections.get host with
  | none => exact NoNewSocket.refl p
  | some c =>
      obtain ⟨hdown, hsize⟩ := noNewSocket_closeConnection p c
      exact ⟨hdown, hsize⟩

theorem connectWebSocket_of_shutdown {env : Env} {p : Proxy} (hdown : p.isShuttingDown = true)
    (c : Nat) : connectWebSocket env p c = p := by
  rw [connectWebSocket]
  cases p.conns.get c with
  | none => rfl
  | some conn => simp only [hdown, if_true]

theorem scheduleReconnect_of_shutdown {p : Proxy} (hdown : p.isShuttingDown = true) (c : Nat) :
    scheduleReconnect p c = p := by
  rw [scheduleReconnect]
  cases p.conns.get c with
  | none => rfl
  | some conn => simp only [hdown, if_true]

theorem noNewSocket_addConnection {env : Env} {p : Proxy} (hdown : p.isShuttingDown = true)
    (host : String) : NoNewSocket p (addConnection env p host) := by
  rw [addConnection, connectWebSocket_of_shutdown]
  · exact ⟨rfl, rfl⟩
  · exact hdown

theorem noNewSocket_foldl {α : Type*} {f : Proxy → α → Proxy}
    (hf : ∀ p a, p.isShuttingDown = true → NoNewSocket p (f p a)) (as : List α) {p : Proxy}
    (hdown : p.isShuttingDown = true) : NoNewSocket p (as.foldl f p) := by
  induction as generalizing p with
  | nil => exact NoNewSocket.refl p
  | cons a as ih =>
      have hstep := hf p a hdown
      exact hstep.trans (ih (hstep.shutdown.trans hdown))

theorem noNewSocket_reconcileConnections (env : Env) {p : Proxy} (hdown : p.isShuttingDown = true)
    (hosts : List String) : NoNewSocket p (reconcileConnections env p hosts) := by
  rw [reconcileConnections]
  have hremoved := noNewSocket_foldl (fun q host _ => noNewSocket_removeConnection q host)
    (p.connections.keys.filter (· ∉ (hostSet hosts).keys)) hdown
  exact hremoved.trans (noNewSocket_foldl (fun q host hq => noNewSocket_addConnection hq host) _
    (hremoved.shutdown.trans hdown))

theorem noNewSocket_onModuleDestroy {p : Proxy} (hdown : p.isShuttingDown = true) :
    NoNewSocket p (onModuleDestroy p) := by
  have hclosed := noNewSocket_foldl (fun q c _ => noNewSocket_closeConnection q c)
    p.connections.values (p := { p with isShuttingDown := true }) rfl
  exact ⟨hclosed.shutdown.trans hdown.symm, hclosed.sockets⟩

theorem noNewSocket_step {env : Env} {p p' : Proxy} {e : Event} (hdown : p.isShuttingDown = true)
    (h : step env p e = some p') : NoNewSocket p p' := by
  cases step_cases h with
  | reconcile => exact ⟨rfl, rfl⟩
  | reconcileLate => exact NoNewSocket.refl p
  | @discovered hosts =>
      obtain ⟨hdown', hsize⟩ := noNewSocket_reconcileConnections env
        (p := { p with pendingReconciles := p.pendingReconciles - 1 }) hdown hosts
      exact ⟨hdown', hsize⟩
  | discoveryFailed => exact ⟨rfl, rfl⟩
  | @socketOpened s =>
      exact (noNewSocket_setReadyState p s .opened).trans (sameLines_onOpen _ _).noNewSocket
  | @socketClosing s => exact noNewSocket_setReadyState p s .closing
  | @socketClosed s =>
      rw [scheduleReconnect_of_shutdown]
      · exact noNewSocket_setReadyState p s .closed
      · exact hdown
  | delivered => exact ⟨rfl, Heap.size_modify _ _ _⟩
  | timerFired =>
      rw [connectWebSocket_of_shutdown]
      · exact ⟨rfl, rfl⟩
      · exact hdown
  | moduleDestroyed => exact noNewSocket_onModuleDestroy hdown
  | @subscribed kind key => exact (sameLines_subscribeTo kind p key).noNewSocket
  | @returned i viewer => exact (sameLines_iteratorReturn p i viewer).noNewSocket
  | thrown => exact ⟨rfl, rfl⟩

/-- No socket is created once the service shuts down. -/
theorem sockets_after_shutdown {env : Env} {p p' : Proxy} {es : List Event}
    (hdown : p.isShuttingDown = true) (h : run (step env) p es = some p') :
    p'.sockets.size = p.sockets.size := by
  have hinv := run_invariant (I := fun q => q.isShuttingDown = true ∧
    q.sockets.size = p.sockets.size) (fun q e q' hq hs => ?_) ⟨hdown, rfl⟩ h
  · exact hinv.2
  · have hquiet := noNewSocket_step hq.1 hs
    exact ⟨hquiet.shutdown.trans hq.1, hquiet.sockets.trans hq.2⟩

/-! ## Runs -/

inductive Line where
  | socket (s : Nat)
  | timer (t : Nat)

/-- A line of a connection: a socket that is connecting or open, or a pending timer. -/
def Proxy.LiveLine (p : Proxy) (c : Nat) : Line → Prop
  | .socket s => ∃ rs, p.Owns c s rs ∧ rs.Live
  | .timer t => p.Armed c t

structure OneLinePerHost (p : Proxy) : Prop where
  listed : ∀ c line, p.LiveLine c line →
    ∃ host, p.HostOf c host ∧ p.connections.get host = some c
  one : ∀ host c c' line line', p.HostOf c host → p.HostOf c' host → p.LiveLine c line →
    p.LiveLine c' line' → line = line'

theorem ReadyState.Live.ne_closed {rs : ReadyState} (h : rs.Live) : rs ≠ .closed := by
  rintro rfl
  rcases h with h | h <;> cases h

theorem WellFormed.one_line {p : Proxy} (wf : WellFormed p) {c : Nat} {line line' : Line}
    (h : p.LiveLine c line) (h' : p.LiveLine c line') : line = line' := by
  cases line with
  | socket s =>
      obtain ⟨rs, hs, hlive⟩ := h
      cases line' with
      | socket s' =>
          obtain ⟨rs', hs', hlive'⟩ := h'
          rw [wf.one_socket c s s' rs rs' hs hs' hlive.ne_closed hlive'.ne_closed]
      | timer t => exact absurd h' (wf.socket_or_timer c s rs t hs hlive.ne_closed)
  | timer t =>
      cases line' with
      | socket s =>
          obtain ⟨rs, hs, hlive⟩ := h'
          exact absurd h (wf.socket_or_timer c s rs t hs hlive.ne_closed)
      | timer t' => rw [TimeoutOf.unique (wf.armed c t h) (wf.armed c t' h')]

theorem oneLinePerHost_iff {p : Proxy} (wf : WellFormed p) : OneLinePerHost p ↔ Current p := by
  constructor
  · intro h
    constructor
    · intro c s rs hs hlive
      obtain ⟨host, _, hlisted⟩ := h.listed c (.socket s) ⟨rs, hs, hlive⟩
      exact ⟨host, hlisted⟩
    · intro c t ht
      obtain ⟨host, _, hlisted⟩ := h.listed c (.timer t) ht
      exact ⟨host, hlisted⟩
  · intro current
    have hlisted : ∀ c line, p.LiveLine c line → ∃ host, p.connections.get host = some c := by
      intro c line h
      cases line with
      | socket s =>
          obtain ⟨rs, hs, hlive⟩ := h
          exact current.sockets c s rs hs hlive
      | timer t => exact current.timers c t h
    refine ⟨fun c line h => ?_, fun host c c' line line' hhost hhost' h h' => ?_⟩
    · obtain ⟨host, hget⟩ := hlisted c line h
      exact ⟨host, wf.mapped host c hget, hget⟩
    · obtain ⟨host₁, hget⟩ := hlisted c line h
      obtain ⟨host₂, hget'⟩ := hlisted c' line' h'
      obtain rfl := HostOf.unique hhost (wf.mapped host₁ c hget)
      obtain rfl := HostOf.unique hhost' (wf.mapped host₂ c' hget')
      obtain rfl := Option.some.inj (hget.symm.trans hget')
      exact wf.one_line h h'

theorem wellFormed_init : WellFormed init := by
  constructor <;> simp [init, Proxy.HostOf, Proxy.Owns, Proxy.Armed, Proxy.WsOf]

theorem current_init : Current init := by
  constructor <;> simp [init, Proxy.Owns, Proxy.Armed]

/-- In a run each live line belongs to a listed connection, one for a host at most, exactly if
no close event of a given-up socket finds its host listed again; and after a shutdown no
socket is created, whatever happens. -/
theorem one_line_per_host_iff (env : Env) (es : List Event) :
    (EachStep (step env) (fun _ _ p' => OneLinePerHost p') init es ↔
        EachStep (step env) (fun p e _ => CloseAllowed p e) init es) ∧
      ∀ p p' later, run (step env) init es = some p →
        run (step env) (onModuleDestroy p) later = some p' →
        p'.sockets.size = p.sockets.size := by
  refine ⟨eachStep_iff (I := fun p => WellFormed p ∧ Current p) ?_ ?_ ⟨wellFormed_init,
    current_init⟩, ?_⟩
  · rintro p e p' ⟨wf, current⟩ allowed h
    obtain ⟨hwf, hcurrent⟩ := step_spec wf h
    have current' := hcurrent current allowed
    exact ⟨⟨hwf, current'⟩, (oneLinePerHost_iff hwf).mpr current'⟩
  · rintro p e p' ⟨wf, _⟩ hone h
    obtain ⟨hwf, _⟩ := step_spec wf h
    exact closeAllowed_of_current wf h ((oneLinePerHost_iff hwf).mp hone)
  · intro p p' later _ hlater
    have hclosed := noNewSocket_foldl (fun q c _ => noNewSocket_closeConnection q c)
      p.connections.values (p := { p with isShuttingDown := true }) rfl
    exact (sockets_after_shutdown (p := onModuleDestroy p) hclosed.shutdown hlater).trans
      hclosed.sockets

/-- A host that disappears and is listed again before the old socket reports its close. -/
def relisted : List Event :=
  [.reconcile, .discovered ["10.0.0.5"], .socketOpened 0, .reconcile, .discovered [],
    .reconcile, .discovered ["10.0.0.5"], .socketClosed 0, .socketOpened 1, .timerFired 0,
    .socketOpened 2]

/-- It ends with two open sockets for the host, one of a connection that is not listed. -/
theorem relisted_two_sockets : ∃ p, run (step ⟨4003, fun _ => true⟩) init relisted = some p ∧
    p.Owns 0 2 .opened ∧ p.Owns 1 1 .opened ∧ p.HostOf 0 "10.0.0.5" ∧ p.HostOf 1 "10.0.0.5" ∧
    p.connections.values = [1] ∧ ¬ OneLinePerHost p := by
  refine ⟨_, rfl, ⟨_, rfl, rfl, rfl⟩, ⟨_, rfl, rfl, rfl⟩, ⟨_, rfl, rfl⟩, ⟨_, rfl, rfl⟩, rfl,
    fun h => ?_⟩
  have hsame := h.one "10.0.0.5" 0 1 (.socket 2) (.socket 1) ⟨_, rfl, rfl⟩ ⟨_, rfl, rfl⟩
    ⟨.opened, ⟨_, rfl, rfl, rfl⟩, Or.inr rfl⟩ ⟨.opened, ⟨_, rfl, rfl, rfl⟩, Or.inr rfl⟩
  cases hsame

end NestGateway.LogProxy
