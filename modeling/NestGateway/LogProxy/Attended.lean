import NestGateway.LogProxy.Lifecycle

/-! # No host is forgotten

The hosts of the connections are those that DNS listed last, and before the
shutdown each of them is attended: its connection has a socket that is not
closed or a pending timer.
-/

namespace NestGateway.LogProxy

open Runs

/-! ## Timers that were set -/

/-- The connection and the delay of every timer that was set, the oldest first. -/
def Proxy.plans (p : Proxy) : List (Nat × Nat) :=
  p.timers.cells.map fun timer => (timer.conn, timer.delay)

/-- The attempts of connection `c` since it was open; a connection to come has none. -/
def Proxy.attempts (p : Proxy) (c : Nat) : Nat :=
  ((p.conns.get c).map (·.reconnectAttempts)).getD 0

/-- The delay after `n` attempts without an opening. -/
def backoff (n : Nat) : Nat := min (baseReconnectMs * 2 ^ n) maxReconnectMs

/-- No timer is set and no count of attempts changes. -/
structure SamePlans (p p' : Proxy) : Prop where
  plans : p'.plans = p.plans
  attempts : ∀ c, p'.attempts c = p.attempts c

theorem SamePlans.refl (p : Proxy) : SamePlans p p := ⟨rfl, fun _ => rfl⟩

theorem SamePlans.trans {p q r : Proxy} (h : SamePlans p q) (h' : SamePlans q r) :
    SamePlans p r :=
  ⟨h'.plans.trans h.plans, fun c => (h'.attempts c).trans (h.attempts c)⟩

theorem samePlans_of_fields {p p' : Proxy} (timers : p'.timers = p.timers)
    (conns : p'.conns = p.conns) : SamePlans p p' := by
  constructor <;> simp [Proxy.plans, Proxy.attempts, timers, conns]

theorem samePlans_conns (p : Proxy) (c : Nat) {f : Connection → Connection}
    (hf : ∀ conn, (f conn).reconnectAttempts = conn.reconnectAttempts) :
    SamePlans p { p with conns := p.conns.modify c f } := by
  refine ⟨rfl, fun c' => ?_⟩
  simp only [Proxy.attempts, Heap.get_modify]
  by_cases hc : c' = c
  · subst hc
    cases p.conns.get c' <;> simp [hf]
  · simp [hc]

theorem map_modify_of_same {α β : Type*} (f : α → β) (g : α → α) (h : ∀ a, f (g a) = f a)
    (as : List α) (i : Nat) : (as.modify i g).map f = as.map f := by
  induction as generalizing i with
  | nil => simp
  | cons a as ih =>
      cases i with
      | zero => simp [h]
      | succ i => simp [ih]

theorem plans_modify (p : Proxy) (t : Nat) :
    (p.timers.modify t Timer.clear).cells.map (fun timer => (timer.conn, timer.delay)) =
      p.plans :=
  map_modify_of_same _ Timer.clear (fun _ => rfl) _ _

theorem samePlans_clearTimer (p : Proxy) (t : Nat) : SamePlans p (clearTimer p t) :=
  ⟨plans_modify p t, fun _ => rfl⟩

theorem samePlans_setReadyState (p : Proxy) (s : Nat) (rs : ReadyState) :
    SamePlans p (setReadyState p s rs) :=
  samePlans_of_fields rfl rfl

theorem samePlans_newSocket (p : Proxy) (c : Nat) : SamePlans p (newSocket p c) :=
  (samePlans_conns p c (f := fun conn => { conn with ws := some p.sockets.size })
    fun _ => rfl).trans (samePlans_of_fields rfl rfl)

theorem samePlans_closeConnection (p : Proxy) (c : Nat) : SamePlans p (closeConnection p c) := by
  cases hget : p.conns.get c with
  | none =>
      rw [closeConnection_of_none hget]
      exact SamePlans.refl p
  | some conn =>
      have hconns := samePlans_conns p c
        (f := fun conn => { conn with reconnectTimeout := none, ws := none }) fun _ => rfl
      rw [closeConnection_of_get hget]
      refine ⟨?_, hconns.attempts⟩
      cases conn.reconnectTimeout with
      | none => rfl
      | some t => exact plans_modify p t

theorem samePlans_removeConnection (p : Proxy) (host : String) :
    SamePlans p (removeConnection p host) := by
  unfold removeConnection
  cases p.connections.get host with
  | none => exact SamePlans.refl p
  | some c => exact (samePlans_closeConnection p c).trans (samePlans_of_fields rfl rfl)

theorem samePlans_sendOn (p : Proxy) (requests : List Request) (c : Nat) :
    SamePlans p (sendOn p requests c) := by
  unfold sendOn
  cases (p.conns.get c).bind (·.ws) with
  | none => exact SamePlans.refl p
  | some s => exact samePlans_of_fields rfl rfl

theorem samePlans_broadcastIf (wanted : Bool) (p : Proxy) (request : Request) :
    SamePlans p (broadcastIf wanted p request) := by
  have hfold : ∀ (conns : List Nat) (q : Proxy),
      SamePlans q (conns.foldl (sendOn · [request]) q) := by
    intro conns
    induction conns with
    | nil => exact SamePlans.refl
    | cons c conns ih => exact fun q => (samePlans_sendOn q [request] c).trans (ih _)
  cases wanted with
  | false => exact SamePlans.refl p
  | true => exact (hfold p.connections.values p).trans (samePlans_of_fields rfl rfl)

theorem samePlans_setCounts (p : Proxy) (kind : Kind) (counts : JsMap String Nat) :
    SamePlans p (p.setCounts kind counts) := by
  cases kind <;> exact samePlans_of_fields rfl rfl

theorem samePlans_subscribeTo (kind : Kind) (p : Proxy) (key : String) :
    SamePlans p (subscribeTo kind p key) :=
  ((samePlans_setCounts p kind _).trans (samePlans_broadcastIf _ _ _)).trans
    (samePlans_of_fields rfl rfl)

theorem samePlans_iteratorReturn (p : Proxy) (i : Nat) (viewer : Viewer) :
    SamePlans p (iteratorReturn p i viewer) :=
  ((samePlans_setCounts p viewer.kind _).trans (samePlans_broadcastIf _ _ _)).trans
    (samePlans_of_fields rfl rfl)

theorem attempts_onOpen (p : Proxy) (c c' : Nat) :
    (onOpen p c).attempts c' = if c' = c then 0 else p.attempts c' := by
  unfold onOpen
  rw [(samePlans_sendOn _ _ _).attempts]
  simp only [Proxy.attempts, Heap.get_modify]
  split
  next => cases p.conns.get c <;> simp
  next => rfl

theorem plans_onOpen (p : Proxy) (c : Nat) : (onOpen p c).plans = p.plans :=
  (samePlans_sendOn _ _ _).plans

theorem plans_startTimer (p : Proxy) (c n d : Nat) :
    (startTimer p c n d).plans = p.plans ++ [(c, d)] := by
  simp [Proxy.plans, startTimer, Heap.alloc]

theorem attempts_startTimer {p : Proxy} {c : Nat} (hc : c < p.conns.size) (n d c' : Nat) :
    (startTimer p c n d).attempts c' = if c' = c then n else p.attempts c' := by
  obtain ⟨conn, hconn⟩ := Heap.get_of_lt hc
  simp only [Proxy.attempts, startTimer, Heap.get_modify]
  split
  next => simp [hconn]
  next => rfl

theorem scheduleReconnect_plan {p : Proxy} {c : Nat} (h : Schedules p c) :
    c < p.conns.size ∧ scheduleReconnect p c =
      startTimer p c (p.attempts c + 1) (backoff (p.attempts c)) := by
  obtain ⟨hup, host, ⟨conn, hconn, rfl⟩, hhas⟩ := h
  refine ⟨Heap.lt_size hconn, ?_⟩
  simp [scheduleReconnect, hconn, hup, hhas, backoff, Proxy.attempts]

theorem scheduleReconnect_eq {p : Proxy} {c : Nat} (h : ¬ Schedules p c) :
    scheduleReconnect p c = p := by
  rcases scheduleReconnect_cases p c with ⟨_, heq⟩ | ⟨hs, _⟩
  · exact heq
  · exact absurd hs h

/-- What `connectWebSocket` does: nothing, a socket, or a timer. -/
theorem connectWebSocket_cases (env : Env) (p : Proxy) (c : Nat) :
    ((p.isShuttingDown = true ∨ p.conns.get c = none) ∧ connectWebSocket env p c = p) ∨
      (c < p.conns.size ∧ connectWebSocket env p c = newSocket p c) ∨
        connectWebSocket env p c = scheduleReconnect p c := by
  unfold connectWebSocket
  cases hget : p.conns.get c with
  | none => simp
  | some conn =>
      dsimp only
      split
      next hdown => exact Or.inl ⟨Or.inl hdown, rfl⟩
      next =>
        split
        next => exact Or.inr (Or.inl ⟨Heap.lt_size hget, rfl⟩)
        next => exact Or.inr (Or.inr rfl)

theorem shutdown_scheduleReconnect (p : Proxy) (c : Nat) :
    (scheduleReconnect p c).isShuttingDown = p.isShuttingDown := by
  rcases scheduleReconnect_cases p c with ⟨_, heq⟩ | ⟨_, _, n, d, heq⟩ <;> rw [heq]
  rfl

theorem shutdown_connectWebSocket (env : Env) (p : Proxy) (c : Nat) :
    (connectWebSocket env p c).isShuttingDown = p.isShuttingDown := by
  rcases connectWebSocket_cases env p c with ⟨_, heq⟩ | ⟨_, heq⟩ | heq <;> rw [heq]
  · rfl
  · exact shutdown_scheduleReconnect p c

/-! ## No host is forgotten -/

/-- Connection `c` has a socket that is not closed, or a pending timer. -/
def Proxy.Attended (p : Proxy) (c : Nat) : Prop :=
  (∃ s rs, p.Owns c s rs ∧ rs ≠ .closed) ∨ ∃ t, p.Armed c t

/-- The timer that a connection refers to was set for it. -/
def Tied (p : Proxy) : Prop := ∀ c t, p.TimeoutOf c t → (p.plans[t]?).map Prod.fst = some c

theorem SameLines.attended {p p' : Proxy} (h : SameLines p p') {c : Nat} (attended : p.Attended c) :
    p'.Attended c := by
  simpa [Proxy.Attended, h.owns, h.armed] using attended

theorem attended_newSocket {p : Proxy} {c c' : Nat} :
    (newSocket p c).Attended c' ↔ c' = c ∨ p.Attended c' := by
  have harmed : ∀ t, (newSocket p c).Armed c' t ↔ p.Armed c' t := fun _ => Iff.rfl
  simp only [Proxy.Attended, owns_newSocket, harmed]
  constructor
  · rintro (⟨s, rs, ⟨_, hc, _⟩ | hold, hrs⟩ | ht)
    · exact Or.inl hc
    · exact Or.inr (Or.inl ⟨s, rs, hold, hrs⟩)
    · exact Or.inr (Or.inr ht)
  · rintro (rfl | ⟨s, rs, hold, hrs⟩ | ht)
    · exact Or.inl ⟨_, .connecting, Or.inl ⟨rfl, rfl, rfl⟩, by simp⟩
    · exact Or.inl ⟨s, rs, Or.inr hold, hrs⟩
    · exact Or.inr ht

theorem attended_startTimer {p : Proxy} {c c' n d : Nat} :
    (startTimer p c n d).Attended c' ↔ c' = c ∨ p.Attended c' := by
  have howns : ∀ s rs, (startTimer p c n d).Owns c' s rs ↔ p.Owns c' s rs := fun _ _ => Iff.rfl
  simp only [Proxy.Attended, howns, armed_startTimer]
  constructor
  · rintro (hs | ⟨t, ⟨_, hc⟩ | hold⟩)
    · exact Or.inr (Or.inl hs)
    · exact Or.inl hc
    · exact Or.inr (Or.inr ⟨t, hold⟩)
  · rintro (rfl | hs | ⟨t, hold⟩)
    · exact Or.inr ⟨_, Or.inl ⟨rfl, rfl⟩⟩
    · exact Or.inl hs
    · exact Or.inr ⟨t, Or.inr hold⟩

theorem attended_scheduleReconnect {p : Proxy} {c c' : Nat}
    (h : p.Attended c' ∨ c' = c ∧ Schedules p c) : (scheduleReconnect p c).Attended c' := by
  by_cases hs : Schedules p c
  · rw [(scheduleReconnect_plan hs).2, attended_startTimer]
    exact h.symm.imp_left And.left
  · rw [scheduleReconnect_eq hs]
    exact h.resolve_right fun hc => hs hc.2

theorem attended_connectWebSocket {env : Env} {p : Proxy} {c c' : Nat}
    (h : p.Attended c' ∨ c' = c ∧ Schedules p c) : (connectWebSocket env p c).Attended c' := by
  rcases connectWebSocket_cases env p c with ⟨hnone, heq⟩ | ⟨_, heq⟩ | heq <;> rw [heq]
  · refine h.resolve_right fun hc => ?_
    obtain ⟨hup, host, ⟨conn, hconn, _⟩, _⟩ := hc.2
    rcases hnone with hdown | hgone
    · simp [hup] at hdown
    · simp [hconn] at hgone
  · exact attended_newSocket.mpr (h.symm.imp_left And.left)
  · exact attended_scheduleReconnect h

theorem attended_closeConnection {p : Proxy} (wf : WellFormed p) (tied : Tied p) {c c' : Nat}
    (hne : c' ≠ c) (h : p.Attended c') : (closeConnection p c).Attended c' := by
  cases hconn : p.conns.get c with
  | none =>
      rw [closeConnection_of_none hconn]
      exact h
  | some conn =>
      rw [closeConnection_of_get hconn]
      rcases h with ⟨s, rs, ⟨sock, hsock, howner, hstate⟩, hrs⟩ | ⟨t, timer, htimer, hc, hpending⟩
      · refine Or.inl ⟨s, rs, ⟨sock, ?_, howner, hstate⟩, hrs⟩
        rw [Heap.get_modifyOpt, if_neg, hsock]
        intro hws
        obtain ⟨rs', hs⟩ := wf.ws_owner c s ⟨conn, hconn, hws⟩
        obtain ⟨sock', hsock', howner', _⟩ := hs
        obtain rfl := Option.some.inj (hsock.symm.trans hsock')
        exact hne (howner.symm.trans howner')
      · refine Or.inr ⟨t, timer, ?_, hc, hpending⟩
        rw [Heap.get_modifyOpt, if_neg, htimer]
        intro htimeout
        have hplan := tied c t ⟨conn, hconn, htimeout⟩
        have hget : p.plans[t]? = some (timer.conn, timer.delay) := by
          simp only [Proxy.plans, List.getElem?_map]
          exact congrArg _ htimer
        simp [hget] at hplan
        exact hne (hc.symm.trans hplan)

theorem Tied.of_same {p p' : Proxy} (tied : Tied p) (plans : p'.plans = p.plans)
    (timeoutOf : ∀ c t, p'.TimeoutOf c t → p.TimeoutOf c t) : Tied p' := by
  intro c t h
  rw [plans]
  exact tied c t (timeoutOf c t h)

theorem Tied.scheduleReconnect {p : Proxy} (tied : Tied p) (c : Nat) :
    Tied (scheduleReconnect p c) := by
  by_cases hs : Schedules p c
  · obtain ⟨hc, heq⟩ := scheduleReconnect_plan hs
    rw [heq]
    intro c' t h
    rw [timeoutOf_startTimer hc] at h
    rw [plans_startTimer]
    have hlen : p.plans.length = p.timers.size := by simp [Proxy.plans, Heap.size]
    split at h
    next hcc => simp [h, hcc, ← hlen]
    next =>
      have hold := tied c' t h
      have hlt : t < p.plans.length := by
        by_contra hge
        simp [List.getElem?_eq_none (Nat.le_of_not_lt hge)] at hold
      rw [List.getElem?_append_left hlt]
      exact hold
  · rw [scheduleReconnect_eq hs]
    exact tied

theorem Tied.connectWebSocket {env : Env} {p : Proxy} (tied : Tied p) (c : Nat) :
    Tied (connectWebSocket env p c) := by
  rcases connectWebSocket_cases env p c with ⟨_, heq⟩ | ⟨_, heq⟩ | heq <;> rw [heq]
  · exact tied
  · exact tied.of_same rfl fun _ _ => timeoutOf_newSocket.mp
  · exact tied.scheduleReconnect c

theorem Tied.closeConnection {p : Proxy} (tied : Tied p) (c : Nat) :
    Tied (closeConnection p c) := by
  obtain ⟨_, _, _, _, _, _, htimeout⟩ := fields_closeConnection p c
  exact tied.of_same (samePlans_closeConnection p c).plans fun c' t h => ((htimeout c' t).mp h).2

/-! ### The invariant -/

/-- Before the shutdown every listed connection is attended. -/
structure Tended (p : Proxy) : Prop where
  wf : WellFormed p
  tied : Tied p
  attended : p.isShuttingDown = false → ∀ host c, p.connections.get host = some c → p.Attended c

theorem Tended.same {p p' : Proxy} (h : Tended p) (lines : SameLines p p')
    (plans : SamePlans p p') : Tended p' where
  wf := lines.wellFormed h.wf
  tied := h.tied.of_same plans.plans fun c t => (lines.timeoutOf c t).mp
  attended hup host c hget :=
    lines.attended (h.attended (lines.shutdown ▸ hup) host c (lines.connections ▸ hget))

theorem schedules_of_listed {p : Proxy} (wf : WellFormed p) (hup : p.isShuttingDown = false)
    {host : String} {c : Nat} (hget : p.connections.get host = some c) : Schedules p c :=
  ⟨hup, host, wf.mapped host c hget, by simp [JsMap.has, hget]⟩

theorem Tended.removeConnection {p : Proxy} (h : Tended p) (host : String) :
    Tended (removeConnection p host) := by
  refine ⟨h.wf.removeConnection host, ?_, ?_⟩
  · unfold LogProxy.removeConnection
    cases p.connections.get host with
    | none => exact h.tied
    | some c => exact (h.tied.closeConnection c).of_same rfl fun _ _ => id
  · intro hup host' c' hget'
    unfold LogProxy.removeConnection at hup hget' ⊢
    cases hget : p.connections.get host with
    | none =>
        simp only [hget] at hup hget' ⊢
        exact h.attended hup host' c' hget'
    | some c =>
        simp only [hget, JsMap.get_delete] at hup hget' ⊢
        obtain ⟨_, hdown, _⟩ := fields_closeConnection p c
        split at hget'
        next => cases hget'
        next hne =>
          have hcc : c' ≠ c := by
            rintro rfl
            exact hne (HostOf.unique (h.wf.mapped host' _ hget') (h.wf.mapped host _ hget))
          exact attended_closeConnection h.wf h.tied hcc
            (h.attended (hdown ▸ hup) host' c' hget')

theorem Tended.addConnection {p : Proxy} (env : Env) (h : Tended p) (host : String) :
    Tended (addConnection env p host) := by
  have hlist := h.wf.listConnection host
  refine ⟨h.wf.addConnection host, ?_, ?_⟩
  · have htied : Tied (listConnection p host) :=
      h.tied.of_same rfl fun _ _ => timeoutOf_listConnection.mp
    exact htied.connectWebSocket _
  · intro hup host' c hget
    unfold LogProxy.addConnection at hup hget ⊢
    rw [shutdown_connectWebSocket] at hup
    rw [connections_connectWebSocket] at hget
    apply attended_connectWebSocket
    by_cases hc : c = p.conns.size
    · exact Or.inr ⟨hc, schedules_of_listed hlist hup (hc ▸ hget)⟩
    · have hold : p.connections.get host' = some c := by
        change (p.connections.set host p.conns.size).get host' = some c at hget
        rw [JsMap.get_set] at hget
        split at hget
        next => exact absurd (Option.some.inj hget).symm hc
        next => exact hget
      exact Or.inl (h.attended hup host' c hold)

theorem Tended.foldl {α : Type*} {f : Proxy → α → Proxy}
    (hf : ∀ p a, Tended p → Tended (f p a)) (as : List α) {p : Proxy} (h : Tended p) :
    Tended (as.foldl f p) := by
  induction as generalizing p with
  | nil => exact h
  | cons a as ih => exact ih (hf p a h)

theorem Tended.reconcileConnections {p : Proxy} (env : Env) (h : Tended p) (hosts : List String) :
    Tended (reconcileConnections env p hosts) := by
  unfold LogProxy.reconcileConnections
  exact (h.foldl (fun _ host hq => hq.removeConnection host) _).foldl
    (fun _ host hq => hq.addConnection env host) _

theorem attended_setReadyState {p : Proxy} {s c : Nat} {sock : Socket} {rs : ReadyState}
    (hget : p.sockets.get s = some sock) (h : p.Attended c)
    (hkeep : rs ≠ .closed ∨ c ≠ sock.owner) : (setReadyState p s rs).Attended c := by
  rcases h with ⟨s', old, hold, hopen⟩ | ht
  · by_cases hs : s' = s
    · subst hs
      have howner : c = sock.owner := by
        obtain ⟨sock', hget', rfl, _⟩ := hold
        rw [Option.some.inj (hget'.symm.trans hget)]
      refine Or.inl ⟨s', rs, owns_setReadyState.mpr ?_, hkeep.resolve_right fun hne => hne howner⟩
      rw [if_pos rfl]
      exact ⟨⟨old, hold⟩, rfl⟩
    · refine Or.inl ⟨s', old, owns_setReadyState.mpr ?_, hopen⟩
      rw [if_neg hs]
      exact hold
  · exact Or.inr ht

theorem Tended.setReadyState {p : Proxy} (h : Tended p) {s : Nat} {sock : Socket} {rs : ReadyState}
    (hget : p.sockets.get s = some sock) (fades : Fades p (setReadyState p s rs))
    (hopen : rs ≠ .closed) : Tended (setReadyState p s rs) where
  wf := fades.wellFormed h.wf
  tied := h.tied.of_same rfl fun _ _ => id
  attended hup host c hlisted :=
    attended_setReadyState hget (h.attended hup host c hlisted) (Or.inl hopen)

theorem Tended.step {env : Env} {p p' : Proxy} {e : Event} (h : Tended p)
    (hstep : step env p e = some p') : Tended p' := by
  have hwf := (step_spec h.wf hstep).1
  cases step_cases hstep with
  | reconcile =>
      exact h.same (sameLines_of_fields rfl rfl rfl rfl rfl) (samePlans_of_fields rfl rfl)
  | reconcileLate => exact h
  | discovered =>
      have hcount : Tended { p with pendingReconciles := p.pendingReconciles - 1 } :=
        h.same (sameLines_of_fields rfl rfl rfl rfl rfl) (samePlans_of_fields rfl rfl)
      exact hcount.reconcileConnections env _
  | discoveryFailed =>
      exact h.same (sameLines_of_fields rfl rfl rfl rfl rfl) (samePlans_of_fields rfl rfl)
  | @socketOpened s sock hget hstate =>
      have fades := fades_setReadyState .opened hget (fun _ => by simp [hstate])
        fun _ => Or.inl hstate
      have hopened := h.setReadyState hget fades (by simp)
      refine ⟨hwf, hopened.tied.of_same (plans_onOpen _ _) fun c t =>
        ((sameLines_onOpen _ _).timeoutOf c t).mp, fun hup host c hlisted => ?_⟩
      have lines := sameLines_onOpen (LogProxy.setReadyState p s .opened) sock.owner
      exact lines.attended (hopened.attended (lines.shutdown ▸ hup) host c
        (lines.connections ▸ hlisted))
  | socketClosing hget hstate =>
      have fades := fades_setReadyState .closing hget
        (fun _ hclosed => by simp [hclosed] at hstate) fun _ => hstate
      exact h.setReadyState hget fades (by simp)
  | @socketClosed s sock hget _ =>
      have htied : Tied (LogProxy.setReadyState p s .closed) := h.tied.of_same rfl fun _ _ => id
      refine ⟨hwf, htied.scheduleReconnect _, fun hup host c hlisted => ?_⟩
      rw [shutdown_scheduleReconnect] at hup
      rw [connections_scheduleReconnect] at hlisted
      apply attended_scheduleReconnect
      by_cases hc : c = sock.owner
      · exact Or.inr ⟨hc, hc ▸ schedules_of_listed (p := LogProxy.setReadyState p s .closed)
          ((fades_setReadyState .closed hget (fun hne => absurd rfl hne)
            fun hlive => by simp [ReadyState.Live] at hlive).wellFormed h.wf) hup hlisted⟩
      · exact Or.inl (attended_setReadyState hget (h.attended hup host c hlisted) (Or.inr hc))
  | delivered =>
      exact h.same (sameLines_sockets p _ (fun _ => rfl) fun _ => rfl) (samePlans_of_fields rfl rfl)
  | @timerFired t timer hget hpending =>
      have htied : Tied (clearTimer p t) := h.tied.of_same (plans_modify p t) fun _ _ => id
      refine ⟨hwf, htied.connectWebSocket _, fun hup host c hlisted => ?_⟩
      rw [shutdown_connectWebSocket] at hup
      rw [connections_connectWebSocket] at hlisted
      apply attended_connectWebSocket
      by_cases hc : c = timer.conn
      · exact Or.inr ⟨hc, hc ▸ schedules_of_listed (p := clearTimer p t)
          ((fades_clearTimer p t).wellFormed h.wf) hup hlisted⟩
      · rcases h.attended hup host c hlisted with hopen | ⟨t', ht'⟩
        · exact Or.inl (Or.inl hopen)
        · refine Or.inl (Or.inr ⟨t', armed_clearTimer.mpr ⟨?_, ht'⟩⟩)
          rintro rfl
          obtain ⟨timer', hget', hconn, _⟩ := ht'
          exact hc (by rw [← hconn, Option.some.inj (hget'.symm.trans hget)])
  | moduleDestroyed =>
      refine ⟨hwf, ?_, fun _ host c hlisted => by cases hlisted⟩
      have hfold : ∀ (cs : List Nat) (q : Proxy), Tied q → Tied (cs.foldl closeConnection q) := by
        intro cs
        induction cs with
        | nil => exact fun _ => id
        | cons c cs ih => exact fun q hq => ih _ (hq.closeConnection c)
      have htied : Tied { p with isShuttingDown := true } := h.tied.of_same rfl fun _ _ => id
      exact (hfold _ _ htied).of_same rfl fun _ _ => id
  | subscribed => exact h.same (sameLines_subscribeTo _ p _) (samePlans_subscribeTo _ p _)
  | returned => exact h.same (sameLines_iteratorReturn p _ _) (samePlans_iteratorReturn p _ _)
  | thrown => exact h.same (sameLines_of_fields rfl rfl rfl rfl rfl) (samePlans_of_fields rfl rfl)

/-! ### Hosts -/

theorem mem_hostSet {hosts : List String} {host : String} :
    host ∈ (hostSet hosts).keys ↔ host ∈ hosts := by
  have hfold : ∀ (hosts : List String) (set : JsMap String Unit),
      host ∈ (hosts.foldl (fun set host => set.set host ()) set).keys ↔
        host ∈ set.keys ∨ host ∈ hosts := by
    intro hosts
    induction hosts with
    | nil => simp
    | cons other hosts ih =>
        intro set
        rw [List.foldl_cons, ih, JsMap.mem_keys_set, List.mem_cons]
        tauto
  exact (hfold hosts JsMap.empty).trans (by simp)

theorem mem_keys_removeConnection {p : Proxy} {host host' : String} :
    host' ∈ (removeConnection p host).connections.keys ↔
      host' ∈ p.connections.keys ∧ host' ≠ host := by
  unfold removeConnection
  cases hget : p.connections.get host with
  | none =>
      refine ⟨fun h => ⟨h, ?_⟩, And.left⟩
      rintro rfl
      obtain ⟨c, hc⟩ := JsMap.mem_keys.mp h
      simp [hget] at hc
  | some c => simp [JsMap.mem_keys_delete, and_comm]

theorem mem_keys_addConnection {env : Env} {p : Proxy} {host host' : String} :
    host' ∈ (addConnection env p host).connections.keys ↔
      host' ∈ p.connections.keys ∨ host' = host := by
  unfold addConnection
  rw [connections_connectWebSocket]
  exact JsMap.mem_keys_set.trans or_comm

theorem mem_keys_reconcileConnections (env : Env) (p : Proxy) (hosts : List String)
    (host : String) :
    host ∈ (reconcileConnections env p hosts).connections.keys ↔ host ∈ hosts := by
  have hremove : ∀ (stale : List String) (q : Proxy),
      host ∈ (stale.foldl removeConnection q).connections.keys ↔
        host ∈ q.connections.keys ∧ host ∉ stale := by
    intro stale
    induction stale with
    | nil => simp
    | cons other stale ih =>
        intro q
        rw [List.foldl_cons, ih, mem_keys_removeConnection, List.mem_cons]
        tauto
  have hadd : ∀ (fresh : List String) (q : Proxy),
      host ∈ (fresh.foldl (addConnection env) q).connections.keys ↔
        host ∈ q.connections.keys ∨ host ∈ fresh := by
    intro fresh
    induction fresh with
    | nil => simp
    | cons other fresh ih =>
        intro q
        rw [List.foldl_cons, ih, mem_keys_addConnection, List.mem_cons]
        tauto
  unfold reconcileConnections
  rw [hadd, hremove]
  simp only [List.mem_filter, decide_eq_true_eq, mem_hostSet]
  tauto

theorem tended_init : Tended init where
  wf := wellFormed_init
  tied c t := by simp [init, Proxy.TimeoutOf]
  attended _ host c := by simp [init]

/-- In every run a lookup of the hosts leaves exactly these hosts with a connection, and before
the shutdown every connection that is listed has a socket that is not closed or a pending timer. -/
theorem hosts_attended (env : Env) (es : List Event) :
    EachStep (step env) (fun _ e p' =>
      (∀ hosts, e = .discovered hosts → ∀ host, host ∈ p'.connections.keys ↔ host ∈ hosts) ∧
        (p'.isShuttingDown = false →
          ∀ host c, p'.connections.get host = some c → p'.Attended c)) init es := by
  have allowed : EachStep (step env) (fun _ _ _ => True) init es := eachStep_true _ _
  refine eachStep_of_invariant (I := Tended) ?_ tended_init allowed
  intro p e p' h _ hstep
  have h' := h.step hstep
  refine ⟨h', fun hosts heq host => ?_, h'.attended⟩
  subst heq
  cases step_cases hstep with
  | discovered => exact mem_keys_reconcileConnections env _ hosts host

end NestGateway.LogProxy
