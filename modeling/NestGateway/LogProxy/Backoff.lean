import NestGateway.LogProxy.Attended

/-! # Delays of reconnection

The delays of the timers of a connection double, from one second up to thirty,
until its socket opens; then they begin anew.
-/

namespace NestGateway.LogProxy

open Runs

/-- The delays that connection `c` waited. -/
def Proxy.waits (p : Proxy) (c : Nat) : List Nat :=
  (p.plans.filter (·.1 = c)).map Prod.snd

/-- Connection `c` waits for the next delays in turn. -/
def Advances (p p' : Proxy) (c : Nat) : Prop :=
  ∃ k, p'.attempts c = p.attempts c + k ∧
    p'.waits c = p.waits c ++ (List.range' (p.attempts c) k).map backoff

theorem SamePlans.advances {p p' : Proxy} (h : SamePlans p p') (c : Nat) : Advances p p' c :=
  ⟨0, by simp [h.attempts], by simp [Proxy.waits, h.plans]⟩

theorem Advances.trans {p q r : Proxy} {c : Nat} (h : Advances p q c) (h' : Advances q r c) :
    Advances p r c := by
  obtain ⟨k, hk, hwaits⟩ := h
  obtain ⟨l, hl, hwaits'⟩ := h'
  refine ⟨k + l, by rw [hl, hk, Nat.add_assoc], ?_⟩
  rw [hwaits', hwaits, hk, List.append_assoc, ← List.map_append, List.range'_append_1]

theorem Advances.refl (p : Proxy) (c : Nat) : Advances p p c := (SamePlans.refl p).advances c

theorem advances_foldl {α : Type*} {f : Proxy → α → Proxy} {c : Nat}
    (hf : ∀ p a, Advances p (f p a) c) (as : List α) (p : Proxy) :
    Advances p (as.foldl f p) c := by
  induction as generalizing p with
  | nil => exact Advances.refl p c
  | cons a as ih => exact (hf p a).trans (ih _)

theorem advances_scheduleReconnect (p : Proxy) (c c' : Nat) :
    Advances p (scheduleReconnect p c) c' := by
  by_cases hs : Schedules p c
  · obtain ⟨hc, heq⟩ := scheduleReconnect_plan hs
    rw [heq]
    by_cases hcc : c' = c
    · subst hcc
      refine ⟨1, by simp [attempts_startTimer hc], ?_⟩
      simp [Proxy.waits, plans_startTimer]
    · refine ⟨0, by simp [attempts_startTimer hc, hcc], ?_⟩
      simp [Proxy.waits, plans_startTimer, Ne.symm hcc]
  · rw [scheduleReconnect_eq hs]
    exact Advances.refl p c'

theorem advances_connectWebSocket (env : Env) (p : Proxy) (c c' : Nat) :
    Advances p (connectWebSocket env p c) c' := by
  rcases connectWebSocket_cases env p c with ⟨_, heq⟩ | ⟨_, heq⟩ | heq <;> rw [heq]
  · exact Advances.refl p c'
  · exact (samePlans_newSocket p c).advances c'
  · exact advances_scheduleReconnect p c c'

theorem advances_addConnection (env : Env) (p : Proxy) (host : String) (c : Nat) :
    Advances p (addConnection env p host) c := by
  have hlist : SamePlans p (listConnection p host) := by
    refine ⟨rfl, fun c => ?_⟩
    simp only [Proxy.attempts, listConnection, Heap.get_alloc]
    by_cases hc : c = p.conns.size
    · subst hc
      simp [Heap.get_size]
    · simp [hc]
  exact (hlist.advances c).trans (advances_connectWebSocket env _ _ c)

theorem advances_reconcileConnections (env : Env) (p : Proxy) (hosts : List String) (c : Nat) :
    Advances p (reconcileConnections env p hosts) c := by
  unfold reconcileConnections
  exact (advances_foldl (fun q host => (samePlans_removeConnection q host).advances c) _ p).trans
    (advances_foldl (fun q host => advances_addConnection env q host c) _ _)

/-- The event opens the socket of connection `c`. -/
def Opens (p : Proxy) (c : Nat) : Event → Prop
  | .socketOpened s => ∃ sock, p.sockets.get s = some sock ∧ sock.owner = c
  | _ => False

/-- What a step does to the delays of a connection that it does not open. -/
theorem advances_step {env : Env} {p p' : Proxy} {e : Event} (h : step env p e = some p') {c : Nat}
    (closed : ¬ Opens p c e) : Advances p p' c := by
  cases step_cases h with
  | reconcile => exact (samePlans_of_fields rfl rfl).advances c
  | reconcileLate => exact Advances.refl p c
  | discovered =>
      have hcount : SamePlans p { p with pendingReconciles := p.pendingReconciles - 1 } :=
        samePlans_of_fields rfl rfl
      exact (hcount.advances c).trans (advances_reconcileConnections env _ _ c)
  | discoveryFailed => exact (samePlans_of_fields rfl rfl).advances c
  | @socketOpened s sock hget _ =>
      have hne : c ≠ sock.owner := fun heq => closed ⟨sock, hget, heq.symm⟩
      refine ((samePlans_setReadyState p s .opened).advances c).trans ⟨0, ?_, ?_⟩
      · simp [attempts_onOpen, hne]
      · simp [Proxy.waits, plans_onOpen]
  | socketClosing => exact (samePlans_setReadyState p _ _).advances c
  | socketClosed =>
      exact ((samePlans_setReadyState p _ _).advances c).trans (advances_scheduleReconnect _ _ c)
  | delivered => exact (samePlans_of_fields rfl rfl).advances c
  | timerFired =>
      exact ((samePlans_clearTimer p _).advances c).trans (advances_connectWebSocket env _ _ c)
  | moduleDestroyed =>
      have hdown : SamePlans p { p with isShuttingDown := true } := samePlans_of_fields rfl rfl
      exact ((hdown.advances c).trans (advances_foldl
        (fun q c' => (samePlans_closeConnection q c').advances c) _ _)).trans
          ((samePlans_of_fields rfl rfl).advances c)
  | subscribed => exact (samePlans_subscribeTo _ p _).advances c
  | returned => exact (samePlans_iteratorReturn p _ _).advances c
  | thrown => exact (samePlans_of_fields rfl rfl).advances c

theorem waits_of_opens {env : Env} {p p' : Proxy} {e : Event} (h : step env p e = some p') {c : Nat}
    (opens : Opens p c e) : p'.attempts c = 0 ∧ p'.waits c = p.waits c := by
  cases step_cases h with
  | @socketOpened s sock hget _ =>
      obtain ⟨sock', hget', rfl⟩ := opens
      obtain rfl := Option.some.inj (hget.symm.trans hget')
      exact ⟨by simp [attempts_onOpen], by
        simp [Proxy.waits, plans_onOpen, (samePlans_setReadyState p s .opened).plans]⟩
  | _ => exact opens.elim

instance (p : Proxy) (c : Nat) (e : Event) : Decidable (Opens p c e) :=
  match e with
  | .socketOpened s =>
      match h : p.sockets.get s with
      | none => isFalse fun ⟨_, hget, _⟩ => by rw [h] at hget; cases hget
      | some sock => decidable_of_iff (sock.owner = c) (by simp [Opens, h])
  | .reconcile | .discovered _ | .discoveryFailed | .socketClosing _ | .socketClosed _
  | .delivered _ | .timerFired _ | .moduleDestroyed | .subscribed _ _ | .returned _
  | .thrown _ => isFalse id

/-- How often the socket of connection `c` opens. -/
def openings (env : Env) (c : Nat) : Proxy → List Event → Nat
  | _, [] => 0
  | p, e :: es =>
      match step env p e with
      | none => 0
      | some p' => (if Opens p c e then 1 else 0) + openings env c p' es

/-- From one opening to the next the delays are the first ones of `backoff`. -/
theorem waits_run {env : Env} {es : List Event} {p p' : Proxy} (h : run (step env) p es = some p')
    {c : Nat} {counts : List Nat}
    (hwaits : p.waits c = (counts ++ [p.attempts c]).flatMap fun n => (List.range n).map backoff) :
    ∃ later, later.length = openings env c p es ∧
      p'.waits c =
        (counts ++ later ++ [p'.attempts c]).flatMap fun n => (List.range n).map backoff := by
  induction es generalizing p counts with
  | nil =>
      obtain rfl := Option.some.inj h
      exact ⟨[], rfl, by simpa using hwaits⟩
  | cons e es ih =>
      obtain ⟨q, hs, hrest⟩ := exists_of_run_cons h
      simp only [openings, hs]
      by_cases hopen : Opens p c e
      · obtain ⟨hzero, hsame⟩ := waits_of_opens hs hopen
        have hbegun : q.waits c = (counts ++ [p.attempts c] ++ [q.attempts c]).flatMap
            fun n => (List.range n).map backoff := by
          simp [hsame, hwaits, hzero]
        obtain ⟨later, hlen, hlater⟩ := ih hrest hbegun
        refine ⟨p.attempts c :: later, by simp [hlen, hopen]; omega, ?_⟩
        simpa using hlater
      · obtain ⟨k, hk, hmore⟩ := advances_step hs hopen
        have hgrown : q.waits c = (counts ++ [q.attempts c]).flatMap
            fun n => (List.range n).map backoff := by
          simp [hmore, hwaits, hk, List.range_add, List.range'_eq_map_range]
        obtain ⟨later, hlen, hlater⟩ := ih hrest hgrown
        exact ⟨later, by simp [hlen, hopen], hlater⟩

theorem backoff_bounds (n : Nat) : baseReconnectMs ≤ backoff n ∧ backoff n ≤ maxReconnectMs := by
  have hpow : 1 ≤ 2 ^ n := Nat.one_le_two_pow
  unfold backoff baseReconnectMs maxReconnectMs
  omega

/-- In every run the delays a connection waited are a first delay and the ones that follow it,
begun anew with each opening of its socket and with nothing else. -/
theorem delays_double (env : Env) (es : List Event) {p : Proxy}
    (h : run (step env) init es = some p) (c : Nat) :
    ∃ counts : List Nat, counts.length = openings env c init es + 1 ∧
      counts.getLast? = some (p.attempts c) ∧
      p.waits c = (counts.flatMap fun n => (List.range n).map backoff) ∧
      ∀ wait ∈ p.waits c, baseReconnectMs ≤ wait ∧ wait ≤ maxReconnectMs := by
  have hinit : init.waits c = ([] ++ [init.attempts c]).flatMap
      fun n => (List.range n).map backoff := rfl
  obtain ⟨later, hlen, hwaits⟩ := waits_run h hinit
  refine ⟨later ++ [p.attempts c], by simp [hlen], by simp, hwaits, fun wait hmem => ?_⟩
  rw [hwaits] at hmem
  obtain ⟨n, _, hmem⟩ := List.mem_flatMap.mp hmem
  obtain ⟨m, _, rfl⟩ := List.mem_map.mp hmem
  exact backoff_bounds m

/-- A connection that is refused twice, opens, and is lost. -/
def lost : List Event :=
  [.reconcile, .discovered ["10.0.0.5"], .socketClosed 0, .timerFired 0, .socketClosed 1,
    .timerFired 1, .socketOpened 2, .socketClosed 2]

theorem delays_double_lost : ∃ p, run (step ⟨4003, fun _ => true⟩) init lost = some p ∧
    p.waits 0 = [1000, 2000, 1000] ∧
    (∃ counts : List Nat, counts.length = 2 ∧ counts.getLast? = some (p.attempts 0) ∧
      p.waits 0 = (counts.flatMap fun n => (List.range n).map backoff) ∧
      ∀ wait ∈ p.waits 0, baseReconnectMs ≤ wait ∧ wait ≤ maxReconnectMs) :=
  ⟨_, rfl, rfl, delays_double ⟨4003, fun _ => true⟩ lost rfl 0⟩

end NestGateway.LogProxy
