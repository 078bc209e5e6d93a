import NestGateway.LogProxy.Service

/-! # Counts and viewers

The count of a key against the iterators for it that have not ended. `return`
releases the key on every call and `throw` never does, so the two agree as long
as every iterator ends by its first `return`.
-/

namespace NestGateway.LogProxy

open Runs

def Viewer.liveFor (kind : Kind) (key : String) (viewer : Viewer) : Bool :=
  viewer.kind = kind ∧ viewer.key = key ∧ viewer.ended = false

/-- The iterators of a key that have not ended. -/
def Proxy.live (p : Proxy) (kind : Kind) (key : String) : Nat :=
  p.viewers.count (Viewer.liveFor kind key)

/-- What step from `p` to `p'` has broadcast. -/
def newBroadcasts (p p' : Proxy) : List Request := p'.broadcasts.drop p.broadcasts.length

/-- A count as the map stores it: absent when zero. -/
def stored : Nat → Option Nat
  | 0 => none
  | n + 1 => some (n + 1)

def CountsMatch (p : Proxy) : Prop :=
  ∀ kind key, (p.counts kind).get key = stored (p.live kind key)

/-- After the step every count is exact, and the step has broadcast one unsubscribe for each
key whose last iterator it has ended, and no other. -/
structure ExactStep (p p' : Proxy) : Prop where
  counts : CountsMatch p'
  unsubscribed : ∀ kind key, (newBroadcasts p p').count (unsubscribeRequest kind key) =
    if 0 < p.live kind key ∧ p'.live kind key = 0 then 1 else 0

/-! ## Steps of the connections -/

structure SameViewers (p p' : Proxy) : Prop where
  counts : ∀ kind, p'.counts kind = p.counts kind
  viewers : p'.viewers = p.viewers
  broadcasts : p'.broadcasts = p.broadcasts

theorem SameViewers.refl (p : Proxy) : SameViewers p p := ⟨fun _ => rfl, rfl, rfl⟩

theorem SameViewers.trans {p q r : Proxy} (h : SameViewers p q) (h' : SameViewers q r) :
    SameViewers p r :=
  ⟨fun kind => (h'.counts kind).trans (h.counts kind), h'.viewers.trans h.viewers,
    h'.broadcasts.trans h.broadcasts⟩

theorem sameViewers_with (p : Proxy) (connections : JsMap String Nat) (conns : Heap Connection)
    (sockets : Heap Socket) (timers : Heap Timer) (pendingReconciles : Nat)
    (isShuttingDown : Bool) :
    SameViewers p
      { p with
        connections := connections
        conns := conns
        sockets := sockets
        timers := timers
        pendingReconciles := pendingReconciles
        isShuttingDown := isShuttingDown } :=
  ⟨fun kind => by cases kind <;> rfl, rfl, rfl⟩

theorem sameViewers_foldl {α : Type*} {f : Proxy → α → Proxy} (hf : ∀ p a, SameViewers p (f p a))
    (as : List α) (p : Proxy) : SameViewers p (as.foldl f p) :=
  List.foldlRecOn as f (motive := SameViewers p) (SameViewers.refl p) fun q hq a _ =>
    hq.trans (hf q a)

theorem sameViewers_scheduleReconnect (p : Proxy) (c : Nat) :
    SameViewers p (scheduleReconnect p c) := by
  rw [scheduleReconnect]
  split
  · exact SameViewers.refl p
  · split
    · exact SameViewers.refl p
    · split
      · exact SameViewers.refl p
      · exact sameViewers_with p ..

theorem sameViewers_connectWebSocket (env : Env) (p : Proxy) (c : Nat) :
    SameViewers p (connectWebSocket env p c) := by
  rw [connectWebSocket]
  split
  · exact SameViewers.refl p
  · split
    · exact SameViewers.refl p
    · split
      · exact sameViewers_with p ..
      · exact sameViewers_scheduleReconnect p c

theorem sameViewers_closeConnection (p : Proxy) (c : Nat) :
    SameViewers p (closeConnection p c) := by
  rw [closeConnection]
  split
  · exact SameViewers.refl p
  · exact sameViewers_with p ..

theorem sameViewers_removeConnection (p : Proxy) (host : String) :
    SameViewers p (removeConnection p host) := by
  rw [removeConnection]
  split
  · exact SameViewers.refl p
  · exact (sameViewers_closeConnection p _).trans (sameViewers_with _ ..)

theorem sameViewers_addConnection (env : Env) (p : Proxy) (host : String) :
    SameViewers p (addConnection env p host) :=
  SameViewers.trans (sameViewers_with p ..) (sameViewers_connectWebSocket env _ _)

theorem sameViewers_reconcileConnections (env : Env) (p : Proxy) (hosts : List String) :
    SameViewers p (reconcileConnections env p hosts) :=
  (sameViewers_foldl sameViewers_removeConnection _ p).trans
    (sameViewers_foldl (sameViewers_addConnection env) _ _)

theorem sameViewers_onModuleDestroy (p : Proxy) : SameViewers p (onModuleDestroy p) :=
  SameViewers.trans (sameViewers_with p ..)
    ((sameViewers_foldl sameViewers_closeConnection _ _).trans (sameViewers_with _ ..))

theorem sameViewers_sendOn (p : Proxy) (requests : List Request) (c : Nat) :
    SameViewers p (sendOn p requests c) := by
  rw [sendOn]
  split
  · exact SameViewers.refl p
  · exact sameViewers_with p ..

theorem sameViewers_onOpen (p : Proxy) (c : Nat) : SameViewers p (onOpen p c) :=
  SameViewers.trans (sameViewers_with p ..) (sameViewers_sendOn _ _ c)

theorem SameViewers.live {p p' : Proxy} (h : SameViewers p p') (kind : Kind) (key : String) :
    p'.live kind key = p.live kind key := by
  rw [Proxy.live, Proxy.live, h.viewers]

theorem SameViewers.exactStep {p p' : Proxy} (h : SameViewers p p') (hcounts : CountsMatch p) :
    ExactStep p p' where
  counts kind key := by
    rw [h.counts, h.live]
    exact hcounts kind key
  unsubscribed kind key := by
    rw [newBroadcasts, h.broadcasts, List.drop_length, h.live, if_neg (by omega)]
    rfl

theorem retain_spec {counts : JsMap String Nat} {key : String} {n : Nat}
    (h : counts.get key = stored n) :
    (∀ key', (retainSubscription counts key).1.get key' =
        if key' = key then stored (n + 1) else counts.get key') ∧
      (retainSubscription counts key).2 = (n == 0) := by
  have hn : (counts.get key).getD 0 = n := by
    rw [h]
    cases n <;> rfl
  rw [retainSubscription, hn]
  exact ⟨fun key' => JsMap.get_set _ _ _ _, by simp⟩

theorem release_spec {counts : JsMap String Nat} {key : String} {n : Nat}
    (h : counts.get key = stored n) :
    (∀ key', (releaseSubscription counts key).1.get key' =
        if key' = key then stored (n - 1) else counts.get key') ∧
      (releaseSubscription counts key).2 = (n == 1) := by
  match n, h with
  | 0, h =>
      have hkept : releaseSubscription counts key = (counts, false) := by
        rw [releaseSubscription, h]
        rfl
      rw [hkept]
      refine ⟨fun key' => ?_, rfl⟩
      by_cases heq : key' = key
      · rw [if_pos heq, heq]
        exact h
      · rw [if_neg heq]
  | 1, h =>
      have hgone : releaseSubscription counts key = (counts.delete key, true) := by
        rw [releaseSubscription, h]
        rfl
      rw [hgone]
      exact ⟨fun key' => JsMap.get_delete _ _ _, rfl⟩
  | n + 2, h =>
      have hless : releaseSubscription counts key = (counts.set key (n + 1), false) := by
        rw [releaseSubscription, h]
        rfl
      rw [hless]
      exact ⟨fun key' => JsMap.get_set _ _ _ _, by simp⟩

theorem counts_setCounts (p : Proxy) (kind kind' : Kind) (counts : JsMap String Nat) :
    (p.setCounts kind counts).counts kind' = if kind' = kind then counts else p.counts kind' := by
  cases kind <;> cases kind' <;> rfl

theorem fields_recount (p : Proxy) (kind : Kind) (counts : JsMap String Nat) (wanted : Bool)
    (request : Request) :
    (∀ kind', (broadcastIf wanted (p.setCounts kind counts) request).counts kind' =
        if kind' = kind then counts else p.counts kind') ∧
      (broadcastIf wanted (p.setCounts kind counts) request).viewers = p.viewers ∧
      (broadcastIf wanted (p.setCounts kind counts) request).broadcasts =
        p.broadcasts ++ if wanted then [request] else [] := by
  have hset := fun kind' => counts_setCounts p kind kind' counts
  have hviewers : (p.setCounts kind counts).viewers = p.viewers := by cases kind <;> rfl
  have hbroadcasts : (p.setCounts kind counts).broadcasts = p.broadcasts := by cases kind <;> rfl
  cases wanted with
  | false => exact ⟨hset, hviewers, hbroadcasts.trans (List.append_nil _).symm⟩
  | true =>
      have hsame := sameViewers_foldl (fun q c => sameViewers_sendOn q [request] c)
        (p.setCounts kind counts).connections.values (p.setCounts kind counts)
      refine ⟨fun kind' => ?_, hsame.viewers.trans hviewers, ?_⟩
      · refine Eq.trans ?_ (hset kind')
        rw [← hsame.counts kind']
        cases kind' <;> rfl
      · exact congrArg (· ++ [request]) hbroadcasts

/-! ## Steps of the viewers -/

@[simp] theorem counts_addViewer (p : Proxy) (viewer : Viewer) (kind : Kind) :
    (addViewer p viewer).counts kind = p.counts kind := by
  cases kind <;> rfl

@[simp] theorem counts_finishViewer (p : Proxy) (i : Nat) (kind : Kind) :
    (finishViewer p i).counts kind = p.counts kind := by
  cases kind <;> rfl

theorem subscribe_ne_unsubscribe (kind kind' : Kind) (key key' : String) :
    subscribeRequest kind key ≠ unsubscribeRequest kind' key' := by
  cases kind <;> cases kind' <;> exact fun h => by cases h

theorem unsubscribeRequest_inj {kind kind' : Kind} {key key' : String} :
    unsubscribeRequest kind key = unsubscribeRequest kind' key' ↔ kind = kind' ∧ key = key' := by
  cases kind <;> cases kind' <;> simp [unsubscribeRequest]

theorem newBroadcasts_of_append {p q : Proxy} {requests : List Request}
    (h : q.broadcasts = p.broadcasts ++ requests) : newBroadcasts p q = requests := by
  rw [newBroadcasts, h, List.drop_left]

theorem live_addViewer (p : Proxy) (kind kind' : Kind) (key key' : String) :
    (addViewer p ⟨kind, key, false⟩).live kind' key' =
      p.live kind' key' + if kind' = kind ∧ key' = key then 1 else 0 := by
  rw [Proxy.live, addViewer, Heap.count_alloc]
  simp only [Proxy.live, Viewer.liveFor, and_true, decide_eq_true_iff, eq_comm (a := kind),
    eq_comm (a := key)]

theorem live_finishViewer {p : Proxy} {i : Nat} {viewer : Viewer}
    (hget : p.viewers.get i = some viewer) (kind : Kind) (key : String) :
    (finishViewer p i).live kind key +
        (if viewer.ended = false ∧ kind = viewer.kind ∧ key = viewer.key then 1 else 0) =
      p.live kind key := by
  have hcount := Heap.count_modify hget (fun viewer => { viewer with ended := true })
    (Viewer.liveFor kind key)
  have hend : Viewer.liveFor kind key { viewer with ended := true } = false := by
    simp [Viewer.liveFor]
  have hiff : Viewer.liveFor kind key viewer = true ↔
      viewer.ended = false ∧ kind = viewer.kind ∧ key = viewer.key := by
    simp only [Viewer.liveFor, decide_eq_true_eq, eq_comm (a := kind), eq_comm (a := key)]
    tauto
  simp only [hend, hiff, Bool.false_eq_true, if_false, Nat.add_zero] at hcount
  exact hcount

theorem stored_inj {m n : Nat} : stored m = stored n ↔ m = n := by
  cases m <;> cases n <;> simp [stored]

theorem exactStep_subscribeTo {p : Proxy} (hcounts : CountsMatch p) (kind : Kind) (key : String) :
    ExactStep p (subscribeTo kind p key) := by
  obtain ⟨hretained, _⟩ := retain_spec (hcounts kind key)
  obtain ⟨hfields, hviewers, hsent⟩ := fields_recount p kind
    (retainSubscription (p.counts kind) key).1 (retainSubscription (p.counts kind) key).2
    (subscribeRequest kind key)
  have hlive : ∀ kind' key', (subscribeTo kind p key).live kind' key' =
      p.live kind' key' + if kind' = kind ∧ key' = key then 1 else 0 := by
    intro kind' key'
    rw [subscribeTo, live_addViewer, Proxy.live, hviewers, Proxy.live]
  constructor
  · intro kind' key'
    rw [hlive, subscribeTo, counts_addViewer, hfields]
    by_cases hkind : kind' = kind
    · subst hkind
      rw [if_pos rfl, hretained]
      by_cases hkey : key' = key
      · simp [hkey]
      · simpa [hkey] using hcounts kind' key'
    · simpa [hkind] using hcounts kind' key'
  · intro kind' key'
    have hnew := newBroadcasts_of_append (q := subscribeTo kind p key) hsent
    have hnone : unsubscribeRequest kind' key' ∉ newBroadcasts p (subscribeTo kind p key) := by
      rw [hnew]
      split
      · simpa using (subscribe_ne_unsubscribe kind kind' key key').symm
      · exact List.not_mem_nil
    rw [List.count_eq_zero_of_not_mem hnone, hlive, if_neg]
    omega

/-- `return` is exact on an iterator that has not ended, and on one whose key has none left. -/
theorem exactStep_iteratorReturn {p : Proxy} (hcounts : CountsMatch p) {i : Nat} {viewer : Viewer}
    (hget : p.viewers.get i = some viewer) :
    ExactStep p (iteratorReturn p i viewer) ↔
      viewer.ended = false ∨ p.live viewer.kind viewer.key = 0 := by
  obtain ⟨hreleased, hlast⟩ := release_spec (hcounts viewer.kind viewer.key)
  obtain ⟨hfields, hviewers, hsent⟩ := fields_recount p viewer.kind
    (releaseSubscription (p.counts viewer.kind) viewer.key).1
    (releaseSubscription (p.counts viewer.kind) viewer.key).2
    (unsubscribeRequest viewer.kind viewer.key)
  have hlive : ∀ kind key, (iteratorReturn p i viewer).live kind key +
      (if viewer.ended = false ∧ kind = viewer.kind ∧ key = viewer.key then 1 else 0) =
        p.live kind key := by
    intro kind key
    rw [iteratorReturn, live_finishViewer (hviewers.symm ▸ hget), Proxy.live, hviewers, Proxy.live]
  have hstored : ∀ kind key, ((iteratorReturn p i viewer).counts kind).get key =
      if kind = viewer.kind ∧ key = viewer.key then stored (p.live viewer.kind viewer.key - 1)
      else stored (p.live kind key) := by
    intro kind key
    rw [iteratorReturn, counts_finishViewer, hfields]
    by_cases hkind : kind = viewer.kind
    · rw [if_pos hkind, hreleased, hkind, hcounts]
      simp only [true_and]
    · rw [if_neg hkind, if_neg fun h => hkind h.1]
      exact hcounts kind key
  have hself := hlive viewer.kind viewer.key
  simp only [and_self, and_true] at hself
  constructor
  · intro hexact
    have hmatch := hexact.counts viewer.kind viewer.key
    rw [hstored, if_pos ⟨rfl, rfl⟩, stored_inj] at hmatch
    cases hended : viewer.ended with
    | false => exact Or.inl rfl
    | true =>
        simp only [hended, Bool.true_eq_false, if_false, Nat.add_zero] at hself
        omega
  · intro hallowed
    have hless : (iteratorReturn p i viewer).live viewer.kind viewer.key =
        p.live viewer.kind viewer.key - 1 := by
      rcases hallowed with hended | hnone
      · rw [if_pos hended] at hself
        omega
      · omega
    constructor
    · intro kind key
      rw [hstored]
      split
      next h => rw [h.1, h.2, hless]
      next h => rw [← hlive kind key, if_neg fun hk => h hk.2, Nat.add_zero]
    · intro kind key
      have hnew := newBroadcasts_of_append (q := iteratorReturn p i viewer) hsent
      rw [hnew, hlast]
      have hother := hlive kind key
      by_cases hkey : viewer.kind = kind ∧ viewer.key = key
      · obtain ⟨rfl, rfl⟩ := hkey
        rw [hless]
        by_cases hone : p.live viewer.kind viewer.key = 1
        · simp [hone]
        · have hmore : (p.live viewer.kind viewer.key == 1) = false := by simpa using hone
          simp only [hmore, Bool.false_eq_true, if_false, List.count_nil]
          rw [if_neg (by omega)]
      · rw [if_neg (fun hk => hkey ⟨hk.2.1.symm, hk.2.2.symm⟩), Nat.add_zero] at hother
        have hnone : unsubscribeRequest kind key ∉
            if (p.live viewer.kind viewer.key == 1) = true then
              [unsubscribeRequest viewer.kind viewer.key] else [] := by
          split
          · simpa [unsubscribeRequest_inj, eq_comm] using hkey
          · exact List.not_mem_nil
        rw [List.count_eq_zero_of_not_mem hnone, hother, if_neg (by omega)]

theorem exactStep_iteratorThrow {p : Proxy} (hcounts : CountsMatch p) {i : Nat} {viewer : Viewer}
    (hget : p.viewers.get i = some viewer) :
    ExactStep p (iteratorThrow p i) ↔ viewer.ended = true := by
  have hlive := live_finishViewer hget
  constructor
  · intro hexact
    have hmatch := hexact.counts viewer.kind viewer.key
    rw [iteratorThrow, counts_finishViewer, hcounts, stored_inj] at hmatch
    have hself := hlive viewer.kind viewer.key
    cases hended : viewer.ended with
    | true => rfl
    | false =>
        simp only [hended, and_self, if_true] at hself
        omega
  · intro hended
    simp only [hended, Bool.true_eq_false, false_and, if_false, Nat.add_zero] at hlive
    constructor
    · intro kind key
      rw [iteratorThrow, counts_finishViewer, hcounts, hlive]
    · intro kind key
      have hnew : newBroadcasts p (iteratorThrow p i) = [] :=
        newBroadcasts_of_append (List.append_nil _).symm
      rw [hnew, iteratorThrow, hlive, if_neg (by omega)]
      rfl

/-- When the end of an iterator is counted once: by `return` while it is live, or when
nothing of its key is left to release. -/
def EndAllowed (p : Proxy) : Event → Prop
  | .returned i => ∀ viewer, p.viewers.get i = some viewer →
      viewer.ended = false ∨ p.live viewer.kind viewer.key = 0
  | .thrown i => ∀ viewer, p.viewers.get i = some viewer → viewer.ended = true
  | _ => True

theorem exactStep_iff {env : Env} {p p' : Proxy} {e : Event} (hcounts : CountsMatch p)
    (h : step env p e = some p') : ExactStep p p' ↔ EndAllowed p e := by
  have hsame : ∀ {q : Proxy}, SameViewers p q → (ExactStep p q ↔ True) :=
    fun same => iff_true_intro (same.exactStep hcounts)
  cases step_cases h with
  | reconcile => exact hsame (sameViewers_with p ..)
  | reconcileLate => exact hsame (SameViewers.refl p)
  | @discovered hosts =>
      exact hsame (SameViewers.trans (sameViewers_with p ..)
        (sameViewers_reconcileConnections env _ hosts))
  | discoveryFailed => exact hsame (sameViewers_with p ..)
  | @socketOpened s sock =>
      exact hsame (SameViewers.trans (sameViewers_with p ..) (sameViewers_onOpen _ sock.owner))
  | socketClosing => exact hsame (sameViewers_with p ..)
  | @socketClosed s sock =>
      exact hsame
        (SameViewers.trans (sameViewers_with p ..) (sameViewers_scheduleReconnect _ sock.owner))
  | delivered => exact hsame (sameViewers_with p ..)
  | @timerFired t timer =>
      exact hsame
        (SameViewers.trans (sameViewers_with p ..) (sameViewers_connectWebSocket env _ timer.conn))
  | moduleDestroyed => exact hsame (sameViewers_onModuleDestroy p)
  | @subscribed kind key => exact iff_true_intro (exactStep_subscribeTo hcounts kind key)
  | @returned i viewer hget =>
      rw [exactStep_iteratorReturn hcounts hget, EndAllowed]
      simp only [hget, Option.some.injEq, forall_eq']
  | @thrown i viewer hget =>
      rw [exactStep_iteratorThrow hcounts hget, EndAllowed]
      simp only [hget, Option.some.injEq, forall_eq']

theorem countsMatch_init : CountsMatch init := by
  intro kind key
  cases kind <;> rfl

/-- In a run the counts are exact and an unsubscribe is broadcast exactly when the last viewer
of its key ends, exactly if no live iterator is ended by `throw` and no ended one is returned
again while its key has live ones. -/
theorem exact_counts_iff (env : Env) (es : List Event) :
    EachStep (step env) (fun p _ p' => ExactStep p p') init es ↔
      EachStep (step env) (fun p e _ => EndAllowed p e) init es := by
  refine eachStep_iff (I := CountsMatch) ?_ ?_ countsMatch_init
  · intro p e p' hcounts allowed h
    have hexact := (exactStep_iff hcounts h).mpr allowed
    exact ⟨hexact.counts, hexact⟩
  · intro p e p' hcounts hexact h
    exact (exactStep_iff hcounts h).mp hexact

/-- Two viewers of one container, the first of which is returned twice. -/
def returnedTwice : List Event :=
  [.subscribed .container "web", .subscribed .container "web", .returned 0, .returned 0]

/-- The second viewer is still there, its count is gone and its stream is cancelled. -/
theorem returnedTwice_cuts_off : ∃ p, run (step ⟨4003, fun _ => true⟩) init returnedTwice = some p ∧
    p.live .container "web" = 1 ∧ p.activeSubscriptions.get "web" = none ∧
    p.broadcasts = [.subscribe "web", .unsubscribe "web"] ∧ ¬ CountsMatch p := by
  refine ⟨_, rfl, by decide, by decide, by decide, fun h => ?_⟩
  have hmatch := h .container "web"
  revert hmatch
  decide

end NestGateway.LogProxy
