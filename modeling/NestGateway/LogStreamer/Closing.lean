import NestGateway.LogStreamer.Locks

/-! # A connection can be closed

`Stop` and `CloseAll` wait for nothing but locks, and every lock is given back.
So from every state of a connection `Handle` can go on to the end of `CloseAll`.
-/

namespace NestGateway.LogStreamer.Goroutines

open Runs

/-! ## `Handle` goes on -/

structure Live (c : Conn) : Prop where
  inv : Inv c
  locks : LocksOk c

theorem live_newConn : Live newConn := ⟨inv_newConn, locksOk_newConn⟩

theorem Live.step {c c' : Conn} {e : Event} (live : Live c) (h : step c e = some c') : Live c' :=
  ⟨live.inv.step h, live.locks.step h⟩

theorem Live.reaches {c c' : Conn} (live : Live c) (h : Reaches Goroutines.step c c') : Live c' :=
  h.invariant (fun _ _ _ live h => live.step h) live

/-- `Handle` can come to a state. -/
def Comes (c : Conn) (P : Conn → Prop) : Prop := ∃ c', Reaches step c c' ∧ P c'

theorem Comes.now {c : Conn} {P : Conn → Prop} (h : P c) : Comes c P := ⟨c, .refl c, h⟩

theorem Comes.after {c c' : Conn} {e : Event} {P : Conn → Prop} (h : step c e = some c')
    (comes : Comes c' P) : Comes c P := by
  obtain ⟨c'', hreach, hP⟩ := comes
  exact ⟨c'', .head h hreach, hP⟩

theorem Comes.bind {c : Conn} {P Q : Conn → Prop} (live : Live c) (comes : Comes c P)
    (h : ∀ c', Live c' → P c' → Comes c' Q) : Comes c Q := by
  obtain ⟨c', hreach, hP⟩ := comes
  obtain ⟨c'', hreach', hQ⟩ := h c' (live.reaches hreach) hP
  exact ⟨c'', hreach.trans hreach', hQ⟩

theorem Live.exists_stopping {c : Conn} (live : Live c) {serviceName : String} {k : Nat}
    {stage : Stopping} {closeAll : Bool}
    (hstopping : c.handler = .stopping serviceName k stage closeAll) :
    c.serviceSubs.get serviceName = some k ∧ ∃ sub, c.subscriptions.get k = some sub := by
  have hok := live.inv.handler
  rw [hstopping] at hok
  exact ⟨hok.1, Heap.get_of_lt (live.locks.listed serviceName k hok.1)⟩

/-- What `Stop` is called for, while other goroutines go on. -/
def Conn.Stops (c : Conn) (handler : Handler) (serviceSubs : JsMap String Nat) : Prop :=
  c.handler = handler ∧ c.serviceSubs = serviceSubs

theorem comes_unlocked {c : Conn} {k : Nat} {sub : ServiceSubscription} {action : Action}
    {containerId : String} (hsub : c.subscriptions.get k = some sub)
    (hwatcher : sub.watcher = .handling action containerId .unlocking) :
    Comes c fun c' => c'.Stops c.handler c.serviceSubs ∧
      ∃ sub', c'.subscriptions.get k = some sub' ∧ sub'.mu = false := by
  have hstep : step c (.watched k) = some ((c.setMu k false).setWatcher k .waiting) := by
    rw [step, watch_handling hsub hwatcher]
    rfl
  refine .after hstep (.now ⟨⟨rfl, rfl⟩, { sub with mu := false, watcher := .waiting }, ?_, rfl⟩)
  exact Heap.get_modify_same (Heap.get_modify_same hsub _) _

theorem handling_subscription {c : Conn} {k : Nat} {sub : ServiceSubscription}
    (hsub : c.subscriptions.get k = some sub) (action : Action) (containerId : String) :
    ∃ sub', (handling action k containerId c).subscriptions.get k = some sub' := by
  have hstart : ∀ c : Conn, c.subscriptions.get k = some sub →
      ∃ sub', (Conn.startContainerStream k containerId c).subscriptions.get k = some sub' := by
    intro c hsub
    rw [Conn.startContainerStream, hsub]
    dsimp only
    split
    · exact ⟨sub, hsub⟩
    · exact ⟨_, Heap.get_modify_same hsub _⟩
  have hstop : ∀ c : Conn, c.subscriptions.get k = some sub →
      ∃ sub', (Conn.stopContainerStream k containerId c).subscriptions.get k = some sub' := by
    intro c hsub
    rw [Conn.stopContainerStream, hsub]
    dsimp only
    split
    · exact ⟨sub, hsub⟩
    · exact ⟨_, Heap.get_modify_same hsub _⟩
  cases action with
  | start => exact hstart c hsub
  | die => exact hstop c hsub

theorem comes_free {c : Conn} (live : Live c) {serviceName : String} {k : Nat} {closeAll : Bool}
    (hstopping : c.handler = .stopping serviceName k .locking closeAll) :
    Comes c fun c' => c'.Stops c.handler c.serviceSubs ∧
      ∃ sub, c'.subscriptions.get k = some sub ∧ sub.mu = false := by
  obtain ⟨_, sub, hsub⟩ := live.exists_stopping hstopping
  cases hmu : sub.mu with
  | false => exact .now ⟨⟨rfl, rfl⟩, sub, hsub, hmu⟩
  | true =>
      have hholds : sub.watcher.Holds := by
        refine (live.locks.held k sub hsub hmu).resolve_left fun h => ?_
        rw [hstopping] at h
        cases h.2
      cases hwatcher : sub.watcher with
      | handling action containerId place =>
          rw [hwatcher] at hholds
          cases place with
          | locking => exact absurd rfl hholds
          | unlocking => exact comes_unlocked hsub hwatcher
          | locked =>
              obtain ⟨sub', hsub'⟩ := handling_subscription hsub action containerId
              obtain ⟨hhandler, hserviceSubs⟩ := handling_same action k containerId c
              have hstep : step c (.watched k) = some ((handling action k containerId c).setWatcher
                  k (.handling action containerId .unlocking)) := by
                rw [step, watch_handling hsub hwatcher]
                rfl
              rw [← hhandler, ← hserviceSubs]
              exact .after hstep (comes_unlocked (Heap.get_modify_same hsub' _) rfl)
      | unstarted =>
          rw [hwatcher] at hholds
          exact hholds.elim
      | waiting =>
          rw [hwatcher] at hholds
          exact hholds.elim
      | returned =>
          rw [hwatcher] at hholds
          exact hholds.elim

/-! ## `Stop` -/

/-- Where `Handle` goes on after `Stop`. -/
def afterStop (closeAll : Bool) : Handler := if closeAll then .closingServices else .reading

def Conn.containersLeft (c : Conn) (k : Nat) : Nat :=
  (c.subscriptions.get k).elim 0 (·.containers.keys.length)

theorem stopContainerStream_deletes {c : Conn} {k : Nat} {sub : ServiceSubscription}
    (hsub : c.subscriptions.get k = some sub) {key : String} (hkey : key ∈ sub.containers.keys) :
    (Conn.stopContainerStream k key c).subscriptions.get k =
      some { sub with containers := sub.containers.delete key } := by
  obtain ⟨cancelFn, hcancel⟩ := JsMap.mem_keys.mp hkey
  rw [Conn.stopContainerStream, hsub]
  dsimp only
  rw [hcancel]
  exact Heap.get_modify_same hsub _

theorem comes_drained {c : Conn} (live : Live c) {serviceName : String} {k : Nat} {closeAll : Bool}
    (hstopping : c.handler = .stopping serviceName k .draining closeAll) :
    Comes c (·.Stops (.stopping serviceName k .deleting closeAll) c.serviceSubs) := by
  have hloop : ∃ c', Reaches step c c' ∧
      (Live c' ∧ c'.Stops (.stopping serviceName k .draining closeAll) c.serviceSubs) ∧
      ∃ sub, c'.subscriptions.get k = some sub ∧ sub.containers.keys = [] := by
    refine exists_reaches (Conn.containersLeft · k) ?_ ⟨live, hstopping, rfl⟩
    rintro s ⟨hlive, hhandler, hserviceSubs⟩
    obtain ⟨_, sub, hsub⟩ := hlive.exists_stopping hhandler
    cases hkeys : sub.containers.keys with
    | nil => exact Or.inl ⟨sub, hsub, hkeys⟩
    | cons key rest =>
        have hkey : key ∈ sub.containers.keys := hkeys ▸ List.mem_cons_self
        have hstep : step s (.visited key) = some (s.stopContainerStream k key) := by
          rw [step, Conn.visit, hhandler]
          dsimp only
          rw [hsub]
          dsimp only
          rw [if_pos (JsMap.has_iff.mpr hkey)]
        have hsame := stopContainerStream_same k key s
        refine Or.inr ⟨_, .one hstep, ⟨hlive.step hstep, hsame.1.trans hhandler,
          hsame.2.trans hserviceSubs⟩, ?_⟩
        rw [Conn.containersLeft, Conn.containersLeft, stopContainerStream_deletes hsub hkey, hsub]
        exact JsMap.length_keys_delete hkey
  obtain ⟨c', hreach, ⟨_, hhandler, hserviceSubs⟩, sub, hsub, hempty⟩ := hloop
  have hstep : step c' .proceeded = some ((c'.setMu k false).setHandler
      (.stopping serviceName k .deleting closeAll)) := by
    rw [step, Conn.proceed, hhandler]
    dsimp only
    rw [hsub]
    dsimp only
    rw [if_pos hempty]
  exact ⟨_, hreach.trans (.one hstep), rfl, hserviceSubs⟩

/-- `Stop` returns, whoever holds the lock when it is called. -/
theorem comes_stopped {c : Conn} (live : Live c) {serviceName : String} {k : Nat}
    {stage : Stopping} {closeAll : Bool}
    (hstopping : c.handler = .stopping serviceName k stage closeAll) :
    Comes c (·.Stops (afterStop closeAll) (c.serviceSubs.delete serviceName)) := by
  have hdeleting : ∀ c' : Conn, Live c' →
      c'.Stops (.stopping serviceName k .deleting closeAll) c.serviceSubs →
      Comes c' (·.Stops (afterStop closeAll) (c.serviceSubs.delete serviceName)) := by
    rintro c' _ ⟨hhandler, hserviceSubs⟩
    have hstep : step c' .proceeded = some { c' with
        serviceSubs := c'.serviceSubs.delete serviceName
        handler := afterStop closeAll } := by
      rw [step, Conn.proceed, hhandler]
      rfl
    exact .after hstep (.now ⟨rfl, congrArg (·.delete serviceName) hserviceSubs⟩)
  have hdraining : ∀ c' : Conn, Live c' →
      c'.Stops (.stopping serviceName k .draining closeAll) c.serviceSubs →
      Comes c' (·.Stops (afterStop closeAll) (c.serviceSubs.delete serviceName)) := by
    rintro c' hlive ⟨hhandler, hserviceSubs⟩
    exact (comes_drained hlive hhandler).bind hlive (hserviceSubs ▸ hdeleting)
  have hlocking : ∀ c' : Conn, Live c' →
      c'.Stops (.stopping serviceName k .locking closeAll) c.serviceSubs →
      Comes c' (·.Stops (afterStop closeAll) (c.serviceSubs.delete serviceName)) := by
    rintro c' hlive ⟨hhandler, hserviceSubs⟩
    refine (comes_free hlive hhandler).bind hlive ?_
    rintro c'' hlive' ⟨⟨hhandler', hserviceSubs'⟩, sub, hsub, hfree⟩
    rw [hhandler] at hhandler'
    have hstep : step c'' .proceeded = some ((c''.setMu k true).setHandler
        (.stopping serviceName k .draining closeAll)) := by
      rw [step, Conn.proceed, hhandler']
      dsimp only
      rw [Conn.lock, hsub]
      dsimp only
      rw [hfree]
      rfl
    exact .after hstep (hdraining _ (hlive'.step hstep) ⟨rfl, hserviceSubs'.trans hserviceSubs⟩)
  cases stage with
  | deleting => exact hdeleting c live ⟨hstopping, rfl⟩
  | draining => exact hdraining c live ⟨hstopping, rfl⟩
  | locking => exact hlocking c live ⟨hstopping, rfl⟩
  | cancelling =>
      obtain ⟨_, sub, hsub⟩ := live.exists_stopping hstopping
      have hstep : step c .proceeded = some ((c.cancel sub.cancel).setHandler
          (.stopping serviceName k .locking closeAll)) := by
        rw [step, Conn.proceed, hstopping]
        dsimp only
        rw [hsub]
        rfl
      exact .after hstep (hlocking _ (live.step hstep) ⟨rfl, rfl⟩)

theorem comes_subsClosed {c : Conn} (live : Live c) (hclosing : c.handler = .closingSubs) :
    Comes c (·.handler = .closingServices) := by
  have hloop : ∃ c', Reaches step c c' ∧ (Live c' ∧ c'.handler = .closingSubs) ∧
      c'.subs.keys = [] := by
    refine exists_reaches (·.subs.keys.length) ?_ ⟨live, hclosing⟩
    rintro s ⟨hlive, hhandler⟩
    cases hkeys : s.subs.keys with
    | nil => exact Or.inl rfl
    | cons key rest =>
        have hkey : key ∈ s.subs.keys := hkeys ▸ List.mem_cons_self
        obtain ⟨cancel, hcancel⟩ := JsMap.mem_keys.mp hkey
        have hstep : step s (.visited key) =
            some { s.close cancel with subs := s.subs.delete key } := by
          rw [step, Conn.visit, hhandler]
          dsimp only
          rw [if_pos (JsMap.has_iff.mpr hkey), Conn.unsubscribe, hcancel]
        refine Or.inr ⟨_, .one hstep, ⟨hlive.step hstep, hhandler⟩, ?_⟩
        rw [← hkeys]
        exact JsMap.length_keys_delete hkey
  obtain ⟨c', hreach, ⟨_, hhandler⟩, hempty⟩ := hloop
  have hstep : step c' .proceeded = some (c'.setHandler .closingServices) := by
    rw [step, Conn.proceed, hhandler]
    dsimp only
    rw [if_pos hempty]
  exact ⟨_, hreach.trans (.one hstep), rfl⟩

theorem comes_closed {c : Conn} (live : Live c) (hclosing : c.handler = .closingServices) :
    Comes c (·.handler = .closed) := by
  have hloop : ∃ c', Reaches step c c' ∧ (Live c' ∧ c'.handler = .closingServices) ∧
      c'.serviceSubs.keys = [] := by
    refine exists_reaches (·.serviceSubs.keys.length) ?_ ⟨live, hclosing⟩
    rintro s ⟨hlive, hhandler⟩
    cases hkeys : s.serviceSubs.keys with
    | nil => exact Or.inl rfl
    | cons key rest =>
        have hkey : key ∈ s.serviceSubs.keys := hkeys ▸ List.mem_cons_self
        obtain ⟨k, hk⟩ := JsMap.mem_keys.mp hkey
        have hstep : step s (.visited key) =
            some (s.setHandler (.stopping key k .cancelling true)) := by
          rw [step, Conn.visit, hhandler]
          dsimp only
          rw [hk]
          rfl
        have hlive' := hlive.step hstep
        obtain ⟨t, hreach, hdone, hserviceSubs⟩ := comes_stopped hlive' rfl
        refine Or.inr ⟨t, .head hstep hreach, ⟨hlive'.reaches hreach, hdone⟩, ?_⟩
        rw [hserviceSubs, ← hkeys]
        exact JsMap.length_keys_delete hkey
  obtain ⟨c', hreach, ⟨_, hhandler⟩, hempty⟩ := hloop
  have hstep : step c' .proceeded = some (c'.setHandler .closed) := by
    rw [step, Conn.proceed, hhandler]
    dsimp only
    rw [if_pos hempty]
  exact ⟨_, hreach.trans (.one hstep), rfl⟩

/-! ## From every state -/

theorem comes_starting_unlocking {k : Nat} {containerId : String} {rest : List String}
    (hrest : ∀ c, Live c → c.handler = .starting k .locking rest → Comes c (·.handler = .reading))
    {c : Conn} (live : Live c)
    (hstarting : c.handler = .starting k .unlocking (containerId :: rest)) :
    Comes c (·.handler = .reading) := by
  have hstep : step c .proceeded =
      some ((c.setMu k false).setHandler (.starting k .locking rest)) := by
    rw [step, Conn.proceed, hstarting]
    rfl
  exact .after hstep (hrest _ (live.step hstep) rfl)

theorem comes_starting_locked {k : Nat} {containerId : String} {rest : List String}
    (hrest : ∀ c, Live c → c.handler = .starting k .locking rest → Comes c (·.handler = .reading))
    {c : Conn} (live : Live c)
    (hstarting : c.handler = .starting k .locked (containerId :: rest)) :
    Comes c (·.handler = .reading) := by
  have hstep : step c .proceeded = some ((c.startContainerStream k containerId).setHandler
      (.starting k .unlocking (containerId :: rest))) := by
    rw [step, Conn.proceed, hstarting]
    rfl
  exact .after hstep (comes_starting_unlocking hrest (live.step hstep) rfl)

theorem comes_starting_nil {c : Conn} {k : Nat} {place : Place}
    (hstarting : c.handler = .starting k place []) : Comes c (·.handler = .reading) := by
  have hstep : step c .proceeded = some ((c.setWatcher k .waiting).setHandler .reading) := by
    rw [step, Conn.proceed, hstarting]
  exact .after hstep (.now rfl)

theorem comes_started {c : Conn} (live : Live c) {k : Nat} {containers : List String}
    (hstarting : c.handler = .starting k .locking containers) : Comes c (·.handler = .reading) := by
  induction containers generalizing c with
  | nil => exact comes_starting_nil hstarting
  | cons containerId rest ih =>
      have hstarts : c.handler.Starts k := by
        rw [hstarting]
        rfl
      obtain ⟨sub, hsub⟩ := Heap.get_of_lt (live.locks.starts k hstarts)
      have hfree : sub.mu = false := by
        by_contra hmu
        rcases live.locks.held k sub hsub (Bool.not_eq_false _ ▸ hmu) with hheld | hheld
        · rw [hstarting] at hheld
          exact hheld.2.1 rfl
        · rw [live.locks.unstarted k sub hsub hstarts] at hheld
          exact hheld
      have hlock : step c .proceeded = some ((c.setMu k true).setHandler
          (.starting k .locked (containerId :: rest))) := by
        rw [step, Conn.proceed, hstarting]
        dsimp only
        rw [Conn.underLock, Conn.lock, hsub]
        dsimp only
        rw [hfree]
        rfl
      exact .after hlock (comes_starting_locked (fun _ => ih) (live.step hlock) rfl)

theorem comes_reading {c : Conn} (live : Live c) {k : Nat} {place : Place}
    {containers : List String} (hstarting : c.handler = .starting k place containers) :
    Comes c (·.handler = .reading) := by
  cases containers with
  | nil => exact comes_starting_nil hstarting
  | cons containerId rest =>
      cases place with
      | locking => exact comes_started live hstarting
      | locked => exact comes_starting_locked (fun _ hlive => comes_started hlive) live hstarting
      | unlocking =>
          exact comes_starting_unlocking (fun _ hlive => comes_started hlive) live hstarting

theorem closes_reading {c : Conn} (live : Live c) (hreading : c.handler = .reading) :
    Comes c (·.handler = .closed) := by
  have hstep : step c .disconnected = some (c.setHandler .closingSubs) := by
    rw [step, hreading]
  have hlive := live.step hstep
  exact .after hstep ((comes_subsClosed hlive rfl).bind hlive fun _ hlive' hclosing =>
    comes_closed hlive' hclosing)

theorem Live.closes {c : Conn} (live : Live c) : Comes c (·.handler = .closed) := by
  cases hhandler : c.handler with
  | reading => exact closes_reading live hhandler
  | subscribing containerId =>
      have hstep : Goroutines.step c (.answered false) = some (c.setHandler .reading) := by
        rw [Goroutines.step, hhandler]
        rfl
      exact .after hstep (closes_reading (live.step hstep) rfl)
  | listing k =>
      have hstep : Goroutines.step c (.listed []) =
          some (c.setHandler (.starting k .locking [])) := by
        rw [Goroutines.step, hhandler]
      have hlive := live.step hstep
      exact .after hstep ((comes_started hlive rfl).bind hlive fun _ hlive' hreading =>
        closes_reading hlive' hreading)
  | starting k place containers =>
      exact (comes_reading live hhandler).bind live fun _ hlive hreading =>
        closes_reading hlive hreading
  | stopping serviceName k stage closeAll =>
      refine (comes_stopped live hhandler).bind live ?_
      rintro c' hlive ⟨hdone, _⟩
      cases closeAll with
      | false => exact closes_reading hlive hdone
      | true => exact comes_closed hlive hdone
  | closingSubs =>
      exact (comes_subsClosed live hhandler).bind live fun _ hlive hclosing =>
        comes_closed hlive hclosing
  | closingServices => exact comes_closed live hhandler
  | closed => exact .now hhandler

/-- Whatever the goroutines of a connection have done, `Handle` can go on to the end of `CloseAll`,
and every stream is cancelled then. -/
theorem closed_reachable {es : List Event} {c : Conn} (h : run step newConn es = some c) :
    ∃ c', Reaches step c c' ∧ c'.handler = .closed ∧
      ∀ i s, c'.streams.get i = some s → c'.Cancelled s := by
  have hlive := live_newConn.reaches ⟨es, h⟩
  obtain ⟨c', hreach, hclosed⟩ := hlive.closes
  exact ⟨c', hreach, hclosed, (hlive.reaches hreach).inv.sound.allCancelled hclosed⟩

end NestGateway.LogStreamer.Goroutines
