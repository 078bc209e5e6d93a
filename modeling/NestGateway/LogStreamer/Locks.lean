import NestGateway.LogStreamer.Cancellation

/-! # The locks of a connection

The lock of a service subscription is held by `Handle` or by the goroutine of
the subscription, which then gives it back whatever the others do.
-/

namespace NestGateway.LogStreamer.Goroutines

open Runs

/-! ## Who holds a lock -/

def Watcher.Holds : Watcher → Prop
  | .handling _ _ place => place ≠ .locking
  | _ => False

def Handler.Holds (k : Nat) : Handler → Prop
  | .starting j place containers => j = k ∧ place ≠ .locking ∧ containers ≠ []
  | .stopping _ j stage _ => j = k ∧ stage = .draining
  | _ => False

/-- `Start` has not come to the goroutine of the subscription. -/
def Handler.Starts (k : Nat) : Handler → Prop
  | .listing j => j = k
  | .starting j _ _ => j = k
  | _ => False

structure LocksOk (c : Conn) : Prop where
  held : ∀ k sub, c.subscriptions.get k = some sub → sub.mu = true →
    c.handler.Holds k ∨ sub.watcher.Holds
  unstarted : ∀ k sub, c.subscriptions.get k = some sub → c.handler.Starts k →
    sub.watcher = .unstarted
  starts : ∀ k, c.handler.Starts k → k < c.subscriptions.size
  listed : ∀ serviceName k, c.serviceSubs.get serviceName = some k → k < c.subscriptions.size

theorem locksOk_newConn : LocksOk newConn where
  held _ _ h := by cases h
  unstarted _ _ h := by cases h
  starts _ h := h.elim
  listed _ _ h := by cases h

theorem LocksOk.of_same {c c' : Conn} (ok : LocksOk c)
    (hsubscriptions : c'.subscriptions = c.subscriptions)
    (hserviceSubs : ∀ name k, c'.serviceSubs.get name = some k → c.serviceSubs.get name = some k)
    (hholds : ∀ k, c.handler.Holds k → c'.handler.Holds k)
    (hstarts : ∀ k, c'.handler.Starts k → c.handler.Starts k) : LocksOk c' where
  held k sub hget hmu := (ok.held k sub (hsubscriptions ▸ hget) hmu).imp_left (hholds k)
  unstarted k sub hget h := ok.unstarted k sub (hsubscriptions ▸ hget) (hstarts k h)
  starts k h := hsubscriptions ▸ ok.starts k (hstarts k h)
  listed name k h := hsubscriptions ▸ ok.listed name k (hserviceSubs name k h)

theorem LocksOk.setHandler {c : Conn} (ok : LocksOk c) {handler : Handler}
    (hholds : ∀ k, c.handler.Holds k → handler.Holds k)
    (hstarts : ∀ k, handler.Starts k → c.handler.Starts k) : LocksOk (c.setHandler handler) :=
  ok.of_same rfl (fun _ _ h => h) hholds hstarts

theorem LocksOk.modify {c : Conn} (ok : LocksOk c) {k : Nat}
    {f : ServiceSubscription → ServiceSubscription} (handler : Handler)
    (hheld : ∀ sub, c.subscriptions.get k = some sub → (f sub).mu = true →
      handler.Holds k ∨ (f sub).watcher.Holds)
    (hunstarted : ∀ sub, c.subscriptions.get k = some sub → handler.Starts k →
      (f sub).watcher = .unstarted)
    (hholds : ∀ j, j ≠ k → c.handler.Holds j → handler.Holds j)
    (hstarts : ∀ j, handler.Starts j → c.handler.Starts j) :
    LocksOk ((c.modifySubscription k f).setHandler handler) where
  held j sub hget hmu := by
    rcases Heap.get_of_modify hget with ⟨rfl, sub', hsub, rfl⟩ | ⟨hne, hsub⟩
    · exact hheld sub' hsub hmu
    · exact (ok.held j sub hsub hmu).imp_left (hholds j hne)
  unstarted j sub hget h := by
    rcases Heap.get_of_modify hget with ⟨rfl, sub', hsub, rfl⟩ | ⟨_, hsub⟩
    · exact hunstarted sub' hsub h
    · exact ok.unstarted j sub hsub (hstarts j h)
  starts j h := by
    have hlt := ok.starts j (hstarts j h)
    rwa [← Heap.size_modify] at hlt
  listed name j h := by
    have hlt := ok.listed name j h
    rwa [← Heap.size_modify] at hlt

/-- A step that gives no lock back and starts no goroutine. -/
theorem LocksOk.keep {c : Conn} (ok : LocksOk c) {k : Nat}
    {f : ServiceSubscription → ServiceSubscription}
    (same : ∀ sub, (f sub).mu = sub.mu ∧ (f sub).watcher = sub.watcher) :
    LocksOk (c.modifySubscription k f) := by
  refine ok.modify c.handler (fun sub hsub hmu => ?_) (fun sub hsub h => ?_)
    (fun _ _ h => h) (fun _ h => h)
  · rw [(same sub).1] at hmu
    rw [(same sub).2]
    exact ok.held k sub hsub hmu
  · rw [(same sub).2]
    exact ok.unstarted k sub hsub h

theorem startContainerStream_same (k : Nat) (containerId : String) (c : Conn) :
    (Conn.startContainerStream k containerId c).handler = c.handler ∧
      (Conn.startContainerStream k containerId c).serviceSubs = c.serviceSubs := by
  rw [Conn.startContainerStream]
  split
  · exact ⟨rfl, rfl⟩
  · split <;> exact ⟨rfl, rfl⟩

theorem stopContainerStream_same (k : Nat) (containerId : String) (c : Conn) :
    (Conn.stopContainerStream k containerId c).handler = c.handler ∧
      (Conn.stopContainerStream k containerId c).serviceSubs = c.serviceSubs := by
  rw [Conn.stopContainerStream]
  split
  · exact ⟨rfl, rfl⟩
  · split <;> exact ⟨rfl, rfl⟩

theorem LocksOk.startContainerStream {c : Conn} (ok : LocksOk c) (k : Nat) (containerId : String) :
    LocksOk (Conn.startContainerStream k containerId c) := by
  rw [Conn.startContainerStream]
  split
  · exact ok
  · split
    · exact ok
    · have hkept := ok.keep (k := k) (f := fun sub =>
        { sub with containers := sub.containers.set containerId c.contexts.size })
        fun _ => ⟨rfl, rfl⟩
      exact hkept.of_same rfl (fun _ _ h => h) (fun _ h => h) (fun _ h => h)

theorem LocksOk.stopContainerStream {c : Conn} (ok : LocksOk c) (k : Nat) (containerId : String) :
    LocksOk (Conn.stopContainerStream k containerId c) := by
  rw [Conn.stopContainerStream]
  split
  · exact ok
  · split
    · exact ok
    · refine LocksOk.keep ?_ fun _ => ⟨rfl, rfl⟩
      exact ok.of_same rfl (fun _ _ h => h) (fun _ h => h) (fun _ h => h)

/-! ## Steps -/

theorem LocksOk.subscribeService {c : Conn} (ok : LocksOk c) (hreading : c.handler = .reading)
    (serviceName : String) : LocksOk (c.subscribeService serviceName) := by
  rw [Conn.subscribeService]
  split
  · exact ok
  · constructor
    · intro k sub hget hmu
      rcases Heap.get_of_alloc hget with ⟨_, rfl⟩ | hget
      · cases hmu
      · refine (ok.held k sub hget hmu).imp_left fun h => ?_
        rw [hreading] at h
        exact h.elim
    · rintro k sub hget rfl
      dsimp only at hget
      rw [Heap.get_alloc_size] at hget
      exact Option.some.inj hget ▸ rfl
    · rintro k rfl
      dsimp only
      rw [Heap.size_alloc]
      exact Nat.lt_succ_self _
    · intro name k h
      dsimp only at h ⊢
      rw [Heap.size_alloc]
      rw [JsMap.get_set] at h
      split at h
      · exact Option.some.inj h ▸ Nat.lt_succ_self _
      · exact Nat.lt_succ_of_lt (ok.listed name k h)

theorem LocksOk.handle {c : Conn} (ok : LocksOk c) (hreading : c.handler = .reading)
    (msg : Message) : LocksOk (c.handle msg) := by
  have hfree : ∀ k, ¬ c.handler.Holds k := by
    rw [hreading]
    exact fun _ h => h
  rw [Conn.handle]
  split
  · split
    · exact ok
    · rw [Conn.subscribe]
      split
      · exact ok
      · exact ok.setHandler (fun k h => absurd h (hfree k)) fun _ h => h.elim
  · split
    · split
      · rw [Conn.unsubscribe]
        split
        · exact ok
        · exact ok.of_same rfl (fun _ _ h => h) (fun _ h => h) fun _ h => h
      · exact ok
    · split
      · split
        · exact ok
        · exact ok.subscribeService hreading msg.serviceName
      · split
        · split
          · rw [Conn.unsubscribeService]
            split
            · exact ok
            · exact ok.setHandler (fun k h => absurd h (hfree k)) fun _ h => h.elim
          · exact ok
        · exact ok

theorem LocksOk.starting {c c' : Conn} (ok : LocksOk c) {k : Nat} {place : Place}
    {containers : List String} (hstarting : c.handler = .starting k place containers)
    (h : c.proceed = some c') : LocksOk c' := by
  have hstarts : ∀ place' rest j, (Handler.starting k place' rest).Starts j →
      c.handler.Starts j := by
    intro place' rest j hj
    rw [hstarting]
    exact hj
  have hothers : ∀ handler : Handler, ∀ j, j ≠ k → c.handler.Holds j → handler.Holds j := by
    intro handler j hne hj
    rw [hstarting] at hj
    exact absurd hj.1.symm hne
  have hidle : ∀ sub, c.subscriptions.get k = some sub → sub.watcher = .unstarted :=
    fun sub hsub => ok.unstarted k sub hsub (hstarting ▸ rfl)
  rw [Conn.proceed, hstarting] at h
  cases containers with
  | nil =>
      obtain rfl := Option.some.inj h
      refine ok.modify _ (fun sub hsub hmu => ?_) (fun _ _ h => h.elim) (hothers _)
        fun _ h => h.elim
      rcases ok.held k sub hsub hmu with hheld | hheld
      · rw [hstarting] at hheld
        exact absurd rfl hheld.2.2
      · rw [hidle sub hsub] at hheld
        exact hheld.elim
  | cons containerId rest =>
      obtain ⟨⟨c'', place'⟩, hlock, rfl⟩ := Option.map_eq_some_iff.mp h
      cases place with
      | locking =>
          obtain ⟨locked, htaken, heq⟩ := Option.map_eq_some_iff.mp hlock
          obtain ⟨rfl, rfl⟩ := Prod.mk.inj heq
          rw [Conn.eq_of_lock htaken]
          exact ok.modify _ (fun _ _ _ => Or.inl ⟨rfl, by decide, List.cons_ne_nil _ _⟩)
            (fun sub hsub _ => hidle sub hsub) (hothers _) (hstarts _ _)
      | locked =>
          obtain ⟨rfl, rfl⟩ := Prod.mk.inj (Option.some.inj hlock)
          have hstarted := ok.startContainerStream k containerId
          have hhandler := (startContainerStream_same k containerId c).1
          refine hstarted.setHandler (fun j hj => ?_) fun j hj => ?_
          · rw [hhandler, hstarting] at hj
            exact ⟨hj.1, by decide, List.cons_ne_nil _ _⟩
          · rw [hhandler]
            exact hstarts _ _ j hj
      | unlocking =>
          obtain ⟨rfl, rfl⟩ := Prod.mk.inj (Option.some.inj hlock)
          exact ok.modify _ (fun _ _ hmu => by cases hmu) (fun sub hsub _ => hidle sub hsub)
            (hothers _) (hstarts _ _)

theorem LocksOk.stopping {c c' : Conn} (ok : LocksOk c) {serviceName : String} {k : Nat}
    {stage : Stopping} {closeAll : Bool}
    (hstopping : c.handler = .stopping serviceName k stage closeAll)
    (h : c.proceed = some c') : LocksOk c' := by
  have hothers : ∀ handler : Handler, ∀ j, j ≠ k → c.handler.Holds j → handler.Holds j := by
    intro handler j hne hj
    rw [hstopping] at hj
    exact absurd hj.1.symm hne
  rw [Conn.proceed, hstopping] at h
  cases stage with
  | cancelling =>
      obtain ⟨sub, _, rfl⟩ := Option.map_eq_some_iff.mp h
      refine LocksOk.setHandler (c := c.cancel sub.cancel) ?_ (fun j hj => ?_) fun _ h => h.elim
      · exact ok.of_same rfl (fun _ _ h => h) (fun _ h => h) fun _ h => h
      · change c.handler.Holds j at hj
        rw [hstopping] at hj
        cases hj.2
  | locking =>
      obtain ⟨c'', hlock, rfl⟩ := Option.map_eq_some_iff.mp h
      rw [Conn.eq_of_lock hlock]
      exact ok.modify _ (fun _ _ _ => Or.inl ⟨rfl, rfl⟩) (fun _ _ h => h.elim) (hothers _)
        fun _ h => h.elim
  | draining =>
      dsimp only at h
      split at h
      next => cases h
      next =>
        split at h
        next =>
          obtain rfl := Option.some.inj h
          exact ok.modify _ (fun _ _ hmu => by cases hmu) (fun _ _ h => h.elim) (hothers _)
            fun _ h => h.elim
        next => cases h
  | deleting =>
      obtain rfl := Option.some.inj h
      refine ok.of_same rfl (fun name j hget => ?_) (fun j hj => ?_) fun j hj => ?_
      · dsimp only at hget
        rw [JsMap.get_delete] at hget
        split at hget
        · cases hget
        · exact hget
      · rw [hstopping] at hj
        cases hj.2
      · cases closeAll <;> exact hj.elim

theorem LocksOk.proceed {c c' : Conn} (ok : LocksOk c) (h : c.proceed = some c') :
    LocksOk c' := by
  cases hhandler : c.handler with
  | starting k place containers => exact ok.starting hhandler h
  | stopping serviceName k stage closeAll => exact ok.stopping hhandler h
  | closingSubs =>
      rw [Conn.proceed, hhandler] at h
      dsimp only at h
      split at h
      · obtain rfl := Option.some.inj h
        refine ok.setHandler (fun j hj => ?_) fun _ h => h.elim
        rw [hhandler] at hj
        exact hj.elim
      · cases h
  | closingServices =>
      rw [Conn.proceed, hhandler] at h
      dsimp only at h
      split at h
      · obtain rfl := Option.some.inj h
        refine ok.setHandler (fun j hj => ?_) fun _ h => h.elim
        rw [hhandler] at hj
        exact hj.elim
      · cases h
  | reading =>
      rw [Conn.proceed, hhandler] at h
      cases h
  | subscribing containerId =>
      rw [Conn.proceed, hhandler] at h
      cases h
  | listing k =>
      rw [Conn.proceed, hhandler] at h
      cases h
  | closed =>
      rw [Conn.proceed, hhandler] at h
      cases h

theorem LocksOk.visit {c c' : Conn} (ok : LocksOk c) {key : String} (h : c.visit key = some c') :
    LocksOk c' := by
  rw [Conn.visit] at h
  split at h
  next k _ _ =>
    split at h
    next => cases h
    next =>
      split at h
      · exact Option.some.inj h ▸ ok.stopContainerStream k key
      · cases h
  next =>
    split at h
    · obtain rfl := Option.some.inj h
      rw [Conn.unsubscribe]
      split
      · exact ok
      · exact ok.of_same rfl (fun _ _ h => h) (fun _ h => h) fun _ h => h
    · cases h
  next hhandler =>
    obtain ⟨k, _, rfl⟩ := Option.map_eq_some_iff.mp h
    refine ok.setHandler (fun j hj => ?_) fun _ h => h.elim
    rw [hhandler] at hj
    exact hj.elim
  next => cases h

theorem LocksOk.setWatcher {c : Conn} (ok : LocksOk c) {k : Nat} {sub : ServiceSubscription}
    (hsub : c.subscriptions.get k = some sub) (hstarted : sub.watcher ≠ .unstarted)
    (hfree : ¬ sub.watcher.Holds) (watcher : Watcher) : LocksOk (c.setWatcher k watcher) := by
  refine ok.modify c.handler (fun sub' hsub' hmu => ?_) (fun sub' hsub' h => ?_)
    (fun _ _ h => h) (fun _ h => h)
  all_goals obtain rfl := Option.some.inj (hsub.symm.trans hsub')
  · exact Or.inl ((ok.held k sub hsub hmu).resolve_right hfree)
  · exact absurd (ok.unstarted k sub hsub h) hstarted

theorem LocksOk.take {c c' : Conn} (ok : LocksOk c) {k : Nat} {evt : ServiceEvent}
    (h : c.take k evt = some c') : LocksOk c' := by
  rw [Conn.take] at h
  split at h
  next => cases h
  next sub hsub =>
    split at h
    next hwaiting =>
      split at h
      · exact Option.some.inj h ▸ ok
      · obtain rfl := Option.some.inj h
        refine ok.setWatcher hsub ?_ ?_ _
        · rw [hwaiting]
          decide
        · rw [hwaiting]
          exact fun h => h
    next => cases h

theorem LocksOk.returned {c c' : Conn} (ok : LocksOk c) {k : Nat} (h : c.returned k = some c') :
    LocksOk c' := by
  rw [Conn.returned] at h
  split at h
  next => cases h
  next sub hsub =>
    split at h
    next hwaiting =>
      obtain rfl := Option.some.inj h
      refine ok.setWatcher hsub ?_ ?_ _
      · rw [hwaiting.1]
        decide
      · rw [hwaiting.1]
        exact fun h => h
    next => cases h

theorem modifySubscription_twice (c : Conn) (k : Nat)
    (f g : ServiceSubscription → ServiceSubscription) :
    (c.modifySubscription k f).modifySubscription k g = c.modifySubscription k (g ∘ f) := by
  simp only [Conn.modifySubscription, Heap.modify, List.modify_modify_eq]

theorem locked_ne_locking : Place.locked ≠ .locking := by decide

theorem unlocking_ne_locking : Place.unlocking ≠ .locking := by decide

/-- What `watchEvents` does under the lock. -/
def handling (action : Action) (k : Nat) (containerId : String) : Conn → Conn :=
  match action with
  | .start => Conn.startContainerStream k containerId
  | .die => Conn.stopContainerStream k containerId

theorem handling_same (action : Action) (k : Nat) (containerId : String) (c : Conn) :
    (handling action k containerId c).handler = c.handler ∧
      (handling action k containerId c).serviceSubs = c.serviceSubs := by
  cases action with
  | start => exact startContainerStream_same k containerId c
  | die => exact stopContainerStream_same k containerId c

theorem LocksOk.handling {c : Conn} (ok : LocksOk c) (action : Action) (k : Nat)
    (containerId : String) : LocksOk (handling action k containerId c) := by
  cases action with
  | start => exact ok.startContainerStream k containerId
  | die => exact ok.stopContainerStream k containerId

theorem watch_handling {c : Conn} {k : Nat} {sub : ServiceSubscription} {action : Action}
    {containerId : String} {place : Place} (hsub : c.subscriptions.get k = some sub)
    (hwatcher : sub.watcher = .handling action containerId place) :
    c.watch k = (c.underLock k (Goroutines.handling action k containerId) place).map
      fun (c', place') =>
        match place' with
        | some place' => c'.setWatcher k (.handling action containerId place')
        | none => c'.setWatcher k .waiting := by
  rw [Conn.watch, hsub]
  dsimp only
  rw [hwatcher]
  cases action <;> rfl

theorem LocksOk.watch {c c' : Conn} (ok : LocksOk c) {k : Nat} (h : c.watch k = some c') :
    LocksOk c' := by
  have hwatch := h
  rw [Conn.watch] at hwatch
  split at hwatch
  next => cases hwatch
  next sub hsub =>
    split at hwatch
    next action containerId place hwatcher =>
      clear hwatch
      have hstarted : ¬ c.handler.Starts k := by
        intro hstarts
        have hidle := ok.unstarted k sub hsub hstarts
        rw [hwatcher] at hidle
        cases hidle
      rw [watch_handling hsub hwatcher] at h
      obtain ⟨⟨c'', place'⟩, hlock, rfl⟩ := Option.map_eq_some_iff.mp h
      cases place with
      | locking =>
          obtain ⟨locked, htaken, heq⟩ := Option.map_eq_some_iff.mp hlock
          obtain ⟨rfl, rfl⟩ := Prod.mk.inj heq
          rw [Conn.eq_of_lock htaken]
          dsimp only
          rw [Conn.setWatcher, Conn.setMu, modifySubscription_twice]
          exact ok.modify c.handler (fun _ _ _ => Or.inr locked_ne_locking)
            (fun _ _ h => absurd h hstarted) (fun _ _ h => h) fun _ h => h
      | locked =>
          obtain ⟨rfl, rfl⟩ := Prod.mk.inj (Option.some.inj hlock)
          have hhandled := ok.handling action k containerId
          refine hhandled.modify (Goroutines.handling action k containerId c).handler
            (fun _ _ _ => Or.inr unlocking_ne_locking) (fun _ _ h => ?_) (fun _ _ h => h)
            fun _ h => h
          rw [(handling_same action k containerId c).1] at h
          exact absurd h hstarted
      | unlocking =>
          obtain ⟨rfl, rfl⟩ := Prod.mk.inj (Option.some.inj hlock)
          dsimp only
          rw [Conn.setWatcher, Conn.setMu, modifySubscription_twice]
          exact ok.modify c.handler (fun _ _ hmu => by cases hmu)
            (fun _ _ h => absurd h hstarted) (fun _ _ h => h) fun _ h => h
    next => cases hwatch

theorem prepare_same {c c' : Conn} {i : Nat} (h : c.prepare i = some c') :
    c'.subscriptions = c.subscriptions ∧ c'.serviceSubs = c.serviceSubs ∧
      c'.handler = c.handler := by
  rw [Conn.prepare] at h
  split at h
  next => cases h
  next =>
    split at h
    next => exact Option.some.inj h ▸ ⟨rfl, rfl, rfl⟩
    next => exact Option.some.inj h ▸ ⟨rfl, rfl, rfl⟩
    next => cases h

theorem relay_same {c c' : Conn} {i : Nat} (h : c.relay i = some c') :
    c'.subscriptions = c.subscriptions ∧ c'.serviceSubs = c.serviceSubs ∧
      c'.handler = c.handler := by
  rw [Conn.relay] at h
  split at h
  next => cases h
  next =>
    dsimp only at h
    split at h
    next => cases h
    next =>
      split at h
      next =>
        split at h
        · exact Option.some.inj h ▸ ⟨rfl, rfl, rfl⟩
        · cases h
      next =>
        split at h
        · exact Option.some.inj h ▸ ⟨rfl, rfl, rfl⟩
        · cases h
      next => cases h

theorem LocksOk.step {c c' : Conn} {e : Event} (ok : LocksOk c) (h : step c e = some c') :
    LocksOk c' := by
  have hframe : ∀ {c' : Conn}, c'.subscriptions = c.subscriptions →
      c'.serviceSubs = c.serviceSubs → c'.handler = c.handler → LocksOk c' := by
    intro c' hsubscriptions hserviceSubs hhandler
    refine ok.of_same hsubscriptions ?_ ?_ ?_
    · rw [hserviceSubs]
      exact fun _ _ h => h
    · rw [hhandler]
      exact fun _ h => h
    · rw [hhandler]
      exact fun _ h => h
  cases e with
  | message msg =>
      simp only [Goroutines.step] at h
      split at h
      next hreading => exact Option.some.inj h ▸ ok.handle hreading msg
      next => cases h
  | disconnected =>
      simp only [Goroutines.step] at h
      split at h
      next hreading =>
        obtain rfl := Option.some.inj h
        refine ok.setHandler (fun j hj => ?_) fun _ h => h.elim
        rw [hreading] at hj
        exact hj.elim
      next => cases h
  | answered found =>
      simp only [Goroutines.step] at h
      split at h
      next containerId hsubscribing =>
        obtain rfl := Option.some.inj h
        have hfree : ∀ j, ¬ c.handler.Holds j := by
          rw [hsubscribing]
          exact fun _ h => h
        rw [Conn.subscribed]
        split
        · exact ok.setHandler (fun j hj => absurd hj (hfree j)) fun _ h => h.elim
        · exact ok.of_same rfl (fun _ _ h => h) (fun j hj => absurd hj (hfree j)) fun _ h => h.elim
      next => cases h
  | listed containers =>
      simp only [Goroutines.step] at h
      split at h
      next k hlisting =>
        obtain rfl := Option.some.inj h
        refine ok.setHandler (fun j hj => ?_) fun j hj => ?_
        · rw [hlisting] at hj
          exact hj.elim
        · rw [hlisting]
          exact hj
      next => cases h
  | proceeded => exact ok.proceed h
  | visited key => exact ok.visit h
  | taken k evt => exact ok.take h
  | watched k => exact ok.watch h
  | returned k => exact ok.returned h
  | prepared i =>
      obtain ⟨hsubscriptions, hserviceSubs, hhandler⟩ := prepare_same h
      exact hframe hsubscriptions hserviceSubs hhandler
  | relayed i =>
      obtain ⟨hsubscriptions, hserviceSubs, hhandler⟩ := relay_same h
      exact hframe hsubscriptions hserviceSubs hhandler
  | requestDone =>
      obtain rfl := Option.some.inj h
      exact hframe rfl rfl rfl

end NestGateway.LogStreamer.Goroutines
