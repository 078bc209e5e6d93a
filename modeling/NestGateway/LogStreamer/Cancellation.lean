import NestGateway.LogStreamer.Ownership

/-! # Every stream of a connection is cancelled once

What each statement keeps, whatever the other goroutines do in between, and from
it what a run keeps. A service subscription is done before its containers are
drained, so a stream that its watcher starts in between, or afterwards, is
cancelled from the beginning.
-/

namespace NestGateway.LogStreamer.Goroutines

open Runs

/-- What is already cancelled, by where `Handle` is. -/
def HandlerOk (subs serviceSubs : JsMap String Nat) (done : Nat → Prop) : Handler → Prop
  | .subscribing containerId => subs.get containerId = none
  | .stopping serviceName k stage closeAll =>
      serviceSubs.get serviceName = some k ∧ (stage ≠ .cancelling → done k) ∧
        (closeAll = true → subs.keys = [])
  | .closingServices => subs.keys = []
  | .closed => subs.keys = [] ∧ serviceSubs.keys = []
  | _ => True

theorem HandlerOk.mono {subs serviceSubs : JsMap String Nat} {done done' : Nat → Prop}
    {handler : Handler} (ok : HandlerOk subs serviceSubs done handler)
    (hdone : ∀ k, done k → done' k) : HandlerOk subs serviceSubs done' handler := by
  cases handler with
  | stopping serviceName k stage closeAll =>
      obtain ⟨hname, hstage, hsubs⟩ := ok
      exact ⟨hname, fun hne => hdone k (hstage hne), hsubs⟩
  | subscribing containerId => exact ok
  | closingServices => exact ok
  | closed => exact ok
  | _ => trivial

/-- The context of a service subscription is done. -/
def Conn.Stopped (c : Conn) (k : Nat) : Prop :=
  ∀ sub, c.subscriptions.get k = some sub → c.contexts.Done sub.ctx

structure Inv (c : Conn) : Prop where
  channels : ChannelsOk c.channels c.subs c.streams
  services : ServicesOk c.contexts c.request c.serviceSubs c.subscriptions c.streams
  handler : HandlerOk c.subs c.serviceSubs c.Stopped c.handler

theorem inv_newConn : Inv newConn where
  channels := channelsOk_empty
  services := by
    constructor
    · intro k sub h
      cases h
    · intro k sub h
      cases h
    · intro i s k ctx h
      cases h
    · exact Heap.distinct_empty _
  handler := trivial

theorem Inv.setHandler {c : Conn} (inv : Inv c) {handler : Handler}
    (hok : HandlerOk c.subs c.serviceSubs c.Stopped handler) : Inv (c.setHandler handler) :=
  ⟨inv.channels, inv.services, hok⟩

/-! ## Service subscriptions -/

theorem Inv.cancel {c : Conn} (inv : Inv c) (n : Nat) : Inv (c.cancel n) where
  channels := inv.channels
  services := inv.services.grow (c.contexts.grows_cancel n)
  handler := inv.handler.mono fun _ stopped sub hget =>
    (c.contexts.grows_cancel n).done (stopped sub hget)

theorem Inv.modifySubscription {c : Conn} (inv : Inv c) {k : Nat}
    {f : ServiceSubscription → ServiceSubscription}
    (same : ∀ sub, (f sub).serviceName = sub.serviceName ∧ (f sub).ctx = sub.ctx ∧
      (f sub).cancel = sub.cancel)
    (hkept : ∀ sub id n, c.subscriptions.get k = some sub → n < c.contexts.size →
      sub.containers.get id = some n →
      c.contexts.Called n ∨ (f sub).containers.get id = some n) :
    Inv (c.modifySubscription k f) where
  channels := inv.channels
  services := inv.services.modify same hkept
  handler := by
    refine inv.handler.mono fun j stopped sub' hget => ?_
    rcases Heap.get_of_modify hget with ⟨rfl, sub, hsub, rfl⟩ | ⟨_, hget⟩
    · rw [(same sub).2.1]
      exact stopped sub hsub
    · exact stopped sub' hget

theorem Inv.setMu {c : Conn} (inv : Inv c) (k : Nat) (mu : Bool) : Inv (c.setMu k mu) :=
  inv.modifySubscription (fun _ => ⟨rfl, rfl, rfl⟩) fun _ _ _ _ _ hcontainer => Or.inr hcontainer

theorem Inv.setWatcher {c : Conn} (inv : Inv c) (k : Nat) (watcher : Watcher) :
    Inv (c.setWatcher k watcher) :=
  inv.modifySubscription (fun _ => ⟨rfl, rfl, rfl⟩) fun _ _ _ _ _ hcontainer => Or.inr hcontainer

theorem Inv.withCancel {c : Conn} (inv : Inv c) (parent : Context) :
    Inv { c with contexts := (c.contexts.withCancel parent).2.2 } where
  channels := inv.channels
  services := inv.services.grow (c.contexts.grows_withCancel parent)
  handler := inv.handler.mono fun _ stopped sub hget =>
    (c.contexts.grows_withCancel parent).done (stopped sub hget)

theorem Inv.startContainerStream {c : Conn} (inv : Inv c) (k : Nat) (containerId : String) :
    Inv (Conn.startContainerStream k containerId c) := by
  rw [Conn.startContainerStream]
  cases hsub : c.subscriptions.get k with
  | none => exact inv
  | some sub =>
      by_cases hhas : sub.containers.has containerId = true
      · simp only [hhas, if_true]
        exact inv
      · simp only [hhas]
        have habsent : sub.containers.get containerId = none := JsMap.get_of_not_has hhas
        -- the context of the stream, its entry, and the stream itself
        have hentered := (inv.withCancel sub.ctx).modifySubscription (k := k)
          (f := fun s => { s with containers := s.containers.set containerId c.contexts.size })
          (fun _ => ⟨rfl, rfl, rfl⟩) fun sub' id n hsub' _ hcontainer => by
            obtain rfl := Option.some.inj (hsub.symm.trans hsub')
            refine Or.inr ?_
            rw [JsMap.get_set, if_neg, hcontainer]
            rintro rfl
            rw [habsent] at hcontainer
            cases hcontainer
        have hget : (c.subscriptions.modify k fun s =>
            { s with containers := s.containers.set containerId c.contexts.size }).get k =
              some { sub with containers := sub.containers.set containerId c.contexts.size } :=
          Heap.get_modify_same hsub _
        refine ⟨hentered.channels.go rfl, ?_, hentered.handler⟩
        refine hentered.services.go hget rfl ?_ ?_ fun i t ht hcancel => ?_
        · exact Nat.lt_of_lt_of_eq (Nat.lt_succ_self _) (c.contexts.size_withCancel sub.ctx).symm
        · rw [JsMap.get_set, if_pos rfl]
        · exact Nat.lt_irrefl _ (inv.services.fresh ht hcancel)

theorem Inv.stopContainerStream {c : Conn} (inv : Inv c) (k : Nat) (containerId : String) :
    Inv (Conn.stopContainerStream k containerId c) := by
  rw [Conn.stopContainerStream]
  cases hsub : c.subscriptions.get k with
  | none => exact inv
  | some sub =>
      cases hcontainer : sub.containers.get containerId with
      | none =>
          simp only [hcontainer]
          exact inv
      | some cancelFn =>
          simp only [hcontainer]
          refine (inv.cancel cancelFn).modifySubscription (fun _ => ⟨rfl, rfl, rfl⟩) ?_
          intro sub' id n hsub' hlt hcontainer'
          obtain rfl := Option.some.inj (hsub.symm.trans hsub')
          by_cases hid : id = containerId
          · rw [hid, hcontainer] at hcontainer'
            obtain rfl := Option.some.inj hcontainer'
            rw [Conn.cancel, Contexts.size_cancel] at hlt
            exact Or.inl (Contexts.called_cancel.mpr (Or.inr ⟨rfl, hlt⟩))
          · refine Or.inr ?_
            rw [JsMap.get_delete, if_neg hid, hcontainer']

theorem Inv.underLock {c c' : Conn} (inv : Inv c) {k : Nat} {body : Conn → Conn} {place : Place}
    {place' : Option Place} (hbody : Inv (body c))
    (h : c.underLock k body place = some (c', place')) : Inv c' := by
  cases place with
  | locking =>
      obtain ⟨c'', hlock, heq⟩ := Option.map_eq_some_iff.mp h
      obtain ⟨rfl, _⟩ := Prod.mk.inj heq
      rw [Conn.eq_of_lock hlock]
      exact inv.setMu k true
  | locked =>
      obtain ⟨rfl, _⟩ := Prod.mk.inj (Option.some.inj h)
      exact hbody
  | unlocking =>
      obtain ⟨rfl, _⟩ := Prod.mk.inj (Option.some.inj h)
      exact inv.setMu k false

theorem Inv.subscribed {c : Conn} (inv : Inv c) {containerId : String}
    (habsent : c.subs.get containerId = none) (found : Bool) :
    Inv (c.subscribed containerId found) := by
  rw [Conn.subscribed]
  split
  · exact inv.setHandler trivial
  · exact ⟨inv.channels.subscribe habsent, inv.services.goDirect rfl, trivial⟩

theorem Inv.unsubscribe {c : Conn} (inv : Inv c) (containerId : String)
    (hfree : ∀ subs serviceSubs done, HandlerOk subs serviceSubs done c.handler) :
    Inv (c.unsubscribe containerId) := by
  rw [Conn.unsubscribe]
  cases hcancel : c.subs.get containerId with
  | none => exact inv
  | some cancel => exact ⟨inv.channels.unsubscribe hcancel, inv.services, hfree _ _ _⟩

theorem Inv.subscribeService {c : Conn} (inv : Inv c) (serviceName : String) :
    Inv (c.subscribeService serviceName) := by
  rw [Conn.subscribeService]
  split
  · exact inv
  · exact ⟨inv.channels, inv.services.subscribe (JsMap.get_of_not_has ‹_›), trivial⟩

theorem Inv.unsubscribeService {c : Conn} (inv : Inv c) (serviceName : String) :
    Inv (c.unsubscribeService serviceName) := by
  rw [Conn.unsubscribeService]
  cases hget : c.serviceSubs.get serviceName with
  | none => exact inv
  | some k => exact inv.setHandler ⟨hget, fun hne => absurd rfl hne, nofun⟩

theorem Inv.subscribe {c : Conn} (inv : Inv c) (containerId : String) :
    Inv (c.subscribe containerId) := by
  rw [Conn.subscribe]
  split
  · exact inv
  · exact inv.setHandler (JsMap.get_of_not_has ‹_›)

theorem Inv.handle {c : Conn} (inv : Inv c) (hreading : c.handler = .reading) (msg : Message) :
    Inv (c.handle msg) := by
  rw [Conn.handle]
  split
  · split
    · exact inv
    · exact inv.subscribe msg.containerId
  · split
    · split
      · refine inv.unsubscribe msg.containerId fun _ _ _ => ?_
        rw [hreading]
        trivial
      · exact inv
    · split
      · split
        · exact inv
        · exact inv.subscribeService msg.serviceName
      · split
        · split
          · exact inv.unsubscribeService msg.serviceName
          · exact inv
        · exact inv

/-! ## The goroutine of `Handle` -/

theorem stopped_cancel {c : Conn} (inv : Inv c) {k : Nat} {sub : ServiceSubscription}
    (hsub : c.subscriptions.get k = some sub) : (c.cancel sub.cancel).Stopped k := by
  intro sub' hsub'
  obtain rfl := Option.some.inj (hsub.symm.trans hsub')
  obtain ⟨hctx, hlt⟩ := inv.services.below k sub hsub
  rw [hctx]
  exact Contexts.done_cancel_child hlt c.request

theorem Inv.proceed {c c' : Conn} (inv : Inv c) (h : c.proceed = some c') : Inv c' := by
  rw [Conn.proceed] at h
  have hhandler := inv.handler
  split at h
  next k place containerId rest heq =>
    obtain ⟨⟨c'', place'⟩, hlock, rfl⟩ := Option.map_eq_some_iff.mp h
    have hinv := inv.underLock (inv.startContainerStream k containerId) hlock
    cases place' with
    | none => exact hinv.setHandler trivial
    | some place' => exact hinv.setHandler trivial
  next k place heq =>
    obtain rfl := Option.some.inj h
    exact (inv.setWatcher k .waiting).setHandler trivial
  next serviceName k closeAll heq =>
    rw [heq] at hhandler
    obtain ⟨hname, _, hsubs⟩ := hhandler
    obtain ⟨sub, hsub, rfl⟩ := Option.map_eq_some_iff.mp h
    exact (inv.cancel sub.cancel).setHandler ⟨hname, fun _ => stopped_cancel inv hsub, hsubs⟩
  next serviceName k closeAll heq =>
    obtain ⟨c'', hlock, rfl⟩ := Option.map_eq_some_iff.mp h
    rw [Conn.eq_of_lock hlock]
    have hmu := inv.setMu k true
    obtain ⟨hname, hstopped, hsubs⟩ : HandlerOk _ _ _ (.stopping serviceName k .locking closeAll) :=
      heq ▸ hmu.handler
    exact hmu.setHandler ⟨hname, fun _ => hstopped nofun, hsubs⟩
  next serviceName k closeAll heq =>
    split at h
    next => cases h
    next sub hsub =>
      split at h
      next =>
        obtain rfl := Option.some.inj h
        have hmu := inv.setMu k false
        obtain ⟨hname, hstopped, hsubs⟩ :
            HandlerOk _ _ _ (.stopping serviceName k .draining closeAll) := heq ▸ hmu.handler
        exact hmu.setHandler ⟨hname, fun _ => hstopped nofun, hsubs⟩
      next => cases h
  next serviceName k closeAll heq =>
    rw [heq] at hhandler
    obtain ⟨hname, hstopped, hsubs⟩ := hhandler
    obtain rfl := Option.some.inj h
    refine ⟨inv.channels, inv.services.delete hname (hstopped nofun), ?_⟩
    cases closeAll with
    | false => trivial
    | true => exact hsubs rfl
  next heq =>
    split at h
    next hsubs =>
      obtain rfl := Option.some.inj h
      exact inv.setHandler hsubs
    next => cases h
  next heq =>
    rw [heq] at hhandler
    split at h
    next hserviceSubs =>
      obtain rfl := Option.some.inj h
      exact inv.setHandler ⟨hhandler, hserviceSubs⟩
    next => cases h
  next => cases h

theorem Inv.visit {c c' : Conn} (inv : Inv c) {key : String} (h : c.visit key = some c') :
    Inv c' := by
  rw [Conn.visit] at h
  have hhandler := inv.handler
  split at h
  next k closeAll heq =>
    split at h
    next => cases h
    next sub hsub =>
      split at h
      · obtain rfl := Option.some.inj h
        exact inv.stopContainerStream k key
      · cases h
  next heq =>
    split at h
    · obtain rfl := Option.some.inj h
      refine inv.unsubscribe key fun _ _ _ => ?_
      rw [heq]
      trivial
    · cases h
  next heq =>
    rw [heq] at hhandler
    obtain ⟨k, hk, rfl⟩ := Option.map_eq_some_iff.mp h
    exact inv.setHandler ⟨hk, fun hne => absurd rfl hne, fun _ => hhandler⟩
  next => cases h

/-! ## The other goroutines -/

theorem Inv.take {c c' : Conn} (inv : Inv c) {k : Nat} {evt : ServiceEvent}
    (h : c.take k evt = some c') : Inv c' := by
  rw [Conn.take] at h
  split at h
  next => cases h
  next sub hsub =>
    split at h
    · split at h
      · exact Option.some.inj h ▸ inv
      · obtain rfl := Option.some.inj h
        exact inv.setWatcher k _
    · cases h

theorem Inv.watch {c c' : Conn} (inv : Inv c) {k : Nat} (h : c.watch k = some c') : Inv c' := by
  rw [Conn.watch] at h
  split at h
  next => cases h
  next sub hsub =>
    split at h
    next action containerId place hwatcher =>
      obtain ⟨⟨c'', place'⟩, hlock, rfl⟩ := Option.map_eq_some_iff.mp h
      have hinv : Inv c'' := by
        refine inv.underLock ?_ hlock
        cases action with
        | start => exact inv.startContainerStream k containerId
        | die => exact inv.stopContainerStream k containerId
      cases place' with
      | none => exact hinv.setWatcher k _
      | some place' => exact hinv.setWatcher k _
    next => cases h

theorem Inv.returned {c c' : Conn} (inv : Inv c) {k : Nat} (h : c.returned k = some c') :
    Inv c' := by
  rw [Conn.returned] at h
  split at h
  next => cases h
  next sub hsub =>
    split at h
    · obtain rfl := Option.some.inj h
      exact inv.setWatcher k .returned
    · cases h

theorem Inv.of_streams {c : Conn} (inv : Inv c) {i : Nat} {f : Stream → Stream}
    {channels : Heap Nat} {contexts : Contexts}
    (hchannels : ChannelsOk channels c.subs (c.streams.modify i f))
    (same : ∀ s, c.streams.get i = some s →
      (f s).containerId = s.containerId ∧ (f s).service = s.service)
    (grows : c.contexts.Grows contexts) :
    Inv { c with channels, contexts, streams := c.streams.modify i f } where
  channels := hchannels
  services := (inv.services.grow grows).modifyStream same
  handler := inv.handler.mono fun _ stopped sub hget => grows.done (stopped sub hget)

theorem Inv.prepare {c c' : Conn} (inv : Inv c) {i : Nat} (h : c.prepare i = some c') :
    Inv c' := by
  rw [Conn.prepare] at h
  split at h
  next => cases h
  next s hs =>
    split at h
    next cancel htask =>
      obtain rfl := Option.some.inj h
      refine inv.of_streams ?_ ?_ (c.contexts.grows_withCancel .background)
      · refine inv.channels.modify (fun t ht => ?_) (fun t ht => ?_) fun t ch ht hclose => ?_
        all_goals obtain rfl := Option.some.inj (hs.symm.trans ht)
        · exact ⟨rfl, by simp only [Stream.mapped, htask]⟩
        · exact Or.inl (by simp only [Stream.channel, htask])
        · cases hclose
      · intro t ht
        obtain rfl := Option.some.inj (hs.symm.trans ht)
        exact ⟨rfl, by simp only [Stream.service, htask]⟩
    next k ctx htask =>
      obtain rfl := Option.some.inj h
      have hopen : (c.channels.alloc 0).get c.channels.size = some 0 :=
        c.channels.get_alloc_size 0
      refine inv.of_streams ?_ ?_ (Contexts.Grows.refl c.contexts)
      · refine inv.channels.alloc.modify (fun t ht => ?_) (fun t ht => ?_) fun t ch ht hclose => ?_
        all_goals obtain rfl := Option.some.inj (hs.symm.trans ht)
        · exact ⟨rfl, by simp only [Stream.mapped, htask]⟩
        · exact Or.inr ⟨c.channels.size, rfl, hopen, fun j t hget hch =>
            inv.channels.fresh hget hch rfl⟩
        · simp only [Stream.toClose] at hclose
          split at hclose
          · cases hclose
          · exact Option.some.inj hclose ▸ hopen
      · intro t ht
        obtain rfl := Option.some.inj (hs.symm.trans ht)
        exact ⟨rfl, by simp only [Stream.service, htask]⟩
    next => cases h

theorem Inv.relay {c c' : Conn} (inv : Inv c) {i : Nat} (h : c.relay i = some c') : Inv c' := by
  rw [Conn.relay] at h
  split at h
  next => cases h
  next s hs =>
    split at h
    next => cases h
    next hrelayed =>
      split at h
      next cancel ctxCancel htask =>
        split at h
        next =>
          obtain rfl := Option.some.inj h
          refine inv.of_streams (inv.channels.modify (fun _ _ => ⟨rfl, rfl⟩) (fun _ _ => Or.inl rfl)
            fun t ch ht hclose => ?_) (fun _ _ => ⟨rfl, rfl⟩) (c.contexts.grows_cancel ctxCancel)
          obtain rfl := Option.some.inj (hs.symm.trans ht)
          simp only [Stream.toClose, htask] at hclose
          cases hclose
        next => cases h
      next k ctx cancel htask =>
        split at h
        next =>
          obtain rfl := Option.some.inj h
          refine inv.of_streams (inv.channels.relayed hs ?_) (fun _ _ => ⟨rfl, rfl⟩)
            (Contexts.Grows.refl c.contexts)
          simp only [Stream.toClose, htask]
          rw [if_neg hrelayed]
        next => cases h
      next => cases h

/-! ## Runs -/

theorem Inv.step {c c' : Conn} {e : Event} (inv : Inv c) (h : step c e = some c') : Inv c' := by
  cases e with
  | message msg =>
      simp only [Goroutines.step] at h
      split at h
      next hreading =>
        obtain rfl := Option.some.inj h
        exact inv.handle hreading msg
      next => cases h
  | disconnected =>
      simp only [Goroutines.step] at h
      split at h
      · obtain rfl := Option.some.inj h
        exact inv.setHandler trivial
      · cases h
  | answered found =>
      simp only [Goroutines.step] at h
      split at h
      next containerId heq =>
        obtain rfl := Option.some.inj h
        have habsent : HandlerOk _ _ _ (.subscribing containerId) := heq ▸ inv.handler
        exact inv.subscribed habsent found
      next => cases h
  | listed containers =>
      simp only [Goroutines.step] at h
      split at h
      · obtain rfl := Option.some.inj h
        exact inv.setHandler trivial
      · cases h
  | proceeded => exact inv.proceed h
  | visited key => exact inv.visit h
  | taken k evt => exact inv.take h
  | watched k => exact inv.watch h
  | returned k => exact inv.returned h
  | prepared i => exact inv.prepare h
  | relayed i => exact inv.relay h
  | requestDone =>
      obtain rfl := Option.some.inj h
      exact inv.cancel c.requestCancel

/-- The channel of the stream of a container is in the map until it is closed. -/
theorem Inv.mapped {c : Conn} (inv : Inv c) {i : Nat} {s : Stream} {cancel : Nat}
    {ctxCancel : Option Nat} (hs : c.streams.get i = some s)
    (htask : s.task = .streamLogs cancel ctxCancel) :
    c.Cancelled s ∨ c.subs.get s.containerId = some cancel := by
  have hmapped : s.mapped = some cancel := by simp only [Stream.mapped, htask]
  have hmade := inv.channels.made i s cancel hs (Stream.channel_of_mapped hmapped)
  obtain ⟨n, hn⟩ := Heap.get_of_lt hmade
  rcases Nat.eq_zero_or_pos n with rfl | hpos
  · exact Or.inr (inv.channels.mapped i s cancel hs hmapped hn)
  · refine Or.inl ?_
    simp only [Conn.Cancelled, htask]
    exact ⟨n, hn, hpos⟩

/-- The cancel function of the stream of a container of a service is in its subscription, and the
subscription in the map, until one of them is cancelled. -/
theorem Inv.given {c : Conn} (inv : Inv c) {i k : Nat} {s : Stream} {ctx : Context}
    {cancel : Option Nat} {sub : ServiceSubscription} (hs : c.streams.get i = some s)
    (htask : s.task = .streamServiceLogs k ctx cancel) (hsub : c.subscriptions.get k = some sub) :
    c.Cancelled s ∨ c.serviceSubs.get sub.serviceName = some k ∧ ∃ n, s.cancelFn = some n ∧
      sub.containers.get s.containerId = some n := by
  have hservice : s.service = some (k, ctx) := by simp only [Stream.service, htask]
  obtain ⟨sub', n, hsub', hctx, _, hn⟩ := inv.services.given i s k ctx hs hservice
  obtain rfl := Option.some.inj (hsub.symm.trans hsub')
  rw [hctx] at hservice
  simp only [Conn.Cancelled, htask, hctx, Contexts.done_child]
  rcases hn with hcalled | hcontainer
  · exact Or.inl (Or.inl hcalled)
  · rcases inv.services.known k sub hsub with hdone | hname
    · exact Or.inl (Or.inr hdone)
    · exact Or.inr ⟨hname, n, Stream.cancelFn_child hservice, hcontainer⟩

theorem Inv.sound {c : Conn} (inv : Inv c) : c.Sound where
  closedOnce := inv.channels.closedOnce
  onePerContainer := by
    rintro i j s t hs ht ⟨cancel, ctxCancel, hstask⟩ ⟨cancel', ctxCancel', httask⟩ hid hlive hlive'
    have hmapped := (inv.mapped hs hstask).resolve_left hlive
    have hmapped' := (inv.mapped ht httask).resolve_left hlive'
    rw [hid, hmapped'] at hmapped
    obtain rfl := Option.some.inj hmapped
    refine inv.channels.distinct i j s t cancel' hs ht ?_ ?_
    · simp only [Stream.channel, hstask]
    · simp only [Stream.channel, httask]
  onePerService := by
    rintro i j s t serviceName hs ht ⟨k, ctx, cancel, sub, hstask, hsub, hname⟩
      ⟨k', ctx', cancel', sub', httask, hsub', hname'⟩ hid hlive hlive'
    obtain ⟨hk, n, hn, hcontainer⟩ := (inv.given hs hstask hsub).resolve_left hlive
    obtain ⟨hk', n', hn', hcontainer'⟩ := (inv.given ht httask hsub').resolve_left hlive'
    -- one subscription for the name, one cancel function for the container
    rw [hname] at hk
    rw [hname', hk] at hk'
    obtain rfl := Option.some.inj hk'
    obtain rfl := Option.some.inj (hsub.symm.trans hsub')
    rw [hid, hcontainer'] at hcontainer
    obtain rfl := Option.some.inj hcontainer
    exact inv.services.distinct i j s t n' hs ht hn hn'
  allCancelled := by
    intro hclosed i s hs
    obtain ⟨hsubs, hserviceSubs⟩ : HandlerOk c.subs c.serviceSubs c.Stopped .closed :=
      hclosed ▸ inv.handler
    cases htask : s.task with
    | streamLogs cancel ctxCancel =>
        refine (inv.mapped hs htask).resolve_right fun hmapped => ?_
        rw [JsMap.get_of_keys_nil hsubs] at hmapped
        cases hmapped
    | streamServiceLogs k ctx cancel =>
        have hservice : s.service = some (k, ctx) := by simp only [Stream.service, htask]
        obtain ⟨sub, n, hsub, _⟩ := inv.services.given i s k ctx hs hservice
        refine (inv.given hs htask hsub).resolve_right ?_
        rintro ⟨hname, _⟩
        rw [JsMap.get_of_keys_nil hserviceSubs] at hname
        cases hname

/-- In every run of a connection, whatever its goroutines do in between: no channel is closed
twice, a container has one live stream and one for each service, and once `CloseAll` has returned
every stream is cancelled. -/
theorem cancelled_once (es : List Event) : EachStep step (fun _ _ c => c.Sound) newConn es :=
  eachStep_of_invariant (fun _ _ _ inv _ h => ⟨inv.step h, (inv.step h).sound⟩) inv_newConn
    (eachStep_true newConn es)

/-- A watcher takes an event after `s.cancel()` and starts its stream while `Stop` waits for the
lock, and takes another one when the connection is closed. -/
example :
    (run step newConn
      [.message { type := "subscribe", containerId := "c1" }, .answered true,
        .message { type := "subscribe_service", serviceName := "web" }, .listed ["c2"],
        .proceeded, .proceeded, .proceeded, .proceeded,
        .message { type := "unsubscribe_service", serviceName := "web" }, .proceeded,
        .taken 0 ⟨.start, "c3", "web"⟩, .watched 0, .watched 0, .watched 0,
        .proceeded, .visited "c2", .visited "c3", .proceeded, .proceeded,
        .disconnected, .visited "c1", .proceeded, .proceeded,
        .taken 0 ⟨.start, "c4", "web"⟩, .watched 0, .watched 0]).map
      (fun c => (c.handler, c.streams.size, c.streams.cells.all (c.Cancelled ·))) =
      some (.closed, 4, true) := by
  decide

end NestGateway.LogStreamer.Goroutines
