import NestGateway.LogStreamer.Goroutines

/-! # Who cancels a stream

A channel is closed by the one that holds it: the map of the manager for the
stream of a container, the goroutine that passes the cancellation on for the
stream of a service. A service subscription that is not in its map is done, and
with it every stream that is started for it.
-/

namespace NestGateway.LogStreamer.Goroutines

open Runs

namespace Stream

def channel (s : Stream) : Option Nat :=
  match s.task with
  | .streamLogs cancel _ => some cancel
  | .streamServiceLogs _ _ cancel => cancel

/-- The channel that is closed by whoever has it in the map of the manager. -/
def mapped (s : Stream) : Option Nat :=
  match s.task with
  | .streamLogs cancel _ => some cancel
  | .streamServiceLogs _ _ _ => none

/-- The channel that is still to be closed when the context is done. -/
def toClose (s : Stream) : Option Nat :=
  match s.task with
  | .streamLogs _ _ => none
  | .streamServiceLogs _ _ cancel => if s.relayed then none else cancel

/-- The service subscription, and the context it has given. -/
def service (s : Stream) : Option (Nat × Context) :=
  match s.task with
  | .streamLogs _ _ => none
  | .streamServiceLogs k ctx _ => some (k, ctx)

/-- The cancel function of the context that was given. -/
def cancelFn (s : Stream) : Option Nat := s.service.bind (·.2.cancels.head?)

theorem channel_of_mapped {s : Stream} {ch : Nat} (h : s.mapped = some ch) :
    s.channel = some ch := by
  rw [mapped] at h
  rw [channel]
  cases htask : s.task with
  | streamLogs cancel ctxCancel => simpa only [htask] using h
  | streamServiceLogs k ctx cancel => simp only [htask, reduceCtorEq] at h

theorem channel_of_toClose {s : Stream} {ch : Nat} (h : s.toClose = some ch) :
    s.channel = some ch := by
  rw [toClose] at h
  rw [channel]
  cases htask : s.task with
  | streamLogs cancel ctxCancel => simp only [htask, reduceCtorEq] at h
  | streamServiceLogs k ctx cancel =>
      simp only [htask] at h
      split at h
      · cases h
      · exact h

theorem toClose_of_mapped {s : Stream} {ch : Nat} (h : s.mapped = some ch) : s.toClose = none := by
  rw [mapped] at h
  rw [toClose]
  cases htask : s.task with
  | streamLogs cancel ctxCancel => rfl
  | streamServiceLogs k ctx cancel => simp only [htask, reduceCtorEq] at h

theorem cancelFn_child {s : Stream} {k n : Nat} {parent : Context}
    (h : s.service = some (k, .child n parent)) : s.cancelFn = some n := by
  rw [cancelFn, h]
  rfl

end Stream

/-! ## Channels -/

structure ChannelsOk (channels : Heap Nat) (subs : JsMap String Nat) (streams : Heap Stream) :
    Prop where
  closedOnce : ∀ ch n, channels.get ch = some n → n ≤ 1
  made : ∀ i s ch, streams.get i = some s → s.channel = some ch → ch < channels.size
  distinct : streams.Distinct Stream.channel
  /-- What is in the map is open and the channel of a stream. -/
  held : ∀ id ch, subs.get id = some ch → channels.get ch = some 0 ∧
    ∃ i s, streams.get i = some s ∧ s.containerId = id ∧ s.mapped = some ch
  /-- What is open is in the map. -/
  mapped : ∀ i s ch, streams.get i = some s → s.mapped = some ch → channels.get ch = some 0 →
    subs.get s.containerId = some ch
  toClose : ∀ i s ch, streams.get i = some s → s.toClose = some ch → channels.get ch = some 0

section Channels

variable {channels : Heap Nat} {subs : JsMap String Nat} {streams : Heap Stream}

theorem channelsOk_empty : ChannelsOk Heap.empty JsMap.empty Heap.empty where
  closedOnce ch n h := by
    rw [Heap.get_empty] at h
    cases h
  made i s ch h := by
    rw [Heap.get_empty] at h
    cases h
  distinct := Heap.distinct_empty _
  held id ch h := by
    rw [JsMap.get_empty] at h
    cases h
  mapped i s ch h := by
    rw [Heap.get_empty] at h
    cases h
  toClose i s ch h := by
    rw [Heap.get_empty] at h
    cases h

theorem ChannelsOk.fresh (ok : ChannelsOk channels subs streams) {i : Nat} {s : Stream} {ch : Nat}
    (hget : streams.get i = some s) (hch : s.channel = some ch) : ch ≠ channels.size :=
  Nat.ne_of_lt (ok.made i s ch hget hch)

theorem ChannelsOk.alloc (ok : ChannelsOk channels subs streams) :
    ChannelsOk (channels.alloc 0) subs streams where
  closedOnce ch n h := by
    rcases Heap.get_of_alloc h with ⟨_, rfl⟩ | h
    · exact Nat.zero_le 1
    · exact ok.closedOnce ch n h
  made i s ch hget hch := by
    rw [Heap.size_alloc]
    exact Nat.lt_succ_of_lt (ok.made i s ch hget hch)
  distinct := ok.distinct
  held id ch h := by
    obtain ⟨hopen, hstream⟩ := ok.held id ch h
    exact ⟨Heap.get_alloc_of_get hopen 0, hstream⟩
  mapped i s ch hget hch hopen := by
    rw [Heap.get_alloc, if_neg (ok.fresh hget (Stream.channel_of_mapped hch))] at hopen
    exact ok.mapped i s ch hget hch hopen
  toClose i s ch hget hch := Heap.get_alloc_of_get (ok.toClose i s ch hget hch) 0

theorem ChannelsOk.go (ok : ChannelsOk channels subs streams) {s : Stream}
    (hnone : s.channel = none) : ChannelsOk channels subs (streams.alloc s) := by
  have hmapped : ∀ ch, s.mapped ≠ some ch := fun ch h => by
    have h := Stream.channel_of_mapped h
    rw [hnone] at h
    cases h
  have hclose : ∀ ch, s.toClose ≠ some ch := fun ch h => by
    have h := Stream.channel_of_toClose h
    rw [hnone] at h
    cases h
  constructor
  · exact ok.closedOnce
  · intro i t ch hget hch
    rcases Heap.get_of_alloc hget with ⟨_, rfl⟩ | hget
    · rw [hnone] at hch
      cases hch
    · exact ok.made i t ch hget hch
  · refine ok.distinct.alloc fun _ _ _ _ _ => ?_
    rw [hnone]
    exact nofun
  · intro id ch h
    obtain ⟨hopen, i, t, hget, ht⟩ := ok.held id ch h
    exact ⟨hopen, i, t, Heap.get_alloc_of_get hget s, ht⟩
  · intro i t ch hget hch
    rcases Heap.get_of_alloc hget with ⟨_, rfl⟩ | hget
    · exact absurd hch (hmapped ch)
    · exact ok.mapped i t ch hget hch
  · intro i t ch hget hch
    rcases Heap.get_of_alloc hget with ⟨_, rfl⟩ | hget
    · exact absurd hch (hclose ch)
    · exact ok.toClose i t ch hget hch

theorem ChannelsOk.subscribe (ok : ChannelsOk channels subs streams) {containerId : String}
    (habsent : subs.get containerId = none) :
    ChannelsOk (channels.alloc 0) (subs.set containerId channels.size)
      (streams.alloc { containerId, task := .streamLogs channels.size none }) := by
  have hopen : (channels.alloc 0).get channels.size = some 0 := channels.get_alloc_size 0
  constructor
  · exact ok.alloc.closedOnce
  · intro i t ch hget hch
    rcases Heap.get_of_alloc hget with ⟨_, rfl⟩ | hget
    · obtain rfl := Option.some.inj hch
      exact Heap.lt_size hopen
    · exact ok.alloc.made i t ch hget hch
  · refine ok.distinct.alloc fun i t ch hget hch hnew => ?_
    exact ok.fresh hget hch (Option.some.inj hnew).symm
  · intro id ch h
    rw [JsMap.get_set] at h
    split at h
    next hid =>
      obtain rfl := Option.some.inj h
      exact ⟨hopen, streams.size, _, streams.get_alloc_size _, hid.symm, rfl⟩
    next =>
      obtain ⟨hopen', i, t, hget, ht⟩ := ok.alloc.held id ch h
      exact ⟨hopen', i, t, Heap.get_alloc_of_get hget _, ht⟩
  · intro i t ch hget hch hopen'
    rw [JsMap.get_set]
    rcases Heap.get_of_alloc hget with ⟨_, rfl⟩ | hget
    · rw [if_pos rfl]
      exact hch
    · have hmapped := ok.alloc.mapped i t ch hget hch hopen'
      rw [if_neg, hmapped]
      rintro hid
      rw [hid, habsent] at hmapped
      cases hmapped
  · intro i t ch hget hch
    rcases Heap.get_of_alloc hget with ⟨_, rfl⟩ | hget
    · cases hch
    · exact ok.alloc.toClose i t ch hget hch

theorem ChannelsOk.modify (ok : ChannelsOk channels subs streams) {i : Nat} {f : Stream → Stream}
    (same : ∀ s, streams.get i = some s → (f s).containerId = s.containerId ∧
      (f s).mapped = s.mapped)
    (hchannel : ∀ s, streams.get i = some s → (f s).channel = s.channel ∨
      ∃ ch, (f s).channel = some ch ∧ channels.get ch = some 0 ∧
        ∀ j t, streams.get j = some t → t.channel ≠ some ch)
    (hclose : ∀ s ch, streams.get i = some s → (f s).toClose = some ch →
      channels.get ch = some 0) :
    ChannelsOk channels subs (streams.modify i f) := by
  constructor
  · exact ok.closedOnce
  · intro j t ch hget hch
    rcases Heap.get_of_modify hget with ⟨_, s, hs, rfl⟩ | ⟨_, hget⟩
    · rcases hchannel s hs with hsame | ⟨ch', hch', hopen, _⟩
      · exact ok.made i s ch hs (hsame ▸ hch)
      · obtain rfl := Option.some.inj (hch'.symm.trans hch)
        exact Heap.lt_size hopen
    · exact ok.made j t ch hget hch
  · refine ok.distinct.modify fun s hs => ?_
    rcases hchannel s hs with hsame | ⟨ch, hch, _, hfresh⟩
    · exact Or.inl hsame
    · refine Or.inr fun j t ch' hget hch' hnew => hfresh j t hget ?_
      rw [hch', ← hnew, hch]
  · intro id ch h
    obtain ⟨hopen, j, t, hget, hid, ht⟩ := ok.held id ch h
    by_cases hj : j = i
    · subst hj
      obtain ⟨hid', ht'⟩ := same t hget
      exact ⟨hopen, j, f t, Heap.get_modify_same hget f, hid'.trans hid, ht'.trans ht⟩
    · exact ⟨hopen, j, t, (Heap.get_modify_of_ne hj streams f).trans hget, hid, ht⟩
  · intro j t ch hget hch hopen
    rcases Heap.get_of_modify hget with ⟨_, s, hs, rfl⟩ | ⟨_, hget⟩
    · obtain ⟨hid, hmapped⟩ := same s hs
      rw [hid]
      exact ok.mapped i s ch hs (hmapped.symm.trans hch) hopen
    · exact ok.mapped j t ch hget hch hopen
  · intro j t ch hget hch
    rcases Heap.get_of_modify hget with ⟨_, s, hs, rfl⟩ | ⟨_, hget⟩
    · exact hclose s ch hs hch
    · exact ok.toClose j t ch hget hch

/-- A channel is closed and its holder gives it up. -/
theorem ChannelsOk.close (ok : ChannelsOk channels subs streams) {ch : Nat}
    (hopen : channels.get ch = some 0) {subs' : JsMap String Nat}
    (hsubs : ∀ id ch', subs'.get id = some ch' ↔ subs.get id = some ch' ∧ ch' ≠ ch)
    (hclose : ∀ i s, streams.get i = some s → s.toClose ≠ some ch) :
    ChannelsOk (channels.modify ch (· + 1)) subs' streams := by
  have hother : ∀ ch', ch' ≠ ch → (channels.modify ch (· + 1)).get ch' = channels.get ch' :=
    fun ch' hne => Heap.get_modify_of_ne hne channels _
  have hclosed : (channels.modify ch (· + 1)).get ch = some 1 := Heap.get_modify_same hopen _
  constructor
  · intro ch' n h
    by_cases hne : ch' = ch
    · rw [hne, hclosed] at h
      exact Nat.le_of_eq (Option.some.inj h).symm
    · exact ok.closedOnce ch' n (hother ch' hne ▸ h)
  · intro i s ch' hget hch
    rw [Heap.size_modify]
    exact ok.made i s ch' hget hch
  · exact ok.distinct
  · intro id ch' h
    obtain ⟨h, hne⟩ := (hsubs id ch').mp h
    rw [hother ch' hne]
    exact ok.held id ch' h
  · intro i s ch' hget hch hopen'
    have hne : ch' ≠ ch := by
      rintro rfl
      rw [hclosed] at hopen'
      cases hopen'
    rw [hother ch' hne] at hopen'
    exact (hsubs _ _).mpr ⟨ok.mapped i s ch' hget hch hopen', hne⟩
  · intro i s ch' hget hch
    have hne : ch' ≠ ch := fun heq => hclose i s hget (heq ▸ hch)
    rw [hother ch' hne]
    exact ok.toClose i s ch' hget hch

theorem ChannelsOk.unsubscribe (ok : ChannelsOk channels subs streams) {containerId : String}
    {ch : Nat} (h : subs.get containerId = some ch) :
    ChannelsOk (channels.modify ch (· + 1)) (subs.delete containerId) streams := by
  obtain ⟨hopen, i, s, hs, hid, hmapped⟩ := ok.held containerId ch h
  refine ok.close hopen (fun id ch' => ?_) fun j t ht hclose => ?_
  · rw [JsMap.get_delete]
    by_cases hsame : id = containerId
    · rw [if_pos hsame, hsame, h]
      refine ⟨nofun, fun ⟨heq, hne⟩ => absurd (Option.some.inj heq).symm hne⟩
    · rw [if_neg hsame]
      refine ⟨fun h' => ⟨h', ?_⟩, And.left⟩
      -- the channel belongs to one stream, and the stream to one container
      rintro rfl
      obtain ⟨_, j, t, ht, hid', hmapped'⟩ := ok.held id ch' h'
      obtain rfl := ok.distinct i j s t ch' hs ht (Stream.channel_of_mapped hmapped)
        (Stream.channel_of_mapped hmapped')
      obtain rfl := Option.some.inj (hs.symm.trans ht)
      exact hsame (hid'.symm.trans hid)
  · obtain rfl := ok.distinct i j s t ch hs ht (Stream.channel_of_mapped hmapped)
      (Stream.channel_of_toClose hclose)
    obtain rfl := Option.some.inj (hs.symm.trans ht)
    rw [Stream.toClose_of_mapped hmapped] at hclose
    cases hclose

theorem ChannelsOk.relayed (ok : ChannelsOk channels subs streams) {i ch : Nat} {s : Stream}
    (hs : streams.get i = some s) (h : s.toClose = some ch) :
    ChannelsOk (channels.modify ch (· + 1)) subs
      (streams.modify i fun s => { s with relayed := true }) := by
  have hnone : ∀ s : Stream, { s with relayed := true }.toClose = none := by
    rintro ⟨id, task, relayed⟩
    cases task with
    | streamLogs cancel ctxCancel => rfl
    | streamServiceLogs k ctx cancel => rfl
  have hmodified : ChannelsOk channels subs
      (streams.modify i fun s => { s with relayed := true }) := by
    refine ok.modify (fun s _ => ⟨rfl, rfl⟩) (fun s _ => Or.inl rfl) fun s ch _ hclose => ?_
    rw [hnone] at hclose
    cases hclose
  refine hmodified.close (ok.toClose i s ch hs h) (fun id ch' => ?_) fun j t ht hclose => ?_
  · refine ⟨fun h' => ⟨h', ?_⟩, And.left⟩
    rintro rfl
    obtain ⟨_, j, t, ht, _, hmapped'⟩ := ok.held id ch' h'
    obtain rfl := ok.distinct i j s t ch' hs ht (Stream.channel_of_toClose h)
      (Stream.channel_of_mapped hmapped')
    obtain rfl := Option.some.inj (hs.symm.trans ht)
    rw [Stream.toClose_of_mapped hmapped'] at h
    cases h
  · rcases Heap.get_of_modify ht with ⟨_, s', _, rfl⟩ | ⟨hne, ht⟩
    · rw [hnone] at hclose
      cases hclose
    · exact hne (ok.distinct j i t s ch ht hs (Stream.channel_of_toClose hclose)
        (Stream.channel_of_toClose h))

end Channels

/-! ## Service subscriptions -/

structure ServicesOk (contexts : Contexts) (request : Context) (serviceSubs : JsMap String Nat)
    (subscriptions : Heap ServiceSubscription) (streams : Heap Stream) : Prop where
  below : ∀ k sub, subscriptions.get k = some sub →
    sub.ctx = .child sub.cancel request ∧ sub.cancel < contexts.size
  /-- A subscription that is not in the map is done. -/
  known : ∀ k sub, subscriptions.get k = some sub →
    contexts.Done sub.ctx ∨ serviceSubs.get sub.serviceName = some k
  /-- A stream whose cancel function was not called is the one of its container. -/
  given : ∀ i s k ctx, streams.get i = some s → s.service = some (k, ctx) →
    ∃ sub n, subscriptions.get k = some sub ∧ ctx = .child n sub.ctx ∧ n < contexts.size ∧
      (contexts.Called n ∨ sub.containers.get s.containerId = some n)
  distinct : streams.Distinct Stream.cancelFn

section Services

variable {contexts : Contexts} {request : Context} {serviceSubs : JsMap String Nat}
  {subscriptions : Heap ServiceSubscription} {streams : Heap Stream}

theorem ServicesOk.fresh (ok : ServicesOk contexts request serviceSubs subscriptions streams)
    {i n : Nat} {s : Stream} (hget : streams.get i = some s) (h : s.cancelFn = some n) :
    n < contexts.size := by
  cases hservice : s.service with
  | none =>
      rw [Stream.cancelFn, hservice] at h
      cases h
  | some given =>
      obtain ⟨sub, m, _, hctx, hlt, _⟩ := ok.given i s given.1 given.2 hget hservice
      rw [Stream.cancelFn, hservice, Option.bind_some, hctx] at h
      exact Option.some.inj h ▸ hlt

theorem ServicesOk.grow (ok : ServicesOk contexts request serviceSubs subscriptions streams)
    {contexts' : Contexts} (grows : contexts.Grows contexts') :
    ServicesOk contexts' request serviceSubs subscriptions streams where
  below k sub h := by
    obtain ⟨hctx, hlt⟩ := ok.below k sub h
    exact ⟨hctx, Nat.lt_of_lt_of_le hlt grows.size⟩
  known k sub h := (ok.known k sub h).imp_left grows.done
  given i s k ctx hget hservice := by
    obtain ⟨sub, n, hsub, hctx, hlt, hn⟩ := ok.given i s k ctx hget hservice
    exact ⟨sub, n, hsub, hctx, Nat.lt_of_lt_of_le hlt grows.size, hn.imp_left (grows.called n)⟩
  distinct := ok.distinct

/-- A container leaves a subscription only once its cancel function was called. -/
theorem ServicesOk.modify (ok : ServicesOk contexts request serviceSubs subscriptions streams)
    {k : Nat} {f : ServiceSubscription → ServiceSubscription}
    (same : ∀ sub, (f sub).serviceName = sub.serviceName ∧ (f sub).ctx = sub.ctx ∧
      (f sub).cancel = sub.cancel)
    (hkept : ∀ sub id n, subscriptions.get k = some sub → n < contexts.size →
      sub.containers.get id = some n →
      contexts.Called n ∨ (f sub).containers.get id = some n) :
    ServicesOk contexts request serviceSubs (subscriptions.modify k f) streams where
  below j sub h := by
    rcases Heap.get_of_modify h with ⟨_, old, hold, rfl⟩ | ⟨_, h⟩
    · obtain ⟨_, hctx, hcancel⟩ := same old
      rw [hctx, hcancel]
      exact ok.below k old hold
    · exact ok.below j sub h
  known j sub h := by
    rcases Heap.get_of_modify h with ⟨rfl, old, hold, rfl⟩ | ⟨_, h⟩
    · obtain ⟨hname, hctx, _⟩ := same old
      rw [hctx, hname]
      exact ok.known j old hold
    · exact ok.known j sub h
  given i s j ctx hget hservice := by
    obtain ⟨sub, n, hsub, hctx, hlt, hn⟩ := ok.given i s j ctx hget hservice
    by_cases hj : j = k
    · subst hj
      refine ⟨f sub, n, Heap.get_modify_same hsub f, ?_, hlt, ?_⟩
      · rw [(same sub).2.1, hctx]
      · rcases hn with hcalled | hcontainer
        · exact Or.inl hcalled
        · exact hkept sub s.containerId n hsub hlt hcontainer
    · exact ⟨sub, n, (Heap.get_modify_of_ne hj subscriptions f).trans hsub, hctx, hlt, hn⟩
  distinct := ok.distinct

theorem ServicesOk.goDirect (ok : ServicesOk contexts request serviceSubs subscriptions streams)
    {s : Stream} (hnone : s.service = none) :
    ServicesOk contexts request serviceSubs subscriptions (streams.alloc s) where
  below := ok.below
  known := ok.known
  given i t k ctx hget hservice := by
    rcases Heap.get_of_alloc hget with ⟨_, rfl⟩ | hget
    · rw [hnone] at hservice
      cases hservice
    · exact ok.given i t k ctx hget hservice
  distinct := by
    refine ok.distinct.alloc fun _ _ _ _ _ h => ?_
    rw [Stream.cancelFn, hnone] at h
    cases h

/-- The stream of a container of a service, with a context that no stream has. -/
theorem ServicesOk.go (ok : ServicesOk contexts request serviceSubs subscriptions streams)
    {s : Stream} {k n : Nat} {sub : ServiceSubscription} (hsub : subscriptions.get k = some sub)
    (hservice : s.service = some (k, .child n sub.ctx)) (hlt : n < contexts.size)
    (hcontainer : sub.containers.get s.containerId = some n)
    (hfresh : ∀ i t, streams.get i = some t → t.cancelFn ≠ some n) :
    ServicesOk contexts request serviceSubs subscriptions (streams.alloc s) where
  below := ok.below
  known := ok.known
  given i t j ctx hget ht := by
    rcases Heap.get_of_alloc hget with ⟨_, rfl⟩ | hget
    · obtain ⟨rfl, rfl⟩ := Prod.mk.inj (Option.some.inj (hservice.symm.trans ht))
      exact ⟨sub, n, hsub, rfl, hlt, Or.inr hcontainer⟩
    · exact ok.given i t j ctx hget ht
  distinct := by
    refine ok.distinct.alloc fun i t m hget hm hnew => hfresh i t hget ?_
    rw [hm, ← hnew, Stream.cancelFn_child hservice]

theorem ServicesOk.modifyStream
    (ok : ServicesOk contexts request serviceSubs subscriptions streams) {i : Nat}
    {f : Stream → Stream} (same : ∀ s, streams.get i = some s →
      (f s).containerId = s.containerId ∧ (f s).service = s.service) :
    ServicesOk contexts request serviceSubs subscriptions (streams.modify i f) where
  below := ok.below
  known := ok.known
  given j t k ctx hget hservice := by
    rcases Heap.get_of_modify hget with ⟨_, s, hs, rfl⟩ | ⟨_, hget⟩
    · obtain ⟨hid, hsame⟩ := same s hs
      rw [hid]
      exact ok.given i s k ctx hs (hsame.symm.trans hservice)
    · exact ok.given j t k ctx hget hservice
  distinct := by
    refine ok.distinct.modify fun s hs => Or.inl ?_
    rw [Stream.cancelFn, Stream.cancelFn, (same s hs).2]

theorem ServicesOk.subscribe (ok : ServicesOk contexts request serviceSubs subscriptions streams)
    {serviceName : String} (habsent : serviceSubs.get serviceName = none) :
    ServicesOk (contexts.withCancel request).2.2 request
      (serviceSubs.set serviceName subscriptions.size)
      (subscriptions.alloc
        (newServiceSubscription (.child contexts.size request) contexts.size serviceName))
      streams := by
  have hgrown := ok.grow (contexts.grows_withCancel request)
  constructor
  · intro k sub h
    rcases Heap.get_of_alloc h with ⟨_, rfl⟩ | h
    · refine ⟨rfl, ?_⟩
      rw [Contexts.size_withCancel]
      exact Nat.lt_succ_self _
    · exact hgrown.below k sub h
  · intro k sub h
    rw [JsMap.get_set]
    rcases Heap.get_of_alloc h with ⟨rfl, rfl⟩ | h
    · exact Or.inr (if_pos rfl)
    · refine (hgrown.known k sub h).imp_right fun hname => ?_
      rw [if_neg, hname]
      rintro heq
      rw [heq, habsent] at hname
      cases hname
  · intro i s k ctx hget hservice
    obtain ⟨sub, n, hsub, hrest⟩ := hgrown.given i s k ctx hget hservice
    exact ⟨sub, n, Heap.get_alloc_of_get hsub _, hrest⟩
  · exact ok.distinct

theorem ServicesOk.delete (ok : ServicesOk contexts request serviceSubs subscriptions streams)
    {serviceName : String} {k : Nat} (hname : serviceSubs.get serviceName = some k)
    (hdone : ∀ sub, subscriptions.get k = some sub → contexts.Done sub.ctx) :
    ServicesOk contexts request (serviceSubs.delete serviceName) subscriptions streams where
  below := ok.below
  known j sub h := by
    rcases ok.known j sub h with hold | hmapped
    · exact Or.inl hold
    · by_cases hsame : sub.serviceName = serviceName
      · rw [hsame, hname] at hmapped
        obtain rfl := Option.some.inj hmapped
        exact Or.inl (hdone sub h)
      · refine Or.inr ?_
        rw [JsMap.get_delete, if_neg hsame, hmapped]
  given := ok.given
  distinct := ok.distinct

end Services

end NestGateway.LogStreamer.Goroutines
