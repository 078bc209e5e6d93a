import NestGateway.Core.FirstOfKey
import NestGateway.LogStreamer.Listing

/-! # Containers and their statistics over all nodes

The gateway asks every log-streamer for its containers and appends the lists. It
asks every log-streamer for the statistics of the same ids, and of each id keeps
the first that arrives in the order of the hosts.
-/

namespace NestGateway.LogProxy

open GoBytes LogStreamer LogStreamer.Listing LogStreamer.Stats Runs

/-- `listContainers`; a call that is rejected has no result. -/
def listContainers (results : List (Option (List ContainerInfo))) : List ContainerInfo :=
  results.foldl (fun containers result =>
    match result with
    | some value => containers ++ value
    | none => containers) []

variable {Percent : Type}

def addStats (acc : List Bytes × List (ContainerStats Percent)) (s : ContainerStats Percent) :
    List Bytes × List (ContainerStats Percent) :=
  if s.id ∈ acc.1 then acc else (s.id :: acc.1, acc.2 ++ [s])

def mergeStats (results : List (Option (List (ContainerStats Percent)))) :
    List (ContainerStats Percent) :=
  (results.foldl (fun acc result =>
    match result with
    | some value => value.foldl addStats acc
    | none => acc) ([], [])).2

/-- `containerIds.join(',')` -/
def joinIds (containerIds : List Bytes) : Bytes := [comma].intercalate containerIds

/-- `getContainerStats`; `fetch` is what the hosts make of the parameter. -/
def getContainerStats (containerIds : List Bytes)
    (fetch : Bytes → List (Option (List (ContainerStats Percent)))) :
    List (ContainerStats Percent) :=
  if containerIds = [] then [] else mergeStats (fetch (joinIds containerIds))

structure StatsHost (Percent : Type) where
  /-- The call of the gateway reaches the host and is not given up. -/
  reached : Bool
  /-- What Docker answers for an id. -/
  docker : Bytes → DockerReply Percent
  /-- The order in which the goroutines end. -/
  order : List Nat

namespace StatsHost

variable (host : StatsHost Percent)

def replies (ids : List Bytes) (i : Nat) : DockerReply Percent := host.docker (ids[i]?.getD [])

/-- The request on the host, after some of its goroutines have ended. -/
def after (ids : List Bytes) (order : List Nat) : Option (Stats.Request Percent) :=
  run (Stats.Request.step ids (host.replies ids)) (.start ids) order

def respond (idsParam : Bytes) : Option (List (ContainerStats Percent)) :=
  if host.reached then (host.after (requestedIds idsParam) host.order).bind Stats.Request.response
  else none

/-- The statistics of a container on the host. -/
def answer (id : Bytes) : Option (ContainerStats Percent) :=
  match goroutine id (host.docker id) with
  | .sent stats => some stats
  | _ => none

end StatsHost

theorem mem_listContainers {results : List (Option (List ContainerInfo))} {info : ContainerInfo} :
    info ∈ listContainers results ↔ ∃ value, some value ∈ results ∧ info ∈ value := by
  have hfold : ∀ acc : List ContainerInfo,
      info ∈ results.foldl (fun containers result =>
        match result with
        | some value => containers ++ value
        | none => containers) acc ↔ info ∈ acc ∨ ∃ value, some value ∈ results ∧ info ∈ value := by
    induction results with
    | nil => simp
    | cons result results ih =>
        intro acc
        rw [List.foldl_cons, ih]
        cases result with
        | none => simp
        | some value => simp [or_assoc]
  unfold listContainers
  rw [hfold []]
  simp

theorem isShortId_listContainers {dockers : List Docker} {answers : Docker → Bool}
    (genuine : ∀ docker ∈ dockers, docker.Genuine) {info : ContainerInfo}
    (h : info ∈ listContainers (dockers.map fun docker =>
      if answers docker then (ListContainers docker).toOption else none)) : IsShortId info.id := by
  obtain ⟨listed, hlisted, hmem⟩ := mem_listContainers.mp h
  obtain ⟨docker, hdocker, heq⟩ := List.mem_map.mp hlisted
  split at heq
  · cases hlist : ListContainers docker with
    | error failure =>
        rw [hlist] at heq
        cases heq
    | ok infos =>
        rw [hlist] at heq
        obtain rfl := Option.some.inj heq
        exact isShortId_of_listed (genuine docker hdocker) hlist hmem
  · cases heq

/-! ## A host -/

section Host

variable {ids : List Bytes} {host : StatsHost Percent}

theorem requestedIds_joinIds (hshort : ∀ id ∈ ids, IsShortId id) :
    requestedIds (joinIds ids) = ids := by
  by_cases hnone : ids = []
  · subst hnone
    rfl
  have hsplit : (joinIds ids).splitOn comma = ids :=
    List.splitOn_intercalate comma (fun id hid => (hshort id hid).no_comma) hnone
  unfold requestedIds
  rw [if_neg, hsplit]
  intro hnil
  rw [hnil] at hsplit
  have hmem : ([] : Bytes) ∈ ids := by
    rw [← hsplit]
    exact List.mem_cons_self
  exact absurd (hshort [] hmem).length (by decide)

theorem longEnough_of_short (hshort : ∀ id ∈ ids, IsShortId id)
    (replies : Nat → DockerReply Percent) : LongEnough ids replies := by
  intro i id hid _
  rw [(hshort id (List.mem_of_getElem? hid)).length]
  exact Nat.le_refl _

theorem not_crashed (hshort : ∀ id ∈ ids, IsShortId id) {order : List Nat}
    {s : Stats.Request Percent} (h : host.after ids order = some s) : s.crashed = false :=
  run_invariant (I := fun s => s.crashed = false)
    (fun _ _ _ _ hstep => not_crashed_step (longEnough_of_short hshort _) hstep) rfl h

/-- The host is reached, and its goroutines have all ended. -/
def StatsHost.Done (host : StatsHost Percent) (ids : List Bytes) : Prop :=
  host.reached = true ∧ host.order.Perm (List.range ids.length)

instance (ids : List Bytes) : DecidablePred fun host : StatsHost Percent => host.Done ids :=
  fun _ => instDecidableAnd

section Order

variable {replies : Nat → DockerReply Percent}

theorem running_perm {order : List Nat} {s s' : Stats.Request Percent}
    (h : run (Stats.Request.step ids replies) s order = some s') :
    s.running.Perm (order ++ s'.running) := by
  induction order generalizing s with
  | nil =>
      obtain rfl := Option.some.inj h
      exact List.Perm.refl _
  | cons i order ih =>
      unfold run at h
      split at h
      next => cases h
      next t hstep =>
        obtain ⟨_, _, hmem, hrunning, _⟩ := Stats.step_cases hstep
        have hrest := ih h
        rw [hrunning] at hrest
        exact (List.perm_cons_erase hmem).trans (hrest.cons i)

/-- A goroutine that is running can end, and the process goes on. -/
theorem exists_step (hlong : LongEnough ids replies) {s : Stats.Request Percent} {i : Nat}
    (hcrashed : s.crashed = false) (hi : i ∈ s.running) (hlt : i < ids.length) :
    ∃ s', s.step ids replies i = some s' ∧ s'.crashed = false ∧
      s'.running = s.running.erase i := by
  have hid : ids[i]? = some ids[i] := List.getElem?_eq_getElem hlt
  unfold Stats.Request.step
  rw [if_neg (by simp [hcrashed, hi]), hid]
  dsimp only
  cases hout : goroutine ids[i] (replies i) with
  | sent stats => exact ⟨_, rfl, rfl, rfl⟩
  | failed => exact ⟨_, rfl, rfl, rfl⟩
  | panicked =>
      obtain ⟨hanswered, hshort⟩ := goroutine_panicked_iff.mp hout
      exact absurd (hlong i _ hid hanswered) (not_le.mpr hshort)

theorem exists_run (hlong : LongEnough ids replies) {order : List Nat} {s : Stats.Request Percent}
    (hcrashed : s.crashed = false) (hbound : ∀ i ∈ s.running, i < ids.length)
    (hperm : s.running.Perm order) :
    ∃ s', run (Stats.Request.step ids replies) s order = some s' ∧ s'.crashed = false ∧
      s'.running = [] := by
  induction order generalizing s with
  | nil => exact ⟨s, rfl, hcrashed, hperm.eq_nil⟩
  | cons i order ih =>
      have hi : i ∈ s.running := hperm.mem_iff.mpr List.mem_cons_self
      obtain ⟨t, hstep, hcrashed', hrunning⟩ := exists_step hlong hcrashed hi (hbound i hi)
      have hrest : t.running.Perm order := by
        rw [hrunning]
        exact (List.perm_cons_erase hi).symm.trans hperm |>.cons_inv
      have hbound' : ∀ j ∈ t.running, j < ids.length := by
        intro j hj
        rw [hrunning] at hj
        exact hbound j (List.mem_of_mem_erase hj)
      unfold run
      rw [hstep]
      exact ih hcrashed' hbound' hrest

end Order

theorem isSome_respond (hshort : ∀ id ∈ ids, IsShortId id) :
    (host.respond (joinIds ids)).isSome ↔ host.Done ids := by
  unfold StatsHost.respond StatsHost.Done StatsHost.after
  rw [requestedIds_joinIds hshort]
  cases hreached : host.reached
  · simp
  · simp only [if_true, true_and, Option.isSome_iff_exists, Option.bind_eq_some_iff]
    constructor
    · rintro ⟨stats, s, hrun, hresponse⟩
      have hperm := running_perm hrun
      unfold Stats.Request.response at hresponse
      split at hresponse
      next => cases hresponse
      next hdone =>
        rw [not_or, not_not] at hdone
        rw [hdone.2, List.append_nil] at hperm
        exact hperm.symm
    · intro horder
      obtain ⟨s, hrun, hcrashed, hrunning⟩ := exists_run (s := Stats.Request.start ids)
        (longEnough_of_short hshort (host.replies ids)) rfl (fun i hi => List.mem_range.mp hi)
        horder.symm
      refine ⟨s.stats, s, hrun, ?_⟩
      unfold Stats.Request.response
      rw [if_neg (by simp [hcrashed, hrunning])]

/-- What a goroutine that has ended has sent was received, and nothing else was. -/
structure Received (host : StatsHost Percent) (ids : List Bytes) (s : Stats.Request Percent) :
    Prop where
  sound : ∀ stats ∈ s.stats, ∃ id ∈ ids, host.answer id = some stats
  complete : ∀ i id, ids[i]? = some id → i ∈ s.running ∨ ∀ stats, host.answer id = some stats →
    stats ∈ s.stats

theorem received_start : Received host ids (.start ids) where
  sound := nofun
  complete := by
    intro i id hid
    have hlt := (List.getElem?_eq_some_iff.mp hid).choose
    exact Or.inl (List.mem_range.mpr hlt)

theorem Received.step {s s' : Stats.Request Percent} {i : Nat} (h : Received host ids s)
    (hstep : s.step ids (host.replies ids) i = some s') : Received host ids s' := by
  obtain ⟨id, hid, hmem, hrunning, hout⟩ := Stats.step_cases hstep
  have hreply : host.replies ids i = host.docker id := by
    unfold StatsHost.replies
    rw [hid]
    rfl
  rw [hreply] at hout
  have hother : ∀ j id', ids[j]? = some id' → j ≠ i → j ∈ s.running → j ∈ s'.running := by
    intro j id' _ hne hj
    rw [hrunning]
    exact (List.mem_erase_of_ne hne).mpr hj
  rcases hout with ⟨stats, hsent, hstats, _⟩ | ⟨hfailed, hstats, _⟩ | ⟨hpanicked, hstats, _⟩
  · have hanswer : host.answer id = some stats := by
      unfold StatsHost.answer
      rw [hsent]
    refine ⟨?_, fun j id' hid' => ?_⟩
    · rw [hstats]
      intro other hother
      rcases List.mem_append.mp hother with hother | hother
      · exact h.sound other hother
      · rw [List.mem_singleton.mp hother]
        exact ⟨id, List.mem_of_getElem? hid, hanswer⟩
    · by_cases hji : j = i
      · subst hji
        obtain rfl := Option.some.inj (hid.symm.trans hid')
        refine Or.inr fun other hsame => ?_
        rw [hstats, Option.some.inj (hsame.symm.trans hanswer)]
        exact List.mem_append_right _ List.mem_cons_self
      · rcases h.complete j id' hid' with hj | hj
        · exact Or.inl (hother j id' hid' hji hj)
        · refine Or.inr fun other hsame => ?_
          rw [hstats]
          exact List.mem_append_left _ (hj other hsame)
  all_goals
    have hnone : host.answer id = none := by
      unfold StatsHost.answer
      simp_all
    refine ⟨hstats ▸ h.sound, fun j id' hid' => ?_⟩
    by_cases hji : j = i
    · subst hji
      obtain rfl := Option.some.inj (hid.symm.trans hid')
      refine Or.inr fun other hsame => ?_
      rw [hnone] at hsame
      cases hsame
    · rw [hstats]
      exact (h.complete j id' hid').imp_left (hother j id' hid' hji)

/-- In whatever order its goroutines end, a host responds with the statistics it has of the ids. -/
theorem respond_spec (hshort : ∀ id ∈ ids, IsShortId id)
    {response : List (ContainerStats Percent)} (h : host.respond (joinIds ids) = some response)
    (stats : ContainerStats Percent) :
    stats ∈ response ↔ ∃ id ∈ ids, host.answer id = some stats := by
  unfold StatsHost.respond at h
  rw [requestedIds_joinIds hshort] at h
  split at h
  · obtain ⟨s, hrun, hresponse⟩ := Option.bind_eq_some_iff.mp h
    have hreceived : Received host ids s :=
      run_invariant (I := Received host ids) (fun _ _ _ hs hstep => hs.step hstep) received_start
        hrun
    unfold Stats.Request.response at hresponse
    split at hresponse
    next => cases hresponse
    next hdone =>
      rw [not_or, not_not] at hdone
      obtain rfl := Option.some.inj hresponse
      refine ⟨hreceived.sound stats, ?_⟩
      rintro ⟨id, hid, hanswer⟩
      obtain ⟨i, hi⟩ := List.getElem?_of_mem hid
      rcases hreceived.complete i id hi with hrunning | hsent
      · rw [hdone.2] at hrunning
        cases hrunning
      · exact hsent stats hanswer
  · cases h

end Host

/-! ## The merge -/

theorem foldl_addStats (xs : List (ContainerStats Percent))
    (acc : List Bytes × List (ContainerStats Percent)) :
    (xs.foldl addStats acc).2 = acc.2 ++ firstOfKey (·.id) acc.1 xs := by
  induction xs generalizing acc with
  | nil => simp [firstOfKey]
  | cons x xs ih =>
      rw [List.foldl_cons, ih, firstOfKey]
      unfold addStats
      split
      · rfl
      · rw [List.append_assoc]
        rfl

theorem mergeStats_eq (results : List (Option (List (ContainerStats Percent)))) :
    mergeStats results = firstOfKey (·.id) [] (results.filterMap id).flatten := by
  have hfold : ∀ acc : List Bytes × List (ContainerStats Percent),
      results.foldl (fun acc result =>
        match result with
        | some value => value.foldl addStats acc
        | none => acc) acc = (results.filterMap id).flatten.foldl addStats acc := by
    induction results with
    | nil => exact fun _ => rfl
    | cons result results ih =>
        intro acc
        rw [List.foldl_cons, ih]
        cases result with
        | none => rfl
        | some value => simp
  unfold mergeStats
  rw [hfold, foldl_addStats]
  rfl

theorem find?_mergeStats (results : List (Option (List (ContainerStats Percent)))) (key : Bytes) :
    (mergeStats results).find? (·.id = key) =
      (results.filterMap id).findSome? fun value => value.find? (·.id = key) := by
  rw [mergeStats_eq, find?_firstOfKey, List.find?_flatten]

section Poll

variable {ids : List Bytes}

theorem id_of_answer {host : StatsHost Percent} {id : Bytes} (hshort : IsShortId id)
    {stats : ContainerStats Percent} (h : host.answer id = some stats) : stats.id = id := by
  unfold StatsHost.answer at h
  split at h
  next sent hsent =>
    obtain ⟨_, _, hstats, _⟩ := goroutine_sent hsent
    rw [← Option.some.inj h, hstats]
    exact List.take_of_length_le (Nat.le_of_eq hshort.length)
  next => cases h

theorem find?_respond {host : StatsHost Percent} (hshort : ∀ id ∈ ids, IsShortId id)
    {response : List (ContainerStats Percent)} (h : host.respond (joinIds ids) = some response)
    {key : Bytes} (hkey : key ∈ ids) : response.find? (·.id = key) = host.answer key := by
  have hspec := respond_spec hshort h
  cases hfind : response.find? (·.id = key) with
  | none =>
      rw [List.find?_eq_none] at hfind
      cases hanswer : host.answer key with
      | none => rfl
      | some stats =>
          have hmem := (hspec stats).mpr ⟨key, hkey, hanswer⟩
          have hid := id_of_answer (hshort key hkey) hanswer
          exact absurd (decide_eq_true hid) (hfind stats hmem)
  | some stats =>
      have hstats : stats.id = key := by simpa using List.find?_some hfind
      obtain ⟨id, hmem, hanswer⟩ := (hspec stats).mp (List.mem_of_find?_eq_some hfind)
      rw [← hstats, id_of_answer (hshort id hmem) hanswer, hanswer]

theorem id_mem_of_getContainerStats (hshort : ∀ id ∈ ids, IsShortId id)
    {hosts : List (StatsHost Percent)} {stats : ContainerStats Percent}
    (h : stats ∈ getContainerStats ids fun idsParam => hosts.map (·.respond idsParam)) :
    stats.id ∈ ids := by
  unfold getContainerStats at h
  split at h
  next => cases h
  next =>
    rw [mergeStats_eq] at h
    obtain ⟨response, hresponse, hmem⟩ := List.mem_flatten.mp (mem_of_mem_firstOfKey h)
    obtain ⟨result, hresult, hsome⟩ := List.mem_filterMap.mp hresponse
    obtain ⟨host, _, hrespond⟩ := List.mem_map.mp hresult
    obtain ⟨id, hid, hanswer⟩ := (respond_spec hshort (hrespond.trans hsome) stats).mp hmem
    exact id_of_answer (hshort id hid) hanswer ▸ hid

/-- The statistics of a poll: of each id those of the first host that responds and has them. -/
theorem find?_getContainerStats (hshort : ∀ id ∈ ids, IsShortId id)
    (hosts : List (StatsHost Percent)) {key : Bytes} (hkey : key ∈ ids) :
    (getContainerStats ids fun idsParam => hosts.map (·.respond idsParam)).find? (·.id = key) =
      (hosts.filter fun host => host.Done ids).findSome? (·.answer key) := by
  have hdone : ∀ host : StatsHost Percent, decide (host.Done ids) =
      (host.respond (joinIds ids)).isSome := fun host =>
    Bool.eq_iff_iff.mpr (by rw [isSome_respond hshort]; simp)
  simp only [hdone]
  unfold getContainerStats
  rw [if_neg (List.ne_nil_of_mem hkey), find?_mergeStats]
  dsimp only
  induction hosts with
  | nil => rfl
  | cons host hosts ih =>
      rw [List.map_cons, List.filterMap_cons, List.filter_cons]
      cases hresponse : host.respond (joinIds ids) with
      | none => simpa [hresponse] using ih
      | some response =>
          have hfind := find?_respond hshort hresponse hkey
          show (response :: List.filterMap id _).findSome? _ =
            (host :: hosts.filter _).findSome? _
          rw [List.findSome?_cons, List.findSome?_cons, hfind, ih]

theorem nodup_getContainerStats (ids : List Bytes)
    (fetch : Bytes → List (Option (List (ContainerStats Percent)))) :
    ((getContainerStats ids fetch).map (·.id)).Nodup := by
  unfold getContainerStats
  split
  · exact List.nodup_nil
  · rw [mergeStats_eq]
    exact nodup_firstOfKey [] _

end Poll

end NestGateway.LogProxy
