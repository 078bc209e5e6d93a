import Mathlib.Data.List.Perm.Basic
import NestGateway.LogHistory.Breaker

/-! # Node failures and the shared breaker

A failed request is left out of the merge, so a failing host costs only its own
lines, as long as the breaker all hosts share stays closed. It stays closed in
every run exactly if at most half of the hosts fail.
-/

namespace NestGateway.LogHistory

open Runs
open JsString (truthy)

variable {Host : Type}

theorem LogSummary.add_right_comm (summary : LogSummary) (a b : LogStatsResponse) :
    (summary.add a).add b = (summary.add b).add a := by
  simp only [LogSummary.add, Nat.add_right_comm]

def addStats (nodeFilter : Option String) (summary : LogSummary)
    (result : Option LogStatsResponse) : LogSummary :=
  match result with
  | none => summary
  | some data => if !passesNode nodeFilter data.node then summary else summary.add data

theorem foldl_addStats (nodeFilter : Option String) (data : LogStatsResponse)
    (results : List (Option LogStatsResponse)) (summary : LogSummary) :
    results.foldl (addStats nodeFilter) (summary.add data) =
      (results.foldl (addStats nodeFilter) summary).add data := by
  induction results generalizing summary with
  | nil => rfl
  | cons result results ih =>
      have hstep : addStats nodeFilter (summary.add data) result =
          (addStats nodeFilter summary result).add data := by
        cases result with
        | none => rfl
        | some other =>
            rw [addStats, addStats]
            split
            · rfl
            · exact LogSummary.add_right_comm summary data other
      rw [List.foldl_cons, List.foldl_cons, hstep, ih]

theorem mergeStats_of_mem {nodeFilter : Option String} {data : LogStatsResponse}
    {results : List (Option LogStatsResponse)} (hmem : some data ∈ results)
    (hpasses : passesNode nodeFilter data.node = true) :
    ∃ others : LogSummary, mergeStats results nodeFilter = others.add data := by
  obtain ⟨before, after, rfl⟩ := List.append_of_mem hmem
  refine ⟨after.foldl (addStats nodeFilter) (before.foldl (addStats nodeFilter) {}), ?_⟩
  have hstep : addStats nodeFilter (before.foldl (addStats nodeFilter) {}) (some data) =
      (before.foldl (addStats nodeFilter) {}).add data := by
    rw [addStats, hpasses]
    rfl
  change (before ++ some data :: after).foldl (addStats nodeFilter) {} = _
  rw [List.foldl_append, List.foldl_cons, hstep, foldl_addStats]

theorem mergedLines_eq (input : LogSearchInput) (results : List (Option LogSearchResponse)) :
    mergedLines input results = results.flatMap (answeredLines input.node) := by
  rw [mergedLines, foldl_collectAnswer, List.nil_append]

theorem included_of_admitted (upstream : Upstream Host) {hosts : List Host}
    (input : LogSearchInput) {h : Host} (hmem : h ∈ hosts) :
    Included upstream hosts input (List.replicate (2 * hosts.length) true) h := by
  refine ⟨?_, fun data hdata hpasses => ?_⟩
  · rw [searchResults_replicate, mergedLines_eq, List.flatMap_map]
    exact List.sublist_flatten_of_mem (List.mem_map_of_mem hmem)
  · rw [statsResults_replicate]
    exact mergeStats_of_mem (hdata ▸ List.mem_map_of_mem hmem) hpasses

theorem not_included_of_rejected {upstream : Upstream Host} {hosts : List Host}
    {input : LogSearchInput} {h : Host}
    (hlines : answeredLines input.node (upstream.getSearch h (searchParams input)) ≠ []) :
    ¬ Included upstream hosts input (List.replicate (2 * hosts.length) false) h := by
  rintro ⟨hsub, _⟩
  have hnone : mergedLines input
      (searchResults upstream hosts input (List.replicate (2 * hosts.length) false)) = [] := by
    rw [searchResults_replicate, mergedLines_eq, List.flatMap_map, List.flatMap_eq_nil_iff]
    exact fun _ _ => rfl
  rw [hnone] at hsub
  exact hlines (List.sublist_nil.mp hsub)

/-! ## The breaker stays closed -/

section Steps

variable (hosts : List Host) (failing structured : Host → Bool)

/-- The pending calls of a batch whose failures will count. -/
def Searches.tripping (s : Searches Host) (id : Nat) : Nat :=
  s.pending.countP fun call => call.1 == id && trips failing structured call.2

/-- No batch has, or will have, more failures than its failing hosts cause. -/
structure Calm (s : Searches Host) : Prop where
  closed : s.breaker.state = .closed
  window : ∀ batch ∈ s.breaker.window, batch.id < s.nextId ∧ batch.fired = 2 * hosts.length ∧
    batch.failed + s.tripping failing structured batch.id ≤
      2 * hosts.countP (trips failing structured)
  pending : ∀ call ∈ s.pending, call.1 < s.nextId

variable {hosts failing structured}

theorem pending_fire {s : Searches Host} (hclosed : s.breaker.state = .closed) :
    s.fire hosts =
      { breaker := ⟨.closed, s.breaker.window ++ [⟨s.nextId, 2 * hosts.length, 0⟩]⟩
        pending := s.pending ++ (hosts ++ hosts).map (s.nextId, ·)
        nextId := s.nextId + 1 } := by
  have hall : ((hosts ++ hosts).zip (List.replicate (2 * hosts.length) true)).filter (·.2) =
      (hosts ++ hosts).map (·, true) := by
    rw [List.zip, zipWith_replicate_right _ _ (by rw [List.length_append]; omega),
      List.filter_eq_self]
    intro call hcall
    obtain ⟨h, _, rfl⟩ := List.mem_map.mp hcall
    rfl
  rw [Searches.fire, Searches.admitted, hclosed, admitAll_closed, hall, List.map_map]
  rfl

theorem tripping_append (s : Searches Host) (id id' : Nat) (breaker : Breaker) (nextId : Nat)
    (calls : List Host) :
    (Searches.mk breaker (s.pending ++ calls.map (id', ·)) nextId).tripping failing structured id =
      s.tripping failing structured id +
        if id' = id then calls.countP (trips failing structured) else 0 := by
  rw [Searches.tripping, Searches.tripping, List.countP_append, List.countP_map]
  by_cases hid : id' = id
  · rw [if_pos hid]
    congr 1
    refine List.countP_congr fun h _ => ?_
    simp only [Function.comp_apply, hid, beq_self_eq_true, Bool.true_and]
  · rw [if_neg hid, Nat.add_right_inj, List.countP_eq_zero]
    intro h _
    simp only [Function.comp_apply, beq_eq_false_iff_ne.mpr hid, Bool.false_and,
      Bool.false_eq_true, not_false_eq_true]

theorem tripping_fresh {s : Searches Host} (ok : ∀ call ∈ s.pending, call.1 < s.nextId) :
    s.tripping failing structured s.nextId = 0 := by
  rw [Searches.tripping, List.countP_eq_zero]
  intro call hcall
  rw [beq_eq_false_iff_ne.mpr (ok call hcall).ne, Bool.false_and]
  exact Bool.false_ne_true

theorem Calm.fire {s : Searches Host} (ok : Calm hosts failing structured s) :
    Calm hosts failing structured (s.fire hosts) := by
  rw [pending_fire ok.closed]
  refine ⟨rfl, fun batch hbatch => ?_, fun call hcall => ?_⟩
  · rw [tripping_append]
    rcases List.mem_append.mp hbatch with hold | hnew
    · obtain ⟨hid, hfired, hfailed⟩ := ok.window batch hold
      rw [if_neg hid.ne']
      exact ⟨Nat.lt_succ_of_lt hid, hfired, hfailed⟩
    · obtain rfl := List.mem_singleton.mp hnew
      rw [if_pos rfl, tripping_fresh ok.pending, List.countP_append]
      refine ⟨Nat.lt_succ_self _, rfl, ?_⟩
      dsimp only
      omega
  · rcases List.mem_append.mp hcall with hold | hnew
    · exact Nat.lt_succ_of_lt (ok.pending call hold)
    · obtain ⟨h, _, rfl⟩ := List.mem_map.mp hnew
      exact Nat.lt_succ_self _

variable (failing structured) in
theorem tripping_eraseIdx {s : Searches Host} {i : Nat} {call : Nat × Host}
    (hcall : s.pending[i]? = some call) (breaker : Breaker) (id : Nat) :
    ({ s with breaker, pending := s.pending.eraseIdx i } : Searches Host).tripping failing
        structured id +
      (call.1 == id && trips failing structured call.2).toNat =
        s.tripping failing structured id := by
  obtain ⟨hlt, rfl⟩ := List.getElem?_eq_some_iff.mp hcall
  rw [Searches.tripping, Searches.tripping,
    ← (List.getElem_cons_eraseIdx_perm hlt).countP_eq, List.countP_cons]
  cases s.pending[i].1 == id && trips failing structured s.pending[i].2 with
  | true => rfl
  | false => rfl

/-- Batches with at most half of their calls failed do not open the breaker. -/
theorem not_overloaded {b : Breaker} (h : ∀ batch ∈ b.window, 2 * batch.failed ≤ batch.fired) :
    ¬ b.Overloaded := by
  have hsum : 2 * b.failures ≤ b.fires := by
    rw [Breaker.failures, Breaker.fires]
    generalize b.window = window at h
    induction window with
    | nil => exact Nat.le_refl _
    | cons batch window ih =>
        have hhead := h batch List.mem_cons_self
        have hrest := ih fun batch hmem => h batch (List.mem_cons_of_mem _ hmem)
        rw [List.map_cons, List.map_cons, List.sum_cons, List.sum_cons]
        omega
  rintro ⟨_, hover⟩
  rw [errorThresholdPercentage] at hover
  omega

theorem Breaker.state_fail {b : Breaker} {id : Nat} (hclosed : b.state = .closed)
    (hcalm : ∀ batch ∈ (b.countFailure id).window, 2 * batch.failed ≤ batch.fired) :
    b.fail id = b.countFailure id := by
  rw [Breaker.fail, show (b.countFailure id).state = .closed from hclosed]
  exact if_neg (not_overloaded hcalm)

theorem Breaker.succeed_closed {b : Breaker} (hclosed : b.state = .closed) : b.succeed = b := by
  rw [Breaker.succeed, hclosed]

theorem Calm.settled {s : Searches Host} {i : Nat} {call : Nat × Host}
    (hhalf : 2 * hosts.countP (trips failing structured) ≤ hosts.length)
    (ok : Calm hosts failing structured s) (hcall : s.pending[i]? = some call) :
    Calm hosts failing structured
      { s with
        breaker := s.breaker.settle failing structured call
        pending := s.pending.eraseIdx i } := by
  have hpending : ∀ call ∈ s.pending.eraseIdx i, call.1 < s.nextId :=
    fun call hmem => ok.pending call (List.mem_of_mem_eraseIdx hmem)
  cases htrips : trips failing structured call.2 with
  | false =>
      have hsettle : s.breaker.settle failing structured call = s.breaker := by
        rw [Breaker.settle, htrips, Breaker.succeed_closed ok.closed]
        rfl
      rw [hsettle]
      refine ⟨ok.closed, fun batch hbatch => ?_, hpending⟩
      obtain ⟨hid, hfired, hfailed⟩ := ok.window batch hbatch
      have hsame := tripping_eraseIdx failing structured hcall
        s.breaker batch.id
      rw [htrips, Bool.and_false, Bool.toNat_false, Nat.add_zero] at hsame
      exact ⟨hid, hfired, hsame ▸ hfailed⟩
  | true =>
      have hwindow : ∀ batch ∈ (s.breaker.countFailure call.1).window,
          batch.id < s.nextId ∧ batch.fired = 2 * hosts.length ∧
            batch.failed + ({ s with
                breaker := s.breaker.countFailure call.1
                pending := s.pending.eraseIdx i } : Searches Host).tripping failing structured
                  batch.id ≤ 2 * hosts.countP (trips failing structured) := by
        intro batch hbatch
        obtain ⟨old, hold, rfl⟩ := List.mem_map.mp hbatch
        obtain ⟨hid, hfired, hfailed⟩ := ok.window old hold
        have hless := tripping_eraseIdx failing structured hcall
          (s.breaker.countFailure call.1) old.id
        rw [htrips, Bool.and_true] at hless
        by_cases hmine : old.id = call.1
        · rw [if_pos hmine]
          rw [hmine, beq_self_eq_true, Bool.toNat_true] at hless
          rw [hmine] at hfailed
          refine ⟨hid, hfired, ?_⟩
          dsimp only
          rw [hmine]
          omega
        · rw [if_neg hmine]
          rw [beq_eq_false_iff_ne.mpr (Ne.symm hmine), Bool.toNat_false] at hless
          exact ⟨hid, hfired, by omega⟩
      have hsettle : s.breaker.settle failing structured call =
          s.breaker.countFailure call.1 := by
        rw [Breaker.settle, htrips, if_pos rfl]
        refine Breaker.state_fail ok.closed fun batch hbatch => ?_
        obtain ⟨_, hfired, hfailed⟩ := hwindow batch hbatch
        omega
      rw [hsettle]
      exact ⟨ok.closed, hwindow, hpending⟩

theorem Calm.step {s s' : Searches Host} {e : SearchEvent}
    (hhalf : 2 * hosts.countP (trips failing structured) ≤ hosts.length)
    (ok : Calm hosts failing structured s)
    (h : Searches.step hosts failing structured s e = some s') :
    Calm hosts failing structured s' := by
  cases e with
  | searched input => exact Option.some.inj h ▸ ok.fire
  | settled i =>
      rw [Searches.step] at h
      cases hcall : s.pending[i]? with
      | none =>
          rw [hcall] at h
          cases h
      | some call =>
          rw [hcall] at h
          exact Option.some.inj h ▸ ok.settled hhalf hcall
  | aged =>
      obtain rfl := Option.some.inj h
      exact ⟨ok.closed, fun batch hbatch => ok.window batch (List.mem_of_mem_tail hbatch),
        ok.pending⟩
  | resetTimedOut =>
      rw [Searches.step, ok.closed] at h
      cases h

end Steps

/-- The hosts outside `failing` answer every request, and those in it none. -/
def Upstream.Serves (upstream : Upstream Host) (failing : Host → Bool) : Prop :=
  ∀ h query, (upstream.getSearch h query).isSome = !failing h ∧
    (upstream.getStats h query).isSome = !failing h

def Isolated (hosts : List Host) (failing : Host → Bool) (upstream : Upstream Host)
    (s : Searches Host) : SearchEvent → Prop
  | .searched input => ∀ h ∈ hosts, failing h = false →
      Included upstream hosts input (s.admitted hosts) h
  | _ => True

/-- With at most half of the hosts failing, every search of every run includes all others. -/
theorem isolated_of_half {hosts : List Host} {failing structured : Host → Bool}
    (hhalf : 2 * hosts.countP (trips failing structured) ≤ hosts.length)
    (upstream : Upstream Host) (events : List SearchEvent) :
    EachStep (Searches.step hosts failing structured)
      (fun s e _ => Isolated hosts failing upstream s e) Searches.start events := by
  refine eachStep_of_invariant (I := Calm hosts failing structured) ?_
    ⟨rfl, fun _ hmem => (List.not_mem_nil hmem).elim, fun _ hmem => (List.not_mem_nil hmem).elim⟩
    (eachStep_true _ _)
  intro s e s' ok _ h
  refine ⟨ok.step hhalf h, ?_⟩
  cases e with
  | searched input =>
      intro h hmem _
      rw [Searches.admitted, ok.closed, admitAll_closed]
      exact included_of_admitted upstream input hmem
  | settled i => trivial
  | aged => trivial
  | resetTimedOut => trivial

/-! ## A majority of failing hosts -/

section Majority

variable {hosts : List Host} {failing structured : Host → Bool}

theorem settle_opened {b : Breaker} (hopened : b.state = .opened) (call : Nat × Host) :
    (b.settle failing structured call).state = .opened := by
  rw [Breaker.settle]
  split
  · rw [Breaker.fail, show (b.countFailure call.1).state = .opened from hopened]
    exact hopened
  · rw [Breaker.succeed, hopened]
    exact hopened

theorem foldl_settle_opened (calls : List (Nat × Host)) {b : Breaker}
    (hopened : b.state = .opened) :
    (calls.foldl (Breaker.settle failing structured) b).state = .opened := by
  induction calls generalizing b with
  | nil => exact hopened
  | cons call calls ih => exact ih (settle_opened hopened call)

theorem fail_single {n id failed : Nat} (hn : 3 ≤ n) :
    Breaker.fail ⟨.closed, [⟨id, 2 * n, failed⟩]⟩ id =
      ⟨if n < failed + 1 then .opened else .closed, [⟨id, 2 * n, failed + 1⟩]⟩ := by
  have hcount : Breaker.countFailure ⟨.closed, [⟨id, 2 * n, failed⟩]⟩ id =
      ⟨.closed, [⟨id, 2 * n, failed + 1⟩]⟩ := by
    simp only [Breaker.countFailure, List.map_cons, List.map_nil, if_true]
  have hover : (Breaker.mk .closed [⟨id, 2 * n, failed + 1⟩]).Overloaded ↔ n < failed + 1 := by
    simp only [Breaker.Overloaded, Breaker.fires, Breaker.failures, volumeThreshold,
      errorThresholdPercentage, List.map_cons, List.map_nil, List.sum_cons, List.sum_nil]
    omega
  rw [Breaker.fail, hcount]
  dsimp only
  by_cases hmany : n < failed + 1
  · rw [if_pos (hover.mpr hmany), if_pos hmany]
  · rw [if_neg fun h => hmany (hover.mp h), if_neg hmany]

/-- One batch of calls, enough of which fail, opens the breaker by the time all have settled. -/
theorem settled_opened {n : Nat} (hn : 3 ≤ n) (id : Nat) (calls : List Host) (failed : Nat)
    (hfew : failed ≤ n) (hmany : n < failed + calls.countP (trips failing structured)) :
    ((calls.map (id, ·)).foldl (Breaker.settle failing structured)
      ⟨.closed, [⟨id, 2 * n, failed⟩]⟩).state = .opened := by
  induction calls generalizing failed with
  | nil => exact absurd hmany (by rw [List.countP_nil]; omega)
  | cons h calls ih =>
      rw [List.countP_cons] at hmany
      rw [List.map_cons, List.foldl_cons, Breaker.settle]
      cases htrips : trips failing structured h with
      | false =>
          rw [htrips] at hmany
          exact ih failed hfew (by simpa using hmany)
      | true =>
          rw [htrips, if_pos rfl] at hmany
          rw [if_pos rfl, fail_single hn]
          by_cases hopens : n < failed + 1
          · rw [if_pos hopens]
            exact foldl_settle_opened _ rfl
          · rw [if_neg hopens]
            exact ih (failed + 1) (by omega) (by omega)

theorem run_settled (calls : List (Nat × Host)) (breaker : Breaker) (nextId : Nat) :
    run (Searches.step hosts failing structured) ⟨breaker, calls, nextId⟩
        (List.replicate calls.length (.settled 0)) =
      some ⟨calls.foldl (Breaker.settle failing structured) breaker, [], nextId⟩ := by
  induction calls generalizing breaker with
  | nil => rfl
  | cons call calls ih => exact ih _

def oneSearch (hosts : List Host) (input : LogSearchInput) : List SearchEvent :=
  .searched input :: List.replicate (hosts ++ hosts).length (.settled 0)

variable (hosts failing structured) in
theorem run_oneSearch (input : LogSearchInput) (hn : 3 ≤ hosts.length)
    (hmany : hosts.length < 2 * hosts.countP (trips failing structured)) :
    ∃ s, run (Searches.step hosts failing structured) Searches.start (oneSearch hosts input) =
      some s ∧ s.breaker.state = .opened := by
  have hfire : Searches.start.fire hosts = _ := pending_fire rfl
  have hrun : run (Searches.step hosts failing structured) Searches.start (oneSearch hosts input) =
      run (Searches.step hosts failing structured) (Searches.start.fire hosts)
        (List.replicate ((hosts ++ hosts).map (0, ·)).length (.settled 0)) := by
    rw [List.length_map]
    rfl
  rw [hrun, hfire]
  refine ⟨_, run_settled _ _ _, ?_⟩
  refine settled_opened hn 0 (hosts ++ hosts) 0 (Nat.zero_le _) ?_
  rw [List.countP_append]
  omega

end Majority

/-! ## Exactly when nodes are isolated -/

def Upstream.oneLine (failing : Host → Bool) : Upstream Host where
  getSearch h _ :=
    if failing h then none
    else some ⟨some [{ message := "m", file := "app.log", lineNo := 1 }], "node", false⟩
  getStats h _ := if failing h then none else some ⟨"node", 1, 0, 0, 0, 1⟩

theorem Upstream.oneLine_serves (failing : Host → Bool) :
    (Upstream.oneLine failing).Serves failing := by
  intro h query
  cases hfails : failing h with
  | true => simp [Upstream.oneLine, hfails]
  | false => simp [Upstream.oneLine, hfails]

/-- The hosts that answer are in every search of every run, exactly if they are none, or at most
half of the hosts fail with an error that counts for the breaker. -/
theorem isolated_iff (hosts : List Host) (failing structured : Host → Bool) :
    (∀ upstream : Upstream Host, upstream.Serves failing → ∀ events,
        EachStep (Searches.step hosts failing structured)
          (fun s e _ => Isolated hosts failing upstream s e) Searches.start events) ↔
      (∀ h ∈ hosts, failing h = true) ∨
        2 * hosts.countP (trips failing structured) ≤ hosts.length := by
  constructor
  · intro hall
    by_contra hnot
    obtain ⟨hsome, hmany⟩ := not_or.mp hnot
    obtain ⟨h, hmem, hanswers⟩ : ∃ h ∈ hosts, failing h = false := by
      by_contra hnone
      refine hsome fun h hmem => ?_
      exact Bool.of_not_eq_false fun hanswers => hnone ⟨h, hmem, hanswers⟩
    have hless : hosts.countP (trips failing structured) < hosts.length := by
      refine Nat.lt_of_le_of_ne List.countP_le_length fun heq => ?_
      have htrips := List.countP_eq_length.mp heq h hmem
      rw [trips, hanswers, Bool.false_and] at htrips
      cases htrips
    let input : LogSearchInput := { app := "app", fromDate := "", toDate := "" }
    obtain ⟨s, hrun, hopened⟩ :=
      run_oneSearch hosts failing structured input (by omega) (by omega)
    have hlast := eachStep_of_append (hall (Upstream.oneLine failing)
      (Upstream.oneLine_serves failing) (oneSearch hosts input ++ [.searched input])) hrun
    have hincluded := ((eachStep_cons rfl).mp hlast).1 h hmem hanswers
    rw [Searches.admitted, hopened, admitAll_opened] at hincluded
    refine not_included_of_rejected ?_ hincluded
    rw [Upstream.oneLine]
    simp [hanswers, answeredLines, input, passesNode, truthy]
  · rintro (hnone | hhalf) upstream _ events
    · refine eachStep_of_invariant (I := fun _ => True) ?_ trivial (eachStep_true _ events)
      intro s e s' _ _ _
      refine ⟨trivial, ?_⟩
      cases e with
      | searched input =>
          intro h hmem hanswers
          cases hanswers.symm.trans (hnone h hmem)
      | settled i => trivial
      | aged => trivial
      | resetTimedOut => trivial
    · exact isolated_of_half hhalf upstream events

/-- Two of three hosts are down: the second search leaves out the third one too. -/
theorem third_host_left_out :
    ¬ ∀ upstream : Upstream Nat, upstream.Serves (· ≠ 0) → ∀ events,
      EachStep (Searches.step [0, 1, 2] (· ≠ 0) fun _ => false)
        (fun s e _ => Isolated [0, 1, 2] (· ≠ 0) upstream s e) Searches.start events := by
  intro hall
  let input : LogSearchInput := { app := "app", fromDate := "", toDate := "" }
  have hrun := hall (Upstream.oneLine (· ≠ 0)) (Upstream.oneLine_serves _)
    [.searched input, .settled 0, .settled 0, .settled 0, .settled 0, .settled 0, .settled 0,
      .searched input]
  have hincluded := hrun.2.2.2.2.2.2.2.1 0 (by decide) (by decide)
  exact not_included_of_rejected (by decide) hincluded

end NestGateway.LogHistory
