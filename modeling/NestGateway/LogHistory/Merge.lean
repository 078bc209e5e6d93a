import NestGateway.LogHistory.Service

/-! # The truncated merge is the global merge

Every log-streamer cuts its answer before the gateway sorts the answers and
cuts again. A line that a log-streamer cut has the whole page before it on its
own node, so it is not among the first lines of the merged lists either.
-/

namespace NestGateway.LogHistory

open StableSort List

/-- The hosts whose node passes the filter of a search. -/
def passingHosts {Host : Type} (input : LogSearchInput) (node : Host → String)
    (hosts : List Host) : List Host :=
  hosts.filter fun h => passesNode input.node (node h)

/-- The full lists of the hosts that pass, tagged with their nodes, in host order. -/
def taggedLists {Host : Type} (input : LogSearchInput) (node : Host → String)
    (full : Host → List AnswerLine) (hosts : List Host) : List (List LogLine) :=
  (passingHosts input node hosts).map fun h => (full h).map (tagLine (node h))

section Answers

variable {Host : Type} {upstream : Upstream Host} {hosts : List Host} {input : LogSearchInput}
variable {limit : Nat} {full : Host → List AnswerLine} {node : Host → String} {more : Host → Bool}

theorem answered_flatMap
    (answers : ∀ h ∈ hosts, upstream.getSearch h (searchParams input) =
      some ⟨some ((full h).take limit), node h, more h⟩) :
    (hosts.flatMap fun h => answeredLines input.node (upstream.getSearch h (searchParams input))) =
      (taggedLists input node full hosts).flatMap (take limit) := by
  induction hosts with
  | nil => rfl
  | cons h hosts ih =>
      have hrest := ih fun g hg => answers g (mem_cons_of_mem h hg)
      rw [flatMap_cons, hrest, answers h mem_cons_self]
      cases hp : passesNode input.node (node h) with
      | false => simp [answeredLines, taggedLists, passingHosts, hp]
      | true => simp [answeredLines, taggedLists, passingHosts, hp, map_take]

theorem answered_any
    (answers : ∀ h ∈ hosts, upstream.getSearch h (searchParams input) =
      some ⟨some ((full h).take limit), node h, more h⟩) :
    (hosts.any fun h => answeredMore input.node (upstream.getSearch h (searchParams input))) =
      (passingHosts input node hosts).any more := by
  rw [passingHosts, any_filter, Bool.eq_iff_iff, any_eq_true, any_eq_true]
  refine exists_congr fun h => and_congr_right fun hh => ?_
  rw [answers h hh]
  rfl

/-- The gateway's page is the beginning of the stable timestamp sort of all lists, and it
announces more whenever the lists are longer than the page. -/
theorem search_eq_global_merge (collator : Collator) (hlimit : input.pageLimit = limit)
    (answers : ∀ h ∈ hosts, upstream.getSearch h (searchParams input) =
      some ⟨some ((full h).take limit), node h, more h⟩)
    (sorted : ∀ h ∈ hosts, ((full h).map (tagLine (node h))).Pairwise (byTimestamp collator))
    (more_of_longer : ∀ h ∈ hosts, limit < (full h).length → more h = true) :
    (search collator upstream hosts input).lines =
        (mergeSort (taggedLists input node full hosts).flatten (byTimestamp collator · ·)).take
          limit ∧
      (limit < (taggedLists input node full hosts).flatten.length →
        (search collator upstream hosts input).hasMore = true) := by
  have hsorted : ∀ part ∈ taggedLists input node full hosts,
      part.Pairwise (byTimestamp collator) := by
    intro part hpart
    obtain ⟨h, hh, rfl⟩ := mem_map.mp hpart
    exact sorted h (mem_of_mem_filter hh)
  refine ⟨?_, fun hlong => ?_⟩
  · rw [search_lines collator upstream hosts input (by omega), answered_flatMap answers, hlimit,
      Int.toNat_natCast, take_insertionSort_flatMap_take (byTimestamp_trans collator)
        (byTimestamp_total collator) limit _ hsorted,
      mergeSort_eq_insertionSort (byTimestamp_trans collator) (byTimestamp_total collator)]
  · rw [search_hasMore, answered_flatMap answers, answered_any answers, hlimit]
    by_cases hcut : ∃ h ∈ passingHosts input node hosts, limit < (full h).length
    · obtain ⟨h, hh, hlen⟩ := hcut
      rw [any_eq_true.mpr ⟨h, hh, more_of_longer h (mem_of_mem_filter hh) hlen⟩, Bool.true_or]
    · -- nothing was cut, so the answers are the lists
      have hwhole : (taggedLists input node full hosts).flatMap (take limit) =
          (taggedLists input node full hosts).flatten := by
        rw [← flatMap_id]
        apply flatMap_congr
        intro part hpart
        obtain ⟨h, hh, rfl⟩ := mem_map.mp hpart
        apply take_of_length_le
        rw [length_map]
        by_contra hlen
        exact hcut ⟨h, hh, not_le.mp hlen⟩
      rw [hwhole, decide_eq_true (by omega), Bool.or_true]

end Answers

/-- Two nodes with three and one lines, searched for two. -/
theorem search_eq_global_merge_two_nodes :
    let line := fun (t : String) (n : Nat) =>
      ({ timestamp := some t, message := "m", file := "app.2024-01-15.log", lineNo := n } :
        AnswerLine)
    let full := fun (first : Bool) =>
      if first then [line "10:00" 1, line "10:02" 2, line "10:03" 3] else [line "10:02" 7]
    let upstream : Upstream Bool :=
      { getSearch := fun h _ => some ⟨some ((full h).take 2), if h then "a" else "b", h⟩
        getStats := fun _ _ => none }
    (search Collator.codePoint upstream [true, false]
        { app := "app", fromDate := "", toDate := "", limit := some 2 }).lines.map (·.lineNo) =
      [1, 2] := by
  intro line full upstream
  let input : LogSearchInput := { app := "app", fromDate := "", toDate := "", limit := some 2 }
  let node := fun h : Bool => if h then "a" else "b"
  have answers : ∀ h ∈ [true, false], upstream.getSearch h (searchParams input) =
      some ⟨some ((full h).take 2), node h, id h⟩ := fun _ _ => rfl
  have sorted : ∀ h ∈ [true, false],
      ((full h).map (tagLine (node h))).Pairwise (byTimestamp Collator.codePoint) := by decide
  have longer : ∀ h ∈ [true, false], 2 < (full h).length → id h = true := by decide
  have h := (search_eq_global_merge Collator.codePoint rfl answers sorted longer).1
  rw [h, mergeSort_eq_insertionSort (byTimestamp_trans _) (byTimestamp_total _)]
  decide

end NestGateway.LogHistory
