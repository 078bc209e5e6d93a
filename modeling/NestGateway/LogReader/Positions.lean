import NestGateway.LogReader.MatchList

/-! # Where entries come from

Every entry of the match list keeps the file and the line number of the line
that opened it, so no entry is listed twice.
-/

namespace NestGateway.LogReader

open Text List

/-- The file and the line that opened an entry. -/
def LogLine.position (l : LogLine) : String × Nat := (l.file, l.lineNo)

theorem timestampedEntries_positions (parsed : List LogLine) :
    (timestampedEntries parsed).map (·.position) <+ parsed.map (·.position) := by
  induction parsed with
  | nil => exact Sublist.refl _
  | cons l rest ih =>
      by_cases hu : l.untimed = true
      · simpa [timestampedEntries_cons, hu] using ih.cons l.position
      · simpa [timestampedEntries_cons, hu, joinMessages, LogLine.position] using ih

theorem groupEntries_positions (parsed : List LogLine) :
    (groupEntries parsed).map (·.position) <+ parsed.map (·.position) := by
  induction parsed with
  | nil => exact Sublist.refl _
  | cons l rest ih =>
      by_cases hu : l.untimed = true
      · have hcons : groupEntries (l :: rest) = l :: groupEntries rest := by
          simp [groupEntries, timestampedEntries_cons, hu]
        rw [hcons]
        exact ih.cons_cons l.position
      · have htimed : groupEntries (l :: rest) = timestampedEntries (l :: rest) := by
          simp [groupEntries, hu]
        rw [htimed]
        exact timestampedEntries_positions (l :: rest)

theorem numberedLines_nodup (lineNo : Nat) (lines : List String) :
    ((numberedLines lineNo lines).map (·.2)).Nodup := by
  have hall : ((lines.zipIdx (lineNo + 1)).map (·.2)).Nodup := by
    have hsnd : (lines.zipIdx (lineNo + 1)).map (·.2) = range' (lineNo + 1) lines.length :=
      zipIdx_map_snd _ _
    rw [hsnd]
    exact nodup_range'
  exact hall.sublist ((filter_sublist).map _)

section Runtime

variable (rt : Runtime) (params : SearchParams)

theorem parsedLines_positions (fileName : String) (lines : List String) :
    ∃ numbers : List Nat, numbers.Nodup ∧
      (parsedLines rt fileName lines).map (·.position) = numbers.map (fileName, ·) := by
  refine ⟨(numberedLines 0 lines).map (·.2), numberedLines_nodup 0 lines, ?_⟩
  unfold parsedLines
  split
  next h => rw [h]; rfl
  next h =>
    rw [h, map_map, map_map]
    rfl

theorem fileMatches_positions (fileName : String) (lines : List String) :
    ((fileMatches rt params fileName lines).map (·.position)).Nodup ∧
      ∀ e ∈ fileMatches rt params fileName lines, e.file = fileName := by
  obtain ⟨numbers, hnodup, hpositions⟩ := parsedLines_positions rt fileName lines
  have hsub : (fileMatches rt params fileName lines).map (·.position) <+
      numbers.map (fileName, ·) := by
    rw [← hpositions]
    exact (filter_sublist.map _).trans (groupEntries_positions _)
  refine ⟨(hnodup.map (Prod.mk_right_injective fileName)).sublist hsub, fun e he => ?_⟩
  have hmem := hsub.subset (mem_map_of_mem he)
  obtain ⟨n, _, hn⟩ := mem_map.mp hmem
  exact (congrArg Prod.fst hn).symm

/-- No entry is in the match list twice. -/
theorem matchList_positions_nodup (r : Reader) :
    ((r.matchList rt params).map (·.position)).Nodup := by
  rw [Reader.matchList, map_flatMap, nodup_flatMap]
  refine ⟨fun f _ => (fileMatches_positions rt params f.name (r.fileLines f)).1, ?_⟩
  have hnames := listFiles_nodup r params.app params.fromDate params.toDate
  rw [Nodup, pairwise_map] at hnames
  refine hnames.imp fun {f g} hne => ?_
  intro p hf hg
  obtain ⟨e, he, rfl⟩ := mem_map.mp hf
  obtain ⟨e', he', hpos⟩ := mem_map.mp hg
  have hfile := (fileMatches_positions rt params f.name (r.fileLines f)).2 e he
  have hfile' := (fileMatches_positions rt params g.name (r.fileLines g)).2 e' he'
  exact hne (hfile ▸ hfile' ▸ (congrArg Prod.fst hpos).symm)

end Runtime

end NestGateway.LogReader
