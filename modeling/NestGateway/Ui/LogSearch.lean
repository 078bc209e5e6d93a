import Mathlib.Data.Nat.ModEq
import NestGateway.Core.JsString
import NestGateway.Core.Runs
import NestGateway.Core.Scans

/-! # The search in a log view

`useLogSearch` counts the occurrences of a query in the lines of a buffer and
steps through them. The position it steps is kept apart from the lines, which
come and go meanwhile; what it shows is that position cut to the number of
occurrences there are. `toLowerCase` is a parameter.
-/

namespace NestGateway.Ui

open Runs Scans

abbrev JsText := List UInt16

inductive SearchMode where
  | filter
  | find
  deriving Repr, DecidableEq

structure MatchInfo where
  logIndex : Nat
  matchCount : Nat
  deriving Repr, DecidableEq

namespace LogSearch

structure State (T : Type) where
  query : JsText := []
  /-- The query once it has not changed for a while. -/
  debouncedValue : JsText := []
  mode : SearchMode := .filter
  currentMatchIndex : Nat := 0
  logs : List T := []
  /-- The effect that resets the index has not run since the query or the mode changed. -/
  resets : Bool := true

inductive Event (T : Type) where
  | setQuery (query : JsText)
  | debounce
  | setMode (mode : SearchMode)
  | setLogs (logs : List T)
  | effect
  | next
  | prev
  deriving DecidableEq

def State.trimmedQuery {T : Type} (s : State T) : JsText := JsString.trimUnits s.debouncedValue

/-- The loop of `countMatches`, none when the fuel is used up. -/
def countLoop (lowerText lowerQuery : JsText) : Nat → Nat → Nat → Option Nat
  | 0, _, _ => none
  | fuel + 1, count, pos =>
      match JsString.indexOf lowerText lowerQuery pos with
      | none => some count
      | some pos => countLoop lowerText lowerQuery fuel (count + 1) (pos + lowerQuery.length)

def totalOf (infos : List MatchInfo) : Nat := infos.foldl (fun sum m => sum + m.matchCount) 0

/-- The loop that finds the line and the position in it, none when it runs out of lines. -/
def walk : List MatchInfo → Nat → Option (Nat × Nat)
  | [], _ => none
  | m :: infos, remaining =>
      if remaining < m.matchCount then some (m.logIndex, remaining)
      else walk infos (remaining - m.matchCount)

section Hook

variable {T : Type} (message : T → JsText) (toLowerCase : JsText → JsText)

def countMatches (text query : JsText) : Nat :=
  if query = [] then 0
  else (countLoop (toLowerCase text) (toLowerCase query) ((toLowerCase text).length + 1) 0 0).getD 0

def matchInfos (query : JsText) : Nat → List T → List MatchInfo
  | _, [] => []
  | i, log :: logs =>
      let mc := countMatches toLowerCase (message log) query
      if 0 < mc then ⟨i, mc⟩ :: matchInfos query (i + 1) logs else matchInfos query (i + 1) logs

namespace State

variable (s : State T)

def matchList : List MatchInfo :=
  if s.mode = .find ∧ s.trimmedQuery ≠ [] then
    matchInfos message toLowerCase s.trimmedQuery 0 s.logs
  else []

def totalMatches : Nat := totalOf (s.matchList message toLowerCase)

def clampedIndex : Nat :=
  let total := s.totalMatches message toLowerCase
  if 0 < total then min s.currentMatchIndex (total - 1) else 0

/-- `currentMatchLogIndex` and `currentMatchPositionInLine`, none for null and undefined. -/
def currentMatch : Option (Nat × Nat) :=
  let infos := s.matchList message toLowerCase
  if s.totalMatches message toLowerCase = 0 ∨ infos = [] then none
  else (walk infos (s.clampedIndex message toLowerCase)).or
    (infos.getLast?.map fun last => (last.logIndex, last.matchCount - 1))

def next : State T :=
  let total := s.totalMatches message toLowerCase
  if total = 0 then s else { s with currentMatchIndex := (s.currentMatchIndex + 1) % total }

def prev : State T :=
  let total := s.totalMatches message toLowerCase
  if total = 0 then s
  else { s with currentMatchIndex := (s.currentMatchIndex + total - 1) % total }

end State

def step (s : State T) : Event T → Option (State T)
  | .setQuery query => some { s with query }
  | .debounce =>
      let s' := { s with debouncedValue := s.query }
      some { s' with resets := s.resets || s'.trimmedQuery ≠ s.trimmedQuery }
  | .setMode mode => some { s with mode, resets := s.resets || mode ≠ s.mode }
  | .setLogs logs => some { s with logs }
  | .effect => if s.resets then some { s with currentMatchIndex := 0, resets := false } else none
  | .next => some (s.next message toLowerCase)
  | .prev => some (s.prev message toLowerCase)

/-! ## Steps through the matches -/

/-- A step changes the shown index by one, round the total. -/
def StepsByOne (s : State T) (e : Event T) (s' : State T) : Prop :=
  0 < s.totalMatches message toLowerCase →
    (e = .next → s'.clampedIndex message toLowerCase =
      (s.clampedIndex message toLowerCase + 1) % s.totalMatches message toLowerCase) ∧
    (e = .prev → s'.clampedIndex message toLowerCase =
      (s.clampedIndex message toLowerCase + s.totalMatches message toLowerCase - 1) %
        s.totalMatches message toLowerCase)

/-- The kept index is one of a match, or a multiple of the total beyond the last. -/
def InStep (s : State T) : Prop :=
  s.currentMatchIndex < s.totalMatches message toLowerCase ∨
    s.currentMatchIndex % s.totalMatches message toLowerCase =
      s.totalMatches message toLowerCase - 1

instance decidableStepsByOne [DecidableEq T] (s : State T) (e : Event T) (s' : State T) :
    Decidable (StepsByOne message toLowerCase s e s') :=
  inferInstanceAs (Decidable (_ → _))

theorem clampedIndex_of_lt {s : State T}
    (h : s.currentMatchIndex < s.totalMatches message toLowerCase) :
    s.clampedIndex message toLowerCase = s.currentMatchIndex := by
  unfold State.clampedIndex
  dsimp only
  rw [if_pos (by omega)]
  omega

theorem clampedIndex_set {s : State T} {i : Nat} (h : i < s.totalMatches message toLowerCase) :
    ({ s with currentMatchIndex := i } : State T).clampedIndex message toLowerCase = i :=
  clampedIndex_of_lt message toLowerCase (s := { s with currentMatchIndex := i }) h

theorem clampedIndex_next {s : State T} (h : 0 < s.totalMatches message toLowerCase) :
    (s.next message toLowerCase).clampedIndex message toLowerCase =
      (s.currentMatchIndex + 1) % s.totalMatches message toLowerCase := by
  unfold State.next
  dsimp only
  rw [if_neg (by omega), clampedIndex_set message toLowerCase (Nat.mod_lt _ h)]

theorem clampedIndex_prev {s : State T} (h : 0 < s.totalMatches message toLowerCase) :
    (s.prev message toLowerCase).clampedIndex message toLowerCase =
      (s.currentMatchIndex + s.totalMatches message toLowerCase - 1) %
        s.totalMatches message toLowerCase := by
  unfold State.prev
  dsimp only
  rw [if_neg (by omega), clampedIndex_set message toLowerCase (Nat.mod_lt _ h)]

/-- The kept and the shown index step alike exactly when they are equal up to the total. -/
theorem inStep_iff {s : State T} (h : 0 < s.totalMatches message toLowerCase) (k : Nat) :
    (s.currentMatchIndex + k) % s.totalMatches message toLowerCase =
        (s.clampedIndex message toLowerCase + k) % s.totalMatches message toLowerCase ↔
      InStep message toLowerCase s := by
  have hsame : (s.currentMatchIndex + k) % s.totalMatches message toLowerCase =
      (s.clampedIndex message toLowerCase + k) % s.totalMatches message toLowerCase ↔
      s.currentMatchIndex % s.totalMatches message toLowerCase =
        s.clampedIndex message toLowerCase % s.totalMatches message toLowerCase :=
    ⟨Nat.ModEq.add_right_cancel' k, Nat.ModEq.add_right k⟩
  rw [hsame]
  unfold InStep
  by_cases hlt : s.currentMatchIndex < s.totalMatches message toLowerCase
  · rw [clampedIndex_of_lt message toLowerCase hlt]
    exact iff_of_true rfl (Or.inl hlt)
  · have hlast : s.clampedIndex message toLowerCase = s.totalMatches message toLowerCase - 1 := by
      unfold State.clampedIndex
      dsimp only
      rw [if_pos h]
      omega
    rw [hlast, Nat.mod_eq_of_lt (Nat.sub_one_lt_of_lt h)]
    exact (or_iff_right hlt).symm

theorem next_iff {s s' : State T} (h : step message toLowerCase s .next = some s') :
    StepsByOne message toLowerCase s .next s' ↔
      (0 < s.totalMatches message toLowerCase → InStep message toLowerCase s) := by
  obtain rfl := Option.some.inj h
  refine forall_congr' fun hpos => ?_
  rw [clampedIndex_next message toLowerCase hpos, inStep_iff message toLowerCase hpos]
  simp

theorem prev_iff {s s' : State T} (h : step message toLowerCase s .prev = some s') :
    StepsByOne message toLowerCase s .prev s' ↔
      (0 < s.totalMatches message toLowerCase → InStep message toLowerCase s) := by
  obtain rfl := Option.some.inj h
  refine forall_congr' fun hpos => ?_
  have hback : ∀ i, i + s.totalMatches message toLowerCase - 1 =
      i + (s.totalMatches message toLowerCase - 1) := fun i => Nat.add_sub_assoc hpos i
  rw [clampedIndex_prev message toLowerCase hpos, hback, hback,
    inStep_iff message toLowerCase hpos]
  simp

/-- The search steps by one throughout a run exactly when it is in step at every step. -/
theorem steps_by_one_iff (events : List (Event T)) :
    EachStep (step message toLowerCase) (StepsByOne message toLowerCase) {} events ↔
      EachStep (step message toLowerCase)
        (fun s e _ => e = .next ∨ e = .prev → 0 < s.totalMatches message toLowerCase →
          InStep message toLowerCase s) {} events := by
  refine eachStep_iff (I := fun _ => True) ?_ ?_ trivial
  · intro s e s' _ hok h
    refine ⟨trivial, ?_⟩
    cases e with
    | next => exact (next_iff message toLowerCase h).mpr (hok (Or.inl rfl))
    | prev => exact (prev_iff message toLowerCase h).mpr (hok (Or.inr rfl))
    | setQuery query => simp [StepsByOne]
    | debounce => simp [StepsByOne]
    | setMode mode => simp [StepsByOne]
    | setLogs logs => simp [StepsByOne]
    | effect => simp [StepsByOne]
  · rintro s e s' _ hsteps h (rfl | rfl)
    · exact (next_iff message toLowerCase h).mp hsteps
    · exact (prev_iff message toLowerCase h).mp hsteps

end Hook

/-- Three lines with a match each, two steps, and a line less. -/
theorem next_stays :
    ¬ EachStep (step (T := JsText) id id) (StepsByOne id id) {}
      [.setMode .find, .setQuery [97], .debounce, .effect, .setLogs [[97], [97], [97]], .next,
        .next, .setLogs [[97], [97]], .next] := by
  decide

/-- Where the occurrences are that do not overlap, from left to right. -/
def occurrences (lowerText lowerQuery : JsText) : List Nat :=
  hits lowerQuery.isPrefixOf lowerQuery.length lowerText

theorem scan_occurrences (lowerText : JsText) {lowerQuery : JsText} (hquery : lowerQuery ≠ []) :
    Scan (fun p => lowerQuery.isPrefixOf (lowerText.drop p) = true) lowerQuery.length 0
      (occurrences lowerText lowerQuery) := by
  refine scan_hits ?_ (List.length_pos_iff.mpr hquery) lowerText
  rw [← Bool.not_eq_true, List.isPrefixOf_iff_prefix, List.prefix_nil]
  exact hquery

theorem countLoop_of_scan {lowerText lowerQuery : JsText} (hquery : lowerQuery ≠ []) {pos : Nat}
    {ps : List Nat}
    (h : Scan (fun p => lowerQuery.isPrefixOf (lowerText.drop p) = true) lowerQuery.length pos ps)
    {fuel : Nat} (hfuel : ps.length < fuel) (count : Nat) :
    countLoop lowerText lowerQuery fuel count pos = some (count + ps.length) := by
  simp only [List.isPrefixOf_iff_prefix] at h
  induction h generalizing fuel count with
  | @done pos none =>
      cases fuel with
      | zero => cases hfuel
      | succ fuel =>
          have hnone : JsString.indexOf lowerText lowerQuery pos = .none := by
            cases hindex : JsString.indexOf lowerText lowerQuery pos with
            | none => rfl
            | some p =>
                obtain ⟨hle, hbegin, _⟩ := JsString.indexOf_some hquery hindex
                exact absurd hbegin (none p hle)
          rw [countLoop, hnone]
          rfl
  | @take pos p ps later here first rest ih =>
      cases fuel with
      | zero => cases hfuel
      | succ fuel =>
          have hsome : JsString.indexOf lowerText lowerQuery pos = some p := by
            cases hindex : JsString.indexOf lowerText lowerQuery pos with
            | none => exact absurd here (JsString.indexOf_none hquery hindex p later)
            | some q =>
                obtain ⟨hle, hbegin, hleast⟩ := JsString.indexOf_some hquery hindex
                rw [Nat.le_antisymm (hleast p later here) (first q hle hbegin)]
          have hmore := ih (Nat.lt_of_succ_lt_succ hfuel) (count + 1)
          rw [countLoop, hsome]
          dsimp only
          rw [hmore, List.length_cons]
          congr 1
          omega

/-- The loop ends, and has then counted the occurrences. -/
theorem countLoop_eq (lowerText : JsText) {lowerQuery : JsText} (hquery : lowerQuery ≠ [])
    {fuel : Nat} (hfuel : lowerText.length < fuel) :
    countLoop lowerText lowerQuery fuel 0 0 = some (occurrences lowerText lowerQuery).length := by
  have hle : (occurrences lowerText lowerQuery).length ≤ lowerText.length :=
    length_hitsFrom_le 0 0 lowerText
  rw [countLoop_of_scan hquery (scan_occurrences lowerText hquery) (by omega), Nat.zero_add]

/-! ## All occurrences in order -/

/-- The matches one by one, each with its line and its position there. -/
def expand : List MatchInfo → List (Nat × Nat)
  | [] => []
  | m :: infos => (List.range m.matchCount).map (m.logIndex, ·) ++ expand infos

theorem totalOf_eq (infos : List MatchInfo) : totalOf infos = (expand infos).length := by
  have hfold : ∀ (infos : List MatchInfo) (n : Nat),
      infos.foldl (fun sum m => sum + m.matchCount) n = n + (expand infos).length := by
    intro infos
    induction infos with
    | nil => exact fun n => rfl
    | cons m infos ih =>
        intro n
        rw [List.foldl_cons, ih, expand, List.length_append, List.length_map, List.length_range,
          Nat.add_assoc]
  rw [totalOf, hfold, Nat.zero_add]

/-- The walk comes to the match with the number it is given. -/
theorem walk_eq (infos : List MatchInfo) (c : Nat) : walk infos c = (expand infos)[c]? := by
  induction infos generalizing c with
  | nil => rfl
  | cons m infos ih =>
      rw [walk, expand]
      split
      next hlt =>
        rw [List.getElem?_append_left (by simpa using hlt), List.getElem?_map,
          List.getElem?_range hlt]
        rfl
      next hge =>
        rw [List.getElem?_append_right (by simpa using hge), List.length_map, List.length_range,
          ih]

section Enumeration

variable {T : Type} (message : T → JsText) (toLowerCase : JsText → JsText)

/-- The occurrences of the query in the lines from `i` on, line by line. -/
def occurrencePairs (query : JsText) : Nat → List T → List (Nat × Nat)
  | _, [] => []
  | i, log :: logs =>
      (List.range (occurrences (toLowerCase (message log)) (toLowerCase query)).length).map
          (i, ·) ++
        occurrencePairs query (i + 1) logs

theorem mem_occurrencePairs {query : JsText} {n i k : Nat} {logs : List T} :
    (i, k) ∈ occurrencePairs message toLowerCase query n logs ↔ n ≤ i ∧
      ∃ log, logs[i - n]? = some log ∧
        k < (occurrences (toLowerCase (message log)) (toLowerCase query)).length := by
  induction logs generalizing n with
  | nil => simp [occurrencePairs]
  | cons log logs ih =>
      rw [occurrencePairs, List.mem_append, ih]
      rcases Nat.lt_trichotomy i n with hlt | rfl | hgt
      · have hne : n ≠ i := by omega
        simp [hne, Nat.not_le_of_lt hlt, Nat.not_le_of_lt (Nat.lt_succ_of_lt hlt)]
      · simp
      · have hne : n ≠ i := by omega
        obtain ⟨d, rfl⟩ := Nat.exists_eq_add_of_lt hgt
        have hd : n + d + 1 - n = d + 1 := by omega
        have hd' : n + d + 1 - (n + 1) = d := by omega
        have hle : n ≤ n + d + 1 := by omega
        have hle' : n + 1 ≤ n + d + 1 := by omega
        rw [hd, hd', List.getElem?_cons_succ]
        simp [hne, hle, hle']

theorem occurrencePairs_increasing (query : JsText) (n : Nat) (logs : List T) :
    (occurrencePairs message toLowerCase query n logs).Pairwise
      (Prod.Lex (· < ·) (· < ·)) := by
  induction logs generalizing n with
  | nil => exact List.Pairwise.nil
  | cons log logs ih =>
      rw [occurrencePairs, List.pairwise_append]
      refine ⟨?_, ih (n + 1), ?_⟩
      · rw [List.pairwise_map]
        exact List.pairwise_lt_range.imp fun h => Prod.Lex.right n h
      · rintro _ hp ⟨j, k⟩ hq
        obtain ⟨k', _, rfl⟩ := List.mem_map.mp hp
        have hj := (mem_occurrencePairs message toLowerCase).mp hq
        exact Prod.Lex.left _ _ hj.1

variable (hlower : ∀ text, text ≠ [] → toLowerCase text ≠ [])
include hlower

theorem countMatches_eq {query : JsText} (hquery : query ≠ []) (text : JsText) :
    countMatches toLowerCase text query =
      (occurrences (toLowerCase text) (toLowerCase query)).length := by
  unfold countMatches
  rw [if_neg hquery, countLoop_eq _ (hlower query hquery) (Nat.lt_succ_self _)]
  rfl

theorem expand_matchInfos {query : JsText} (hquery : query ≠ []) (n : Nat) (logs : List T) :
    expand (matchInfos message toLowerCase query n logs) =
      occurrencePairs message toLowerCase query n logs := by
  induction logs generalizing n with
  | nil => rfl
  | cons log logs ih =>
      have hcount := countMatches_eq toLowerCase hlower hquery (message log)
      rw [matchInfos, occurrencePairs, ← hcount]
      split
      next => rw [expand, ih]
      next hzero =>
        have hzero : countMatches toLowerCase (message log) query = 0 := by omega
        rw [ih, hzero]
        rfl

variable {s : State T} (hmode : s.mode = .find) (hquery : s.trimmedQuery ≠ [])
include hmode hquery

theorem expand_matchList :
    expand (s.matchList message toLowerCase) =
      occurrencePairs message toLowerCase s.trimmedQuery 0 s.logs := by
  unfold State.matchList
  rw [if_pos ⟨hmode, hquery⟩, expand_matchInfos message toLowerCase hlower hquery]

theorem totalMatches_eq :
    s.totalMatches message toLowerCase =
      (occurrencePairs message toLowerCase s.trimmedQuery 0 s.logs).length := by
  unfold State.totalMatches
  rw [totalOf_eq, expand_matchList message toLowerCase hlower hmode hquery]

omit hlower hmode hquery in
theorem currentMatch_eq {i : Nat} {p : Nat × Nat} (hi : i < s.totalMatches message toLowerCase)
    (hwalk : walk (s.matchList message toLowerCase) i = some p) :
    ({ s with currentMatchIndex := i } : State T).currentMatch message toLowerCase = some p := by
  have hinfos : s.matchList message toLowerCase ≠ [] := by
    intro hnil
    rw [hnil] at hwalk
    cases hwalk
  have hsome : ¬ (s.totalMatches message toLowerCase = 0 ∨
      s.matchList message toLowerCase = []) := not_or.mpr ⟨by omega, hinfos⟩
  unfold State.currentMatch
  rw [clampedIndex_set message toLowerCase hi]
  show (if s.totalMatches message toLowerCase = 0 ∨ s.matchList message toLowerCase = [] then none
    else (walk (s.matchList message toLowerCase) i).or _) = some p
  rw [if_neg hsome, hwalk, Option.some_or]

end Enumeration

/-! ## The index of the shown match -/

/-- What the index of the shown match runs over. -/
structure Enumerates {T : Type} (message : T → JsText) (toLowerCase : JsText → JsText)
    (s : State T) : Prop where
  /-- Counting a line ends. -/
  terminates : ∀ log ∈ s.logs, ∀ fuel, (toLowerCase (message log)).length < fuel →
    countLoop (toLowerCase (message log)) (toLowerCase s.trimmedQuery) fuel 0 0 =
      some (occurrences (toLowerCase (message log)) (toLowerCase s.trimmedQuery)).length
  /-- An index below the total is shown, and the loop finds a match for it. -/
  found : ∀ c < s.totalMatches message toLowerCase,
    ({ s with currentMatchIndex := c } : State T).clampedIndex message toLowerCase = c ∧
    ∃ p, walk (s.matchList message toLowerCase) c = some p ∧
      ({ s with currentMatchIndex := c } : State T).currentMatch message toLowerCase = some p
  increasing : ∀ c c' p p', c < c' → c' < s.totalMatches message toLowerCase →
    ({ s with currentMatchIndex := c } : State T).currentMatch message toLowerCase = some p →
    ({ s with currentMatchIndex := c' } : State T).currentMatch message toLowerCase = some p' →
    Prod.Lex (· < ·) (· < ·) p p'
  /-- The matches are the occurrences in all lines. -/
  exact : ∀ i k, (∃ c < s.totalMatches message toLowerCase,
      ({ s with currentMatchIndex := c } : State T).currentMatch message toLowerCase =
        some (i, k)) ↔
    ∃ log, s.logs[i]? = some log ∧
      k < (occurrences (toLowerCase (message log)) (toLowerCase s.trimmedQuery)).length

theorem find_enumerates {T : Type} (message : T → JsText) (toLowerCase : JsText → JsText)
    (hlower : ∀ text, text ≠ [] → toLowerCase text ≠ []) {s : State T} (hmode : s.mode = .find)
    (hquery : s.trimmedQuery ≠ []) : Enumerates message toLowerCase s := by
  have htotal := totalMatches_eq message toLowerCase hlower hmode hquery
  have hwalk : ∀ c, walk (s.matchList message toLowerCase) c =
      (occurrencePairs message toLowerCase s.trimmedQuery 0 s.logs)[c]? := by
    intro c
    rw [walk_eq, expand_matchList message toLowerCase hlower hmode hquery]
  have hcurrent : ∀ c < s.totalMatches message toLowerCase,
      ({ s with currentMatchIndex := c } : State T).currentMatch message toLowerCase =
        (occurrencePairs message toLowerCase s.trimmedQuery 0 s.logs)[c]? := by
    intro c hc
    have hp := List.getElem?_eq_getElem (htotal ▸ hc)
    rw [hp]
    exact currentMatch_eq message toLowerCase hc ((hwalk c).trans hp)
  refine ⟨?_, ?_, ?_, ?_⟩
  · exact fun log _ fuel hfuel => countLoop_eq _ (hlower _ hquery) hfuel
  · intro c hc
    have hp := List.getElem?_eq_getElem (htotal ▸ hc)
    exact ⟨clampedIndex_set message toLowerCase hc, _, (hwalk c).trans hp,
      (hcurrent c hc).trans hp⟩
  · intro c c' p p' hlt hc' hp hp'
    rw [hcurrent c (by omega)] at hp
    rw [hcurrent c' hc'] at hp'
    obtain ⟨_, rfl⟩ := List.getElem?_eq_some_iff.mp hp
    obtain ⟨_, rfl⟩ := List.getElem?_eq_some_iff.mp hp'
    have hpairs := occurrencePairs_increasing message toLowerCase s.trimmedQuery 0 s.logs
    exact List.pairwise_iff_getElem.mp hpairs c c' _ _ hlt
  · intro i k
    have hmem := @mem_occurrencePairs T message toLowerCase s.trimmedQuery 0 i k s.logs
    rw [Nat.sub_zero] at hmem
    rw [← and_iff_right (Nat.zero_le i) (b := ∃ log, s.logs[i]? = some log ∧ _), ← hmem,
      List.mem_iff_getElem?]
    constructor
    · rintro ⟨c, hc, hp⟩
      exact ⟨c, (hcurrent c hc).symm.trans hp⟩
    · rintro ⟨c, hp⟩
      have hc : c < s.totalMatches message toLowerCase := by
        rw [htotal]
        exact (List.getElem?_eq_some_iff.mp hp).1
      exact ⟨c, hc, (hcurrent c hc).trans hp⟩

/-- `toLowerCase` on texts of ASCII characters. -/
def lowerAscii (text : JsText) : JsText :=
  text.map fun u => if 65 ≤ u && u ≤ 90 then u + 32 else u

/-- The lines "aAb" and "A", with three occurrences of "a". -/
theorem find_enumerates_ascii :
    Enumerates id lowerAscii
      { mode := .find, debouncedValue := [97], logs := [[97, 65, 98], [65]] } :=
  find_enumerates id lowerAscii (fun text h => by simpa [lowerAscii] using h) rfl (by decide)

end LogSearch

end NestGateway.Ui
