import Mathlib.Data.List.DropRight
import Mathlib.Data.List.Sort
import Mathlib.Data.String.Basic
import NestGateway.Core.Runs

/-! # The log buffer of the user interface

`useLogBuffer` gathers log entries in a batch and moves the batch into the state
on the next animation frame. React keeps the updates of the state until the next
render; when none is waiting it may compute the new state at once.
-/

namespace NestGateway.Ui

open Runs

structure UseLogBufferOptions where
  maxLines : Nat := 5000
  sortByTimestamp : Bool := false

/-- `xs.slice(-n)`; a slice from `-0` on is the whole array. -/
def sliceLast {T : Type} (n : Nat) (xs : List T) : List T :=
  xs.drop (if n = 0 then 0 else xs.length - n)

section Slices

variable {T : Type}

theorem sliceLast_of_le {n : Nat} {xs : List T} (h : xs.length ≤ n) : sliceLast n xs = xs := by
  have hzero : (if n = 0 then 0 else xs.length - n) = 0 := by
    split <;> omega
  rw [sliceLast, hzero, List.drop_zero]

theorem length_sliceLast {n : Nat} (hn : 1 ≤ n) (xs : List T) :
    (sliceLast n xs).length = min n xs.length := by
  rw [sliceLast, if_neg (by omega), List.length_drop]
  omega

theorem sliceLast_append (n : Nat) (xs ys : List T) :
    sliceLast n (xs ++ ys) =
      xs.drop (if n = 0 then 0 else xs.length + ys.length - n) ++ sliceLast n ys := by
  unfold sliceLast
  rw [List.length_append, List.drop_append]
  congr 2
  split <;> omega

theorem sliceLast_eq_rtake {n : Nat} (hn : 1 ≤ n) (xs : List T) : sliceLast n xs = xs.rtake n := by
  rw [sliceLast, if_neg (by omega), List.rtake]

theorem sliceLast_sublist (n : Nat) (xs : List T) : (sliceLast n xs).Sublist xs :=
  List.drop_sublist _ _

end Slices

namespace LogBuffer

inductive Update (T : Type) where
  | set (logs : List T)
  /-- The function of `flushBatch`. -/
  | flush (batch : List T)

structure State (T : Type) where
  /-- The state of the last render. -/
  logs : List T := []
  updates : List (Update T) := []
  batchRef : List T := []
  /-- Whether `flushBatch` waits for a frame. -/
  rafRef : Bool := false
  batchStartRef : Nat := 0

inductive Event (T : Type) where
  | addLog (log : T)
  /-- The frame that `flushBatch` waits for, and whether React computes the state at once. -/
  | frame (eager : Bool)
  | clearLogs
  | render
  deriving DecidableEq

section Hook

variable {τ T : Type} [LinearOrder τ] (timestamp : T → τ) (localeCompare : τ → τ → Int)
  (options : UseLogBufferOptions)

/-- Some entry of the batch is earlier than the last one of the buffer, and so the flush sorts. -/
def sorts (prev batch : List T) : Bool :=
  options.sortByTimestamp &&
    match prev.getLast? with
    | none => false
    | some last => batch.any fun e => timestamp e < timestamp last

/-- `next.sort((a, b) => a.timestamp.localeCompare(b.timestamp))` -/
def sortLogs (logs : List T) : List T :=
  logs.insertionSort fun a b => localeCompare (timestamp a) (timestamp b) ≤ 0

/-- The function of `flushBatch`: the next logs, and what it leaves in `batchStartRef`. -/
def flushLogs (prev batch : List T) : List T × Nat :=
  let next := prev ++ batch
  let (next, batchStart) :=
    if sorts timestamp options prev batch then
      (sortLogs timestamp localeCompare next, next.length)
    else (next, prev.length)
  if options.maxLines < next.length then
    (sliceLast options.maxLines next, batchStart - (next.length - options.maxLines))
  else (next, batchStart)

def Update.apply (shown : List T × Nat) : Update T → List T × Nat
  | .set logs => (logs, shown.2)
  | .flush batch => flushLogs timestamp localeCompare options shown.1 batch

/-- What a render makes of the updates that wait. -/
def State.shown (s : State T) : List T × Nat :=
  s.updates.foldl (Update.apply timestamp localeCompare options) (s.logs, s.batchStartRef)

/-- The logs with all updates made, as the next render shows them. -/
def State.current (s : State T) : List T := (s.shown timestamp localeCompare options).1

/-- What the next render returns as `batchStartIndex`. -/
def State.batchStartIndex (s : State T) : Nat := (s.shown timestamp localeCompare options).2

def flushBatch (s : State T) (eager : Bool) : State T :=
  if s.batchRef = [] then { s with rafRef := false }
  else if eager && s.updates.isEmpty then
    let (logs, batchStart) := flushLogs timestamp localeCompare options s.logs s.batchRef
    { s with rafRef := false, batchRef := [], updates := [.set logs], batchStartRef := batchStart }
  else { s with rafRef := false, batchRef := [], updates := s.updates ++ [.flush s.batchRef] }

def addLog (s : State T) (log : T) : State T :=
  { s with batchRef := s.batchRef ++ [log], rafRef := true }

def clearLogs (s : State T) : State T :=
  { s with batchRef := [], batchStartRef := 0, rafRef := false, updates := s.updates ++ [.set []] }

def render (s : State T) : State T :=
  { s with
    logs := s.current timestamp localeCompare options
    updates := []
    batchStartRef := s.batchStartIndex timestamp localeCompare options }

def step (s : State T) : Event T → Option (State T)
  | .addLog log => some (addLog s log)
  | .frame eager =>
      if s.rafRef then some (flushBatch timestamp localeCompare options s eager) else none
  | .clearLogs => some (clearLogs s)
  | .render => some (render timestamp localeCompare options s)

/-- All entries in the order they are shown in, before the oldest are dropped. -/
def merged (prev batch : List T) : List T :=
  if sorts timestamp options prev batch then sortLogs timestamp localeCompare (prev ++ batch)
  else prev ++ batch

omit [LinearOrder τ] in
theorem sortLogs_perm (logs : List T) : (sortLogs timestamp localeCompare logs).Perm logs :=
  List.perm_insertionSort _ _

theorem merged_perm (prev batch : List T) :
    (merged timestamp localeCompare options prev batch).Perm (prev ++ batch) := by
  unfold merged
  split
  · exact sortLogs_perm timestamp localeCompare _
  · exact List.Perm.refl _

theorem flushLogs_fst (prev batch : List T) :
    (flushLogs timestamp localeCompare options prev batch).1 =
      sliceLast options.maxLines (merged timestamp localeCompare options prev batch) := by
  have htrim : ∀ (next : List T) (n : Nat),
      (if options.maxLines < next.length then
        (sliceLast options.maxLines next, n - (next.length - options.maxLines))
      else (next, n)).1 = sliceLast options.maxLines next := by
    intro next n
    split
    next => rfl
    next h => exact (sliceLast_of_le (not_lt.mp h)).symm
  unfold flushLogs merged
  split
  · exact htrim _ _
  · exact htrim _ _

theorem flushLogs_unsorted (hmax : 1 ≤ options.maxLines) {prev batch : List T}
    (h : sorts timestamp options prev batch = false) :
    flushLogs timestamp localeCompare options prev batch =
      (prev.drop (prev.length + batch.length - options.maxLines) ++
          sliceLast options.maxLines batch,
        (prev.drop (prev.length + batch.length - options.maxLines)).length) := by
  refine Prod.ext ?_ ?_
  · rw [flushLogs_fst, merged, h, if_neg Bool.false_ne_true, sliceLast_append,
      if_neg (by omega : ¬ options.maxLines = 0)]
  · unfold flushLogs
    simp only [h, Bool.false_eq_true, if_false, List.length_append, List.length_drop]
    split
    · rfl
    · show prev.length = _
      omega

theorem length_flushLogs (hmax : 1 ≤ options.maxLines) (prev batch : List T) :
    (flushLogs timestamp localeCompare options prev batch).1.length =
      min options.maxLines (prev.length + batch.length) := by
  rw [flushLogs_fst, length_sliceLast hmax,
    (merged_perm timestamp localeCompare options _ _).length_eq, List.length_append]

/-! ## One event -/

theorem shown_flushBatch {s : State T} (hbatch : s.batchRef ≠ []) (eager : Bool) :
    (flushBatch timestamp localeCompare options s eager).shown timestamp localeCompare options =
      flushLogs timestamp localeCompare options (s.current timestamp localeCompare options)
        s.batchRef := by
  unfold flushBatch State.current State.shown
  rw [if_neg hbatch]
  split
  next heager =>
    -- nothing waits, so the state at once is the one a render would make
    have hnone : s.updates = [] := by
      simpa using (Bool.and_eq_true_iff.mp heager).2
    rw [hnone]
    rfl
  next => rw [List.foldl_append]; rfl

theorem batchRef_flushBatch (s : State T) (eager : Bool) :
    (flushBatch timestamp localeCompare options s eager).batchRef = [] := by
  unfold flushBatch
  split
  next h => exact h
  next => split <;> rfl

theorem logs_flushBatch (s : State T) (eager : Bool) :
    (flushBatch timestamp localeCompare options s eager).logs = s.logs := by
  unfold flushBatch
  split
  · rfl
  · split <;> rfl

theorem rafRef_flushBatch (s : State T) (eager : Bool) :
    (flushBatch timestamp localeCompare options s eager).rafRef = false := by
  unfold flushBatch
  split
  · rfl
  · split <;> rfl

theorem current_clearLogs (s : State T) :
    (clearLogs s).current timestamp localeCompare options = [] := by
  unfold State.current State.shown clearLogs
  rw [List.foldl_append]
  rfl

/-- A frame is waited for exactly while a batch is. -/
def Scheduled (s : State T) : Prop := s.rafRef = true ↔ s.batchRef ≠ []

theorem step_scheduled {s s' : State T} {e : Event T} (hs : Scheduled s)
    (h : step timestamp localeCompare options s e = some s') : Scheduled s' := by
  unfold step at h
  cases e with
  | addLog log =>
      obtain rfl := Option.some.inj h
      simp [Scheduled, addLog]
  | frame eager =>
      dsimp only at h
      split at h
      · obtain rfl := Option.some.inj h
        simp [Scheduled, batchRef_flushBatch, rafRef_flushBatch]
      · cases h
  | clearLogs =>
      obtain rfl := Option.some.inj h
      simp [Scheduled, clearLogs]
  | render =>
      obtain rfl := Option.some.inj h
      exact hs

theorem frame_cases {s s' : State T} {eager : Bool} (hs : Scheduled s)
    (h : step timestamp localeCompare options s (.frame eager) = some s') :
    s.batchRef ≠ [] ∧ s' = flushBatch timestamp localeCompare options s eager := by
  unfold step at h
  dsimp only at h
  split at h
  next hraf => exact ⟨hs.mp hraf, (Option.some.inj h).symm⟩
  next => cases h

/-! ## Time order -/

def TimeOrdered (logs : List T) : Prop := logs.Pairwise fun a b => timestamp a ≤ timestamp b

/-- What is shown and what the next render shows are in order. -/
def InOrder (s : State T) : Prop :=
  TimeOrdered timestamp s.logs ∧ TimeOrdered timestamp (s.current timestamp localeCompare options)

/-- A flush sorts, or finds the entries of the batch that it can keep in order. -/
def Sortable (s : State T) : Prop :=
  sorts timestamp options (s.current timestamp localeCompare options) s.batchRef = true ∨
    TimeOrdered timestamp (sliceLast options.maxLines s.batchRef)

instance decidableTimeOrdered (logs : List T) : Decidable (TimeOrdered timestamp logs) :=
  inferInstanceAs (Decidable (List.Pairwise _ _))

instance decidableInOrder (s : State T) :
    Decidable (InOrder timestamp localeCompare options s) :=
  inferInstanceAs (Decidable (_ ∧ _))

instance decidableSortable (s : State T) :
    Decidable (Sortable timestamp localeCompare options s) :=
  inferInstanceAs (Decidable (_ ∨ _))

section Ordered

variable (coincide : ∀ a b, localeCompare a b ≤ 0 ↔ a ≤ b) (hsort : options.sortByTimestamp = true)
include coincide

theorem sortLogs_ordered (logs : List T) :
    TimeOrdered timestamp (sortLogs timestamp localeCompare logs) := by
  have htotal : Std.Total fun a b : T => localeCompare (timestamp a) (timestamp b) ≤ 0 :=
    ⟨fun a b => by rw [coincide, coincide]; exact le_total _ _⟩
  have htrans : IsTrans T fun a b => localeCompare (timestamp a) (timestamp b) ≤ 0 :=
    ⟨fun a b c => by rw [coincide, coincide, coincide]; exact le_trans⟩
  have hpairs := List.pairwise_insertionSort
    (fun a b : T => localeCompare (timestamp a) (timestamp b) ≤ 0) logs
  exact hpairs.imp fun h => (coincide _ _).mp h

include hsort

/-- A flush of an ordered buffer leaves it in order exactly if it sorts or need not. -/
theorem flushLogs_ordered_iff {prev : List T} (hprev : TimeOrdered timestamp prev)
    (batch : List T) :
    TimeOrdered timestamp (flushLogs timestamp localeCompare options prev batch).1 ↔
      sorts timestamp options prev batch = true ∨
        TimeOrdered timestamp (sliceLast options.maxLines batch) := by
  rw [flushLogs_fst, merged]
  cases hsorts : sorts timestamp options prev batch with
  | true =>
      have hsorted := sortLogs_ordered timestamp localeCompare coincide (prev ++ batch)
      simp only [if_true, true_or, iff_true]
      exact hsorted.sublist (sliceLast_sublist _ _)
  | false =>
      have hlater : ∀ a ∈ prev, ∀ b ∈ batch, timestamp a ≤ timestamp b := by
        intro a ha b hb
        unfold sorts at hsorts
        rw [hsort, Bool.true_and] at hsorts
        obtain ⟨front, last, rfl⟩ := List.eq_nil_or_concat' prev |>.resolve_left
          (List.ne_nil_of_mem ha)
        rw [List.getLast?_concat] at hsorts
        have hlast : timestamp last ≤ timestamp b := by
          have hnone := List.any_eq_false.mp hsorts b hb
          exact not_lt.mp fun hlt => hnone (decide_eq_true hlt)
        rcases List.mem_append.mp ha with ha | ha
        · exact ((List.pairwise_append.mp hprev).2.2 a ha last List.mem_cons_self).trans hlast
        · exact List.mem_singleton.mp ha ▸ hlast
      simp only [Bool.false_eq_true, if_false, false_or]
      rw [sliceLast_append]
      unfold TimeOrdered
      rw [List.pairwise_append]
      constructor
      · exact fun h => h.2.1
      · refine fun h => ⟨hprev.sublist (List.drop_sublist _ _), h, fun a ha b hb => ?_⟩
        exact hlater a (List.mem_of_mem_drop ha) b ((sliceLast_sublist _ _).subset hb)

/-- The buffer stays in order exactly when every flush sorts it or need not. -/
theorem logs_ordered_iff (events : List (Event T)) :
    EachStep (step timestamp localeCompare options)
        (fun _ _ s' => InOrder timestamp localeCompare options s') {} events ↔
      EachStep (step timestamp localeCompare options)
        (fun s e _ => ∀ eager, e = .frame eager → Sortable timestamp localeCompare options s)
        {} events := by
  refine eachStep_iff
    (I := fun s => InOrder timestamp localeCompare options s ∧ Scheduled s) ?_ ?_ ?_
  · rintro s e s' ⟨⟨hlogs, hcurrent⟩, hs⟩ hok h
    have hs' := step_scheduled timestamp localeCompare options hs h
    suffices hordered : InOrder timestamp localeCompare options s' from ⟨⟨hordered, hs'⟩, hordered⟩
    cases e with
    | addLog log =>
        obtain rfl := Option.some.inj h
        exact ⟨hlogs, hcurrent⟩
    | frame eager =>
        obtain ⟨hbatch, rfl⟩ := frame_cases timestamp localeCompare options hs h
        refine ⟨by rwa [logs_flushBatch], ?_⟩
        rw [State.current, shown_flushBatch _ _ _ hbatch]
        exact (flushLogs_ordered_iff timestamp localeCompare options coincide hsort hcurrent _).mpr
          (hok eager rfl)
    | clearLogs =>
        obtain rfl := Option.some.inj h
        refine ⟨hlogs, ?_⟩
        rw [current_clearLogs]
        exact List.Pairwise.nil
    | render =>
        obtain rfl := Option.some.inj h
        exact ⟨hcurrent, hcurrent⟩
  · rintro s e s' ⟨⟨_, hcurrent⟩, hs⟩ ⟨_, hordered⟩ h eager rfl
    obtain ⟨hbatch, rfl⟩ := frame_cases timestamp localeCompare options hs h
    rw [State.current, shown_flushBatch _ _ _ hbatch] at hordered
    exact (flushLogs_ordered_iff timestamp localeCompare options coincide hsort hcurrent _).mp
      hordered
  · exact ⟨⟨List.Pairwise.nil, List.Pairwise.nil⟩, by simp [Scheduled]⟩

end Ordered

/-- A comparison that coincides with `<`. -/
def compareTexts (a b : τ) : Int := if a < b then -1 else if b < a then 1 else 0

theorem compareTexts_le (a b : τ) : compareTexts a b ≤ 0 ↔ a ≤ b := by
  unfold compareTexts
  rcases lt_trichotomy a b with h | h | h
  · simp [h, h.le]
  · simp [h]
  · simp [h, h.not_gt, h.not_ge]

/-- A later batch that is sorted in. -/
theorem logs_ordered_sorted :
    EachStep (step (T := String) id compareTexts { sortByTimestamp := true })
      (fun _ _ s' => InOrder id compareTexts { sortByTimestamp := true } s') {}
      [.addLog "2026-03-01T09:00:02Z", .frame true, .addLog "2026-03-01T09:00:01Z", .frame false,
        .render] :=
  (logs_ordered_iff id compareTexts { sortByTimestamp := true } compareTexts_le rfl _).mpr
    (by decide)

/-- The first batch is not sorted: the entries of two containers stay as they came. -/
theorem logs_unordered :
    ¬ EachStep (step (T := String) id compareTexts { sortByTimestamp := true })
      (fun _ _ s' => InOrder id compareTexts { sortByTimestamp := true } s') {}
      [.addLog "2026-03-01T09:00:02Z", .addLog "2026-03-01T09:00:01Z", .frame true, .render] := by
  decide

/-! ## Nothing lost, nothing twice -/

/-- No more lines than the buffer may have are shown, now or by the next render. -/
def Bounded (s : State T) : Prop :=
  s.logs.length ≤ options.maxLines ∧
    (s.current timestamp localeCompare options).length ≤ options.maxLines

structure Flushed (s s' : State T) : Prop where
  consumed : s'.batchRef = []
  /-- The last of all entries, which a flush that does not sort leaves in their order. -/
  kept : ∃ all : List T,
    all.Perm (s.current timestamp localeCompare options ++ s.batchRef) ∧
    s'.current timestamp localeCompare options = all.rtake options.maxLines ∧
    (sorts timestamp options (s.current timestamp localeCompare options) s.batchRef = false →
      all = s.current timestamp localeCompare options ++ s.batchRef)
  /-- Without a sort, the index is where the remaining entries of the batch begin. -/
  index : sorts timestamp options (s.current timestamp localeCompare options) s.batchRef = false →
    s'.batchStartIndex timestamp localeCompare options <
        (s'.current timestamp localeCompare options).length ∧
      (s'.current timestamp localeCompare options).drop
        (s'.batchStartIndex timestamp localeCompare options) = s.batchRef.rtake options.maxLines

def Accounted (s : State T) : Event T → State T → Prop
  | .addLog log, s' =>
      s'.logs = s.logs ∧
        s'.current timestamp localeCompare options = s.current timestamp localeCompare options ∧
        s'.batchRef = s.batchRef ++ [log]
  | .frame _, s' => s'.logs = s.logs ∧ Flushed timestamp localeCompare options s s'
  | .clearLogs, s' =>
      s'.logs = s.logs ∧ s'.current timestamp localeCompare options = [] ∧ s'.batchRef = []
  | .render, s' =>
      s'.logs = s.current timestamp localeCompare options ∧
        s'.current timestamp localeCompare options = s.current timestamp localeCompare options ∧
        s'.batchRef = s.batchRef

/-- The entries that were added since the buffer was last cleared. -/
def Event.added (entries : List T) : Event T → List T
  | .addLog log => entries ++ [log]
  | .frame _ => entries
  | .clearLogs => []
  | .render => entries

section Capacity

variable (hmax : 1 ≤ options.maxLines)
include hmax

theorem flushBatch_flushed {s : State T} (hbatch : s.batchRef ≠ []) (eager : Bool) :
    Flushed timestamp localeCompare options s
      (flushBatch timestamp localeCompare options s eager) := by
  have hshown := shown_flushBatch timestamp localeCompare options hbatch eager
  refine ⟨batchRef_flushBatch timestamp localeCompare options s eager, ?_, fun hsorts => ?_⟩
  · refine ⟨merged timestamp localeCompare options _ s.batchRef,
      merged_perm timestamp localeCompare options _ _, ?_, fun hsorts => ?_⟩
    · rw [State.current, hshown, flushLogs_fst, sliceLast_eq_rtake hmax]
    · rw [merged, hsorts, if_neg Bool.false_ne_true]
  · rw [State.current, State.batchStartIndex, hshown,
      flushLogs_unsorted timestamp localeCompare options hmax hsorts,
      ← sliceLast_eq_rtake hmax]
    have hpos := List.length_pos_iff.mpr hbatch
    constructor
    · rw [List.length_append, length_sliceLast hmax]
      omega
    · exact List.drop_left

theorem step_accounted {s s' : State T} {e : Event T} (hs : Scheduled s)
    (hbounded : Bounded timestamp localeCompare options s)
    (h : step timestamp localeCompare options s e = some s') :
    Bounded timestamp localeCompare options s' ∧
      Accounted timestamp localeCompare options s e s' := by
  cases e with
  | addLog log =>
      obtain rfl := Option.some.inj h
      exact ⟨hbounded, rfl, rfl, rfl⟩
  | frame eager =>
      obtain ⟨hbatch, rfl⟩ := frame_cases timestamp localeCompare options hs h
      have hlogs := logs_flushBatch timestamp localeCompare options s eager
      refine ⟨⟨by rw [hlogs]; exact hbounded.1, ?_⟩, hlogs,
        flushBatch_flushed timestamp localeCompare options hmax hbatch eager⟩
      rw [State.current, shown_flushBatch _ _ _ hbatch, length_flushLogs _ _ _ hmax]
      exact Nat.min_le_left _ _
  | clearLogs =>
      obtain rfl := Option.some.inj h
      have hcurrent := current_clearLogs timestamp localeCompare options s
      refine ⟨⟨hbounded.1, ?_⟩, rfl, hcurrent, rfl⟩
      rw [hcurrent]
      exact Nat.zero_le _
  | render =>
      obtain rfl := Option.some.inj h
      exact ⟨⟨hbounded.2, hbounded.2⟩, rfl, rfl, rfl⟩

/-- Until the buffer is full, what was added is what the buffer and the batch have. -/
def Holds (entries : List T) (s : State T) : Prop :=
  entries.length ≤ options.maxLines →
    (s.current timestamp localeCompare options ++ s.batchRef).Perm entries

theorem step_holds {s s' : State T} {e : Event T} {entries : List T} (hs : Scheduled s)
    (hbounded : Bounded timestamp localeCompare options s)
    (hholds : Holds timestamp localeCompare options entries s)
    (h : step timestamp localeCompare options s e = some s') :
    Holds timestamp localeCompare options (e.added entries) s' := by
  have haccounted := (step_accounted timestamp localeCompare options hmax hs hbounded h).2
  intro hroom
  cases e with
  | addLog log =>
      obtain ⟨_, hcurrent, hbatch⟩ := haccounted
      have hroom : entries.length + 1 ≤ options.maxLines := by
        simpa [Event.added] using hroom
      rw [hcurrent, hbatch, ← List.append_assoc]
      exact (hholds (by omega)).append_right [log]
  | frame eager =>
      obtain ⟨_, hflushed⟩ := haccounted
      obtain ⟨all, hall, hcurrent, _⟩ := hflushed.kept
      have hperm := hall.trans (hholds hroom)
      have hroom : all.length ≤ options.maxLines := hperm.length_eq ▸ hroom
      rw [hcurrent, hflushed.consumed, List.append_nil, List.rtake,
        Nat.sub_eq_zero_of_le hroom, List.drop_zero]
      exact hperm
  | clearLogs =>
      obtain ⟨_, hcurrent, hbatch⟩ := haccounted
      rw [hcurrent, hbatch]
      exact List.Perm.refl _
  | render =>
      obtain ⟨_, hcurrent, hbatch⟩ := haccounted
      rw [hcurrent, hbatch]
      exact hholds hroom

theorem run_holds {events : List (Event T)} {s s' : State T} {entries : List T}
    (hs : Scheduled s) (hbounded : Bounded timestamp localeCompare options s)
    (hholds : Holds timestamp localeCompare options entries s)
    (h : run (step timestamp localeCompare options) s events = some s') :
    Holds timestamp localeCompare options (events.foldl Event.added entries) s' := by
  induction events generalizing s entries with
  | nil => exact Option.some.inj h ▸ hholds
  | cons e events ih =>
      obtain ⟨t, hstep, hrest⟩ := exists_of_run_cons h
      exact ih (step_scheduled timestamp localeCompare options hs hstep)
        (step_accounted timestamp localeCompare options hmax hs hbounded hstep).1
        (step_holds timestamp localeCompare options hmax hs hbounded hholds hstep) hrest

/-- Every entry is kept once, from the batch to the logs, until newer ones fill the buffer. -/
theorem logs_accounted (events : List (Event T)) :
    EachStep (step timestamp localeCompare options)
        (fun s e s' => Bounded timestamp localeCompare options s' ∧
          Accounted timestamp localeCompare options s e s') {} events ∧
      ∀ s, run (step timestamp localeCompare options) {} events = some s →
        (events.foldl Event.added []).length ≤ options.maxLines →
        (s.current timestamp localeCompare options ++ s.batchRef).Perm
          (events.foldl Event.added []) := by
  have hs : Scheduled ({} : State T) := by simp [Scheduled]
  have hbounded : Bounded timestamp localeCompare options ({} : State T) :=
    ⟨Nat.zero_le _, Nat.zero_le _⟩
  constructor
  · have hok : EachStep (step timestamp localeCompare options) (fun _ _ _ => True) {} events :=
      eachStep_true _ _
    refine eachStep_of_invariant
      (I := fun s => Scheduled s ∧ Bounded timestamp localeCompare options s) ?_ ⟨hs, hbounded⟩ hok
    rintro s e s' ⟨hs, hbounded⟩ _ h
    have hstep := step_accounted timestamp localeCompare options hmax hs hbounded h
    exact ⟨⟨step_scheduled timestamp localeCompare options hs h, hstep.1⟩, hstep⟩
  · intro s hrun
    exact run_holds timestamp localeCompare options hmax hs hbounded
      (fun _ => List.Perm.refl _) hrun

end Capacity

/-- Three entries for a buffer of two lines. -/
theorem logs_accounted_full :
    EachStep (step (T := String) id compareTexts { maxLines := 2 })
        (fun s e s' => Bounded id compareTexts { maxLines := 2 } s' ∧
          Accounted id compareTexts { maxLines := 2 } s e s') {}
        [.addLog "a", .addLog "b", .frame true, .addLog "c", .frame false, .render] ∧
      ∀ s, run (step (T := String) id compareTexts { maxLines := 2 }) {}
          [.addLog "a", .addLog "b", .frame true, .addLog "c", .frame false, .render] = some s →
        ([.addLog "a", .addLog "b", .frame true, .addLog "c", .frame false, .render].foldl
          Event.added []).length ≤ 2 →
        (s.current id compareTexts { maxLines := 2 } ++ s.batchRef).Perm
          ([.addLog "a", .addLog "b", .frame true, .addLog "c", .frame false, .render].foldl
            Event.added []) :=
  logs_accounted id compareTexts { maxLines := 2 } (by decide) _

end Hook

end LogBuffer

end NestGateway.Ui
