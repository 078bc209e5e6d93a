import Mathlib.Algebra.Ring.Nat
import NestGateway.Core.Runs
import NestGateway.LogHistory.Service

/-! # Searches behind one circuit breaker

All calls of `LogHistoryService` go through the breaker of the domain
`log-history`. The breaker opens once more than half of at least five calls in
its rolling window have failed, and rejects every call while it is open. The
calls of a search are fired in one go and leave the window together.
-/

namespace NestGateway.LogHistory

def volumeThreshold : Nat := 5

def errorThresholdPercentage : Nat := 50

inductive BreakerState where
  | closed
  | opened
  /-- One call is let through to try; `trial` tells that it is still to come. -/
  | halfOpen (trial : Bool)
  deriving Repr, DecidableEq

/-- Calls that were fired in one go. -/
structure Batch where
  id : Nat
  fired : Nat
  failed : Nat
  deriving Repr, DecidableEq

structure Breaker where
  state : BreakerState
  /-- The rolling window, the oldest calls first. -/
  window : List Batch
  deriving Repr, DecidableEq

/-- Whether a call is let through, and the state after it. -/
def BreakerState.admit : BreakerState → Bool × BreakerState
  | .closed => (true, .closed)
  | .opened => (false, .opened)
  | .halfOpen trial => (trial, .halfOpen false)

def BreakerState.admitAll : Nat → BreakerState → List Bool × BreakerState
  | 0, state => ([], state)
  | n + 1, state =>
      let (admitted, state) := state.admit
      let (rest, state) := admitAll n state
      (admitted :: rest, state)

namespace Breaker

def fires (b : Breaker) : Nat := (b.window.map Batch.fired).sum

def failures (b : Breaker) : Nat := (b.window.map Batch.failed).sum

/-- More than half of enough calls have failed. -/
def Overloaded (b : Breaker) : Prop :=
  volumeThreshold ≤ b.fires ∧ errorThresholdPercentage * b.fires < 100 * b.failures

instance (b : Breaker) : Decidable b.Overloaded :=
  inferInstanceAs (Decidable (_ ∧ _))

/-- The failure, as the window counts it while the call is in it. -/
def countFailure (b : Breaker) (id : Nat) : Breaker :=
  { b with
    window := b.window.map fun batch =>
      if batch.id = id then { batch with failed := batch.failed + 1 } else batch }

def fail (b : Breaker) (id : Nat) : Breaker :=
  let b := b.countFailure id
  match b.state with
  | .closed => if b.Overloaded then { b with state := .opened } else b
  | .opened => b
  | .halfOpen _ => { b with state := .opened }

/-- A call succeeded, or its error was filtered. -/
def succeed (b : Breaker) : Breaker :=
  match b.state with
  | .halfOpen _ => { b with state := .closed }
  | _ => b

end Breaker

structure Searches (Host : Type) where
  breaker : Breaker
  /-- The calls that were let through and have not settled, with their batches. -/
  pending : List (Nat × Host)
  /-- The batch of the next search. -/
  nextId : Nat

variable {Host : Type}

def Searches.start : Searches Host := ⟨⟨.closed, []⟩, [], 0⟩

inductive SearchEvent where
  | searched (input : LogSearchInput)
  /-- A call settles. -/
  | settled (i : Nat)
  /-- The oldest calls leave the window. -/
  | aged
  | resetTimedOut

section Steps

-- the hosts, which of them fail every request, and whether `isStructuredDownstreamError` holds of
-- the error of such a host, which then does not count
variable (hosts : List Host) (failing structured : Host → Bool)

/-- Which calls of a search are let through: those for the lines, then those for the statistics. -/
def Searches.admitted (s : Searches Host) : List Bool :=
  (s.breaker.state.admitAll (2 * hosts.length)).1

def Searches.fire (s : Searches Host) : Searches Host where
  breaker :=
    { state := (s.breaker.state.admitAll (2 * hosts.length)).2
      window := s.breaker.window ++ [⟨s.nextId, 2 * hosts.length, 0⟩] }
  pending := s.pending ++
    (((hosts ++ hosts).zip (s.admitted hosts)).filter (·.2)).map fun call => (s.nextId, call.1)
  nextId := s.nextId + 1

def trips (h : Host) : Bool := failing h && !structured h

def Breaker.settle (b : Breaker) (call : Nat × Host) : Breaker :=
  if trips failing structured call.2 then b.fail call.1 else b.succeed

def Searches.step (s : Searches Host) : SearchEvent → Option (Searches Host)
  | .searched _ => some (s.fire hosts)
  | .settled i =>
      match s.pending[i]? with
      | none => none
      | some call =>
          some
            { s with
              breaker := s.breaker.settle failing structured call
              pending := s.pending.eraseIdx i }
  | .aged => some { s with breaker := { s.breaker with window := s.breaker.window.tail } }
  | .resetTimedOut =>
      match s.breaker.state with
      | .opened => some { s with breaker := { s.breaker with state := .halfOpen true } }
      | _ => none

end Steps

section Results

variable (upstream : Upstream Host) (hosts : List Host) (input : LogSearchInput)

def searchResults (admitted : List Bool) : List (Option LogSearchResponse) :=
  List.zipWith (fun h ok => if ok then upstream.getSearch h (searchParams input) else none) hosts
    admitted

def statsResults (admitted : List Bool) : List (Option LogStatsResponse) :=
  List.zipWith (fun h ok => if ok then upstream.getStats h (statsParams input) else none) hosts
    (admitted.drop hosts.length)

def mergedLines (results : List (Option LogSearchResponse)) : List LogLine :=
  (results.foldl (collectAnswer input.node) ([], false)).1

/-- The lines and the statistics of a host are in the merge, if its node passes the filter. -/
def Included (admitted : List Bool) (h : Host) : Prop :=
  (answeredLines input.node (upstream.getSearch h (searchParams input))).Sublist
      (mergedLines input (searchResults upstream hosts input admitted)) ∧
    ∀ data, upstream.getStats h (statsParams input) = some data →
      passesNode input.node data.node = true →
        ∃ others : LogSummary,
          mergeStats (statsResults upstream hosts input admitted) input.node = others.add data

end Results

theorem admitAll_closed (n : Nat) :
    BreakerState.closed.admitAll n = (List.replicate n true, .closed) := by
  induction n with
  | zero => rfl
  | succ n ih => simp only [BreakerState.admitAll, BreakerState.admit, ih, List.replicate_succ]

theorem admitAll_opened (n : Nat) :
    BreakerState.opened.admitAll n = (List.replicate n false, .opened) := by
  induction n with
  | zero => rfl
  | succ n ih => simp only [BreakerState.admitAll, BreakerState.admit, ih, List.replicate_succ]

theorem zipWith_replicate_right {α β γ : Type} (f : α → β → γ) (b : β) {l : List α} {n : Nat}
    (h : l.length ≤ n) : List.zipWith f l (List.replicate n b) = l.map (f · b) := by
  induction l generalizing n with
  | nil => rfl
  | cons a l ih =>
      obtain ⟨n, rfl⟩ := Nat.exists_eq_add_of_lt (Nat.lt_of_lt_of_le (Nat.zero_lt_succ _) h)
      rw [Nat.zero_add, List.replicate_succ, List.zipWith_cons_cons, List.map_cons,
        ih (by rw [List.length_cons] at h; omega)]

section Results

variable (upstream : Upstream Host) (hosts : List Host) (input : LogSearchInput)

theorem searchResults_replicate (ok : Bool) :
    searchResults upstream hosts input (List.replicate (2 * hosts.length) ok) =
      hosts.map fun h => if ok then upstream.getSearch h (searchParams input) else none :=
  zipWith_replicate_right _ _ (by omega)

theorem statsResults_replicate (ok : Bool) :
    statsResults upstream hosts input (List.replicate (2 * hosts.length) ok) =
      hosts.map fun h => if ok then upstream.getStats h (statsParams input) else none := by
  rw [statsResults, List.drop_replicate]
  exact zipWith_replicate_right _ _ (by omega)

end Results

end NestGateway.LogHistory
