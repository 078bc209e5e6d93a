import Mathlib.Data.List.Perm.Subperm
import NestGateway.Core.GoBytes
import NestGateway.Core.Runs

/-! # Statistics of containers

`GetContainerStats` asks Docker for each requested id in a goroutine of its own.
A goroutine that slices out of range panics, and nothing recovers it: the
process ends.
-/

namespace NestGateway.LogStreamer.Stats

open GoBytes Runs

variable {Percent : Type}

/-- The fields of `types.StatsJSON` that are used; the percentage is what `calculateCPUPercent`
makes of the counters. -/
structure StatsJSON (Percent : Type) where
  cpuPercent : Percent
  usage : UInt64
  limit : UInt64

structure DockerReply (Percent : Type) where
  /-- The reply of `ContainerStats`, none on an error; its body may not decode. -/
  containerStats : Option (Option (StatsJSON Percent))
  /-- The name of `ContainerInspect`, none on an error. -/
  containerInspect : Option Bytes

structure ContainerStats (Percent : Type) where
  id : Bytes
  name : Bytes
  cpuPercent : Percent
  memUsage : UInt64
  memLimit : UInt64

inductive Outcome (Percent : Type) where
  | sent (stats : ContainerStats Percent)
  /-- A result with an error is sent, and skipped where it is received. -/
  | failed
  | panicked

def slash : UInt8 := 47

def withoutSlash (name : Bytes) : Bytes := if name.head? = some slash then name.tail else name

def goroutine (containerID : Bytes) (reply : DockerReply Percent) : Outcome Percent :=
  match reply.containerStats with
  | none => .failed
  | some none => .failed
  | some (some v) =>
      let name :=
        match reply.containerInspect with
        | none => containerID
        | some name => withoutSlash name
      match slice containerID 12 with
      | none => .panicked
      | some id =>
          .sent { id, name, cpuPercent := v.cpuPercent, memUsage := v.usage, memLimit := v.limit }

/-- The ids of a request: none for an empty parameter. -/
def requestedIds (idsParam : Bytes) : List Bytes :=
  if idsParam = [] then [] else idsParam.splitOn comma

structure Request (Percent : Type) where
  /-- The goroutines that have not ended, by the position of their id. -/
  running : List Nat
  /-- What was received so far. -/
  stats : List (ContainerStats Percent)
  crashed : Bool

def Request.start (ids : List Bytes) : Request Percent := ⟨List.range ids.length, [], false⟩

section Steps

variable (ids : List Bytes) (replies : Nat → DockerReply Percent)

/-- The goroutine of the id at a position ends, if the process is still there. -/
def Request.step (s : Request Percent) (i : Nat) : Option (Request Percent) :=
  if s.crashed ∨ i ∉ s.running then none
  else
    match ids[i]? with
    | none => none
    | some id =>
        let running := s.running.erase i
        match goroutine id (replies i) with
        | .sent stats => some ⟨running, s.stats ++ [stats], false⟩
        | .failed => some ⟨running, s.stats, false⟩
        | .panicked => some ⟨running, s.stats, true⟩

def Request.response (s : Request Percent) : Option (List (ContainerStats Percent)) :=
  if s.crashed ∨ s.running ≠ [] then none else some s.stats

end Steps

/-- Docker knows the container and its statistics can be read. -/
def DockerReply.Answered (reply : DockerReply Percent) : Prop :=
  ∃ v, reply.containerStats = some (some v)

/-- At most one result for each requested id. -/
def OnePerId (ids : List Bytes) (stats : List (ContainerStats Percent)) : Prop :=
  (stats.map (·.id)).Subperm (ids.map (·.take 12))

/-- Every id that Docker answers has the twelve bytes that its goroutine slices. -/
def LongEnough (ids : List Bytes) (replies : Nat → DockerReply Percent) : Prop :=
  ∀ i id, ids[i]? = some id → (replies i).Answered → 12 ≤ id.length

theorem goroutine_panicked_iff {containerID : Bytes} {reply : DockerReply Percent} :
    goroutine containerID reply = .panicked ↔ reply.Answered ∧ containerID.length < 12 := by
  rw [goroutine, DockerReply.Answered]
  cases reply.containerStats with
  | none => simp
  | some decoded =>
      cases decoded with
      | none => simp
      | some v =>
          by_cases hlen : 12 ≤ containerID.length
          · simp [slice, hlen]
          · simp [slice, hlen, not_le.mp hlen]

theorem goroutine_sent {containerID : Bytes} {reply : DockerReply Percent}
    {stats : ContainerStats Percent} (h : goroutine containerID reply = .sent stats) :
    ∃ v, reply.containerStats = some (some v) ∧ stats.id = containerID.take 12 ∧
      stats.cpuPercent = v.cpuPercent := by
  rw [goroutine] at h
  cases hreply : reply.containerStats with
  | none =>
      rw [hreply] at h
      cases h
  | some decoded =>
      cases decoded with
      | none =>
          rw [hreply] at h
          cases h
      | some v =>
          by_cases hlen : 12 ≤ containerID.length
          · simp only [hreply, slice, if_pos hlen, Outcome.sent.injEq] at h
            rw [← h]
            exact ⟨v, rfl, rfl, rfl⟩
          · simp only [hreply, slice, if_neg hlen] at h
            cases h

section Runs

variable {ids : List Bytes} {replies : Nat → DockerReply Percent}

theorem step_cases {s s' : Request Percent} {i : Nat} (h : s.step ids replies i = some s') :
    ∃ id, ids[i]? = some id ∧ i ∈ s.running ∧ s'.running = s.running.erase i ∧
      ((∃ stats, goroutine id (replies i) = .sent stats ∧ s'.stats = s.stats ++ [stats] ∧
          s'.crashed = false) ∨
        (goroutine id (replies i) = .failed ∧ s'.stats = s.stats ∧ s'.crashed = false) ∨
        (goroutine id (replies i) = .panicked ∧ s'.stats = s.stats ∧ s'.crashed = true)) := by
  rw [Request.step] at h
  split at h
  next => cases h
  next hgo =>
    rw [not_or, not_not] at hgo
    cases hid : ids[i]? with
    | none => rw [hid] at h; cases h
    | some id =>
        rw [hid] at h
        refine ⟨id, rfl, hgo.2, ?_⟩
        cases hout : goroutine id (replies i) with
        | sent stats =>
            simp only [hout, Option.some.injEq] at h
            subst h
            exact ⟨rfl, Or.inl ⟨stats, rfl, rfl, rfl⟩⟩
        | failed =>
            simp only [hout, Option.some.injEq] at h
            subst h
            exact ⟨rfl, Or.inr (Or.inl ⟨rfl, rfl, rfl⟩)⟩
        | panicked =>
            simp only [hout, Option.some.injEq] at h
            subst h
            exact ⟨rfl, Or.inr (Or.inr ⟨rfl, rfl, rfl⟩)⟩

def shortId (ids : List Bytes) (i : Nat) : Bytes := (ids[i]?.getD []).take 12

/-- The results that were received and those still to come are at most one for each id. -/
def Request.Inv (ids : List Bytes) (s : Request Percent) : Prop :=
  (s.stats.map (·.id) ++ s.running.map (shortId ids)).Subperm (ids.map (·.take 12))

theorem inv_start : (Request.start ids : Request Percent).Inv ids := by
  have hall : (List.range ids.length).map (shortId ids) = ids.map (·.take 12) := by
    refine List.ext_getElem (by simp) fun i h _ => ?_
    have hi : i < ids.length := by simpa using h
    simp [shortId, hi]
  rw [Request.Inv, Request.start, List.map_nil, List.nil_append, hall]

theorem Request.Inv.step {s s' : Request Percent} {i : Nat} (inv : s.Inv ids)
    (h : s.step ids replies i = some s') : s'.Inv ids := by
  obtain ⟨id, hid, hmem, hrunning, hout⟩ := step_cases h
  have herase : (s.running.map (shortId ids)).Perm
      (shortId ids i :: (s.running.erase i).map (shortId ids)) :=
    (List.perm_cons_erase hmem).map (shortId ids)
  have hkept : (s.stats.map (·.id) ++ (s.running.erase i).map (shortId ids)).Subperm
      (ids.map (·.take 12)) :=
    ((List.Sublist.refl _).append ((List.erase_sublist).map _)).subperm.trans inv
  rcases hout with ⟨stats, hsent, hstats, _⟩ | ⟨_, hstats, _⟩ | ⟨_, hstats, _⟩
  · have hshort : stats.id = shortId ids i := by
      obtain ⟨_, _, hname, _⟩ := goroutine_sent hsent
      rw [hname, shortId, hid]
      rfl
    rw [Request.Inv, hstats, hrunning, List.map_append, List.map_singleton, hshort,
      List.append_assoc, List.singleton_append]
    exact ((herase.symm.append_left _).subperm).trans inv
  · rw [Request.Inv, hstats, hrunning]
    exact hkept
  · rw [Request.Inv, hstats, hrunning]
    exact hkept

theorem onePerId_of_inv {s : Request Percent} (inv : s.Inv ids) : OnePerId ids s.stats :=
  (List.sublist_append_left _ _).subperm.trans inv

theorem not_crashed_step (hlong : LongEnough ids replies) {s s' : Request Percent} {i : Nat}
    (h : s.step ids replies i = some s') : s'.crashed = false := by
  obtain ⟨id, hid, _, _, hout⟩ := step_cases h
  rcases hout with ⟨_, _, _, hkept⟩ | ⟨_, _, hkept⟩ | ⟨hpanicked, _, _⟩
  · exact hkept
  · exact hkept
  · obtain ⟨hanswered, hshort⟩ := goroutine_panicked_iff.mp hpanicked
    exact absurd (hlong i id hid hanswered) (not_le.mpr hshort)

/-- In whatever order the goroutines end, none panics and each requested id has one result at
most, exactly if every id that Docker answers is long enough. -/
theorem containerStats_safe_iff (idsParam : Bytes) (replies : Nat → DockerReply Percent) :
    (∀ es s, run (Request.step (requestedIds idsParam) replies)
          (.start (requestedIds idsParam)) es = some s →
        s.crashed = false ∧ ∀ stats, s.response = some stats →
          OnePerId (requestedIds idsParam) stats) ↔
      LongEnough (requestedIds idsParam) replies := by
  constructor
  · intro hsafe i id hid hanswered
    by_contra hshort
    have hpanicked : goroutine id (replies i) = .panicked :=
      goroutine_panicked_iff.mpr ⟨hanswered, not_le.mp hshort⟩
    have hlt : i < (requestedIds idsParam).length := (List.getElem?_eq_some_iff.mp hid).choose
    have hrun : run (Request.step (requestedIds idsParam) replies)
        (.start (requestedIds idsParam)) [i] =
          some ⟨(List.range (requestedIds idsParam).length).erase i, [], true⟩ := by
      rw [run, Request.step, if_neg (by simp [Request.start, hlt]), hid]
      dsimp only
      rw [hpanicked]
      rfl
    exact Bool.false_ne_true (hsafe [i] _ hrun).1.symm
  · intro hlong es s hrun
    have hinv : s.Inv (requestedIds idsParam) ∧ s.crashed = false :=
      run_invariant (I := fun s => s.Inv (requestedIds idsParam) ∧ s.crashed = false)
        (fun _ _ _ inv hstep => ⟨inv.1.step hstep, not_crashed_step hlong hstep⟩)
        ⟨inv_start, rfl⟩ hrun
    refine ⟨hinv.2, fun stats hresponse => ?_⟩
    rw [Request.response] at hresponse
    split at hresponse
    next => cases hresponse
    next =>
      obtain rfl := Option.some.inj hresponse
      exact onePerId_of_inv hinv.1

end Runs

def webReply : DockerReply Unit where
  containerStats := some (some ⟨(), 1048576, 4194304⟩)
  containerInspect := some (ascii "/web".toList)

theorem containerStats_web_crashes :
    ∃ s, run (Request.step (requestedIds (ascii "web".toList)) fun _ => webReply)
        (.start (requestedIds (ascii "web".toList))) [0] = some s ∧ s.crashed = true :=
  ⟨⟨[], [], true⟩, by rfl, rfl⟩

end NestGateway.LogStreamer.Stats
