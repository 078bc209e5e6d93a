import Mathlib.Algebra.Order.Field.Rat
import Mathlib.Tactic.Positivity
import NestGateway.LogStreamer.ContainerStats

/-! # CPU percentages

`calculateCPUPercent` divides what a container used of the processors by what
the machine spent, both as differences of counters. The counters are unsigned,
so a difference to a larger one wraps round before it becomes a float; the
floats are exact numbers here.
-/

namespace NestGateway.LogStreamer.Stats

open GoBytes Runs

structure CPUUsage where
  totalUsage : UInt64
  percpuUsage : List UInt64

structure CPUStats where
  cpuUsage : CPUUsage
  systemUsage : UInt64
  onlineCPUs : UInt32

/-- The fields of a decoded body that are used: the counters of this sample and of the one before,
and the memory. -/
structure StatsBody where
  cpuStats : CPUStats
  preCPUStats : CPUStats
  usage : UInt64
  limit : UInt64

/-- Division, none by zero. -/
def divide (a b : ℚ) : Option ℚ := if b = 0 then none else some (a / b)

/-- The variable `numCPUs` behind its two tests for 0. -/
def numCPUs (v : StatsBody) : ℚ :=
  let numCPUs : ℚ := v.cpuStats.onlineCPUs.toNat
  let numCPUs : ℚ := if numCPUs = 0 then v.cpuStats.cpuUsage.percpuUsage.length else numCPUs
  if numCPUs = 0 then 1 else numCPUs

def calculateCPUPercent (v : StatsBody) : Option ℚ :=
  let cpuDelta : ℚ :=
    (v.cpuStats.cpuUsage.totalUsage - v.preCPUStats.cpuUsage.totalUsage).toNat
  let systemDelta : ℚ := (v.cpuStats.systemUsage - v.preCPUStats.systemUsage).toNat
  if systemDelta ≤ 0 ∨ cpuDelta < 0 then some 0
  else (divide cpuDelta systemDelta).map fun share => share * numCPUs v * 100

/-- What `GetContainerStats` goes on with. -/
def StatsBody.stats (v : StatsBody) : StatsJSON (Option ℚ) where
  cpuPercent := calculateCPUPercent v
  usage := v.usage
  limit := v.limit

namespace StatsBody

variable (v : StatsBody)

/-- A counter is below the one of the sample before, or the machine's stands still. -/
def Reset : Prop :=
  v.cpuStats.cpuUsage.totalUsage < v.preCPUStats.cpuUsage.totalUsage ∨
    v.cpuStats.systemUsage ≤ v.preCPUStats.systemUsage

def cpus : Nat :=
  if v.cpuStats.onlineCPUs = 0 then max 1 v.cpuStats.cpuUsage.percpuUsage.length
  else v.cpuStats.onlineCPUs.toNat

/-- The share of the processors between the samples. -/
def share : ℚ :=
  ((v.cpuStats.cpuUsage.totalUsage.toNat : ℚ) - v.preCPUStats.cpuUsage.totalUsage.toNat) /
    ((v.cpuStats.systemUsage.toNat : ℚ) - v.preCPUStats.systemUsage.toNat)

/-- The percentage is 0 when a counter was reset, and else the share of all processors. -/
structure SafePercent : Prop where
  cpus_pos : 1 ≤ v.cpus
  reset : v.Reset → calculateCPUPercent v = some 0
  running : ¬ v.Reset → calculateCPUPercent v = some (v.share * v.cpus * 100)

end StatsBody

theorem toNat_sub_of_le {a b : UInt64} (h : b ≤ a) :
    ((a - b).toNat : ℚ) = (a.toNat : ℚ) - b.toNat := by
  rw [UInt64.toNat_sub_of_le a b h]
  exact Nat.cast_sub (UInt64.le_iff_toNat_le.mp h)

theorem toNat_sub_pos {a b : UInt64} (h : a ≠ b) : (0 : ℚ) < (a - b).toNat := by
  have ha := UInt64.toNat_lt a
  have hb := UInt64.toNat_lt b
  have hne : a.toNat ≠ b.toNat := fun heq => h (UInt64.toNat_inj.mp heq)
  have hpos : 0 < (a - b).toNat := by
    rw [UInt64.toNat_sub]
    omega
  exact Nat.cast_pos.mpr hpos

theorem toNat_sub_self (a : UInt64) : ((a - a).toNat : ℚ) = 0 := by
  rw [UInt64.sub_self]
  rfl

variable {v : StatsBody}

theorem cpus_pos (v : StatsBody) : 1 ≤ v.cpus := by
  unfold StatsBody.cpus
  split
  · exact Nat.le_max_left _ _
  · next hne =>
      have hpos : v.cpuStats.onlineCPUs.toNat ≠ 0 := fun h => hne (UInt32.toNat_inj.mp h)
      omega

theorem numCPUs_eq (v : StatsBody) : numCPUs v = v.cpus := by
  unfold numCPUs StatsBody.cpus
  by_cases honline : v.cpuStats.onlineCPUs = 0
  · cases hlength : v.cpuStats.cpuUsage.percpuUsage.length with
    | zero => simp [honline]
    | succ n =>
        have hne : (n : ℚ) + 1 ≠ 0 := Nat.cast_add_one_ne_zero n
        simp [honline, hne]
  · have hne : v.cpuStats.onlineCPUs.toNat ≠ 0 := fun h => honline (UInt32.toNat_inj.mp h)
    simp [honline, hne]

/-- A machine whose counter stands still is all that the guards see. -/
theorem calculateCPUPercent_still (h : v.cpuStats.systemUsage = v.preCPUStats.systemUsage) :
    calculateCPUPercent v = some 0 := by
  unfold calculateCPUPercent
  rw [h, toNat_sub_self]
  exact if_pos (Or.inl (le_refl 0))

theorem calculateCPUPercent_moved (h : v.cpuStats.systemUsage ≠ v.preCPUStats.systemUsage) :
    calculateCPUPercent v =
      some (((v.cpuStats.cpuUsage.totalUsage - v.preCPUStats.cpuUsage.totalUsage).toNat : ℚ) /
        (v.cpuStats.systemUsage - v.preCPUStats.systemUsage).toNat * v.cpus * 100) := by
  have hsystem := toNat_sub_pos h
  have hguard : ¬ (((v.cpuStats.systemUsage - v.preCPUStats.systemUsage).toNat : ℚ) ≤ 0 ∨
      ((v.cpuStats.cpuUsage.totalUsage - v.preCPUStats.cpuUsage.totalUsage).toNat : ℚ) < 0) :=
    not_or.mpr ⟨not_le.mpr hsystem, not_lt.mpr (Nat.cast_nonneg _)⟩
  unfold calculateCPUPercent divide
  simp only [if_neg hguard, if_neg (ne_of_gt hsystem), Option.map_some, numCPUs_eq]

theorem calculateCPUPercent_eq_zero_iff
    (h : v.cpuStats.systemUsage ≠ v.preCPUStats.systemUsage) :
    calculateCPUPercent v = some 0 ↔
      v.cpuStats.cpuUsage.totalUsage = v.preCPUStats.cpuUsage.totalUsage := by
  rw [calculateCPUPercent_moved h]
  constructor
  · intro hzero
    by_contra hne
    have hsystem := toNat_sub_pos h
    have htotal := toNat_sub_pos hne
    have hcpus : (0 : ℚ) < v.cpus := Nat.cast_pos.mpr (cpus_pos v)
    have hpos : (0 : ℚ) <
        ((v.cpuStats.cpuUsage.totalUsage - v.preCPUStats.cpuUsage.totalUsage).toNat : ℚ) /
          (v.cpuStats.systemUsage - v.preCPUStats.systemUsage).toNat * v.cpus * 100 := by
      positivity
    exact absurd (Option.some.inj hzero) (ne_of_gt hpos)
  · intro htotal
    rw [htotal, toNat_sub_self]
    simp

/-- Where the container's counter has changed, both rise exactly when there is no reset. -/
theorem both_rise_iff (v : StatsBody)
    (htotal : v.cpuStats.cpuUsage.totalUsage ≠ v.preCPUStats.cpuUsage.totalUsage) :
    ¬ v.Reset ↔ v.preCPUStats.systemUsage < v.cpuStats.systemUsage ∧
      v.preCPUStats.cpuUsage.totalUsage < v.cpuStats.cpuUsage.totalUsage := by
  unfold StatsBody.Reset
  simp only [Ne, ← UInt64.toNat_inj, UInt64.lt_iff_toNat_lt, UInt64.le_iff_toNat_le]
    at htotal ⊢
  omega

theorem calculateCPUPercent_running (h : ¬ v.Reset) :
    calculateCPUPercent v = some (v.share * v.cpus * 100) := by
  have hle : v.preCPUStats.cpuUsage.totalUsage ≤ v.cpuStats.cpuUsage.totalUsage ∧
      v.preCPUStats.systemUsage ≤ v.cpuStats.systemUsage ∧
      v.cpuStats.systemUsage ≠ v.preCPUStats.systemUsage := by
    unfold StatsBody.Reset at h
    simp only [Ne, ← UInt64.toNat_inj, UInt64.lt_iff_toNat_lt, UInt64.le_iff_toNat_le] at h ⊢
    omega
  rw [calculateCPUPercent_moved hle.2.2, toNat_sub_of_le hle.1, toNat_sub_of_le hle.2.1]
  rfl

/-- The percentage is right exactly when one of the counters stands still or both rise. -/
theorem safePercent_iff (v : StatsBody) :
    v.SafePercent ↔
      v.cpuStats.systemUsage = v.preCPUStats.systemUsage ∨
        v.cpuStats.cpuUsage.totalUsage = v.preCPUStats.cpuUsage.totalUsage ∨
        v.preCPUStats.systemUsage < v.cpuStats.systemUsage ∧
          v.preCPUStats.cpuUsage.totalUsage < v.cpuStats.cpuUsage.totalUsage := by
  by_cases hsystem : v.cpuStats.systemUsage = v.preCPUStats.systemUsage
  · refine iff_of_true ?_ (Or.inl hsystem)
    exact ⟨cpus_pos v, fun _ => calculateCPUPercent_still hsystem, calculateCPUPercent_running⟩
  have hzero := calculateCPUPercent_eq_zero_iff hsystem
  by_cases htotal : v.cpuStats.cpuUsage.totalUsage = v.preCPUStats.cpuUsage.totalUsage
  · refine iff_of_true ?_ (Or.inr (Or.inl htotal))
    exact ⟨cpus_pos v, fun _ => hzero.mpr htotal, calculateCPUPercent_running⟩
  rw [or_iff_right hsystem, or_iff_right htotal, ← both_rise_iff v htotal]
  constructor
  · intro hsafe hreset
    exact htotal (hzero.mp (hsafe.reset hreset))
  · intro hrunning
    exact ⟨cpus_pos v, fun hreset => absurd hreset hrunning, calculateCPUPercent_running⟩

/-- In whatever order the goroutines end, a response holds the shares between samples, if no
counter was reset between them. -/
theorem response_percents {ids : List Bytes} {replies : Nat → DockerReply (Option ℚ)}
    (hbodies : ∀ i v, (replies i).containerStats = some (some v) →
      ∃ body : StatsBody, v = body.stats ∧ ¬ body.Reset)
    {es : List Nat} {s : Request (Option ℚ)}
    (hrun : run (Request.step ids replies) (.start ids) es = some s) :
    ∀ stats ∈ s.stats, ∃ body : StatsBody,
      stats.cpuPercent = some (body.share * body.cpus * 100) := by
  refine run_invariant (I := fun s : Request (Option ℚ) => ∀ stats ∈ s.stats,
    ∃ body : StatsBody, stats.cpuPercent = some (body.share * body.cpus * 100)) ?_ ?_ hrun
  · intro s i s' inv hstep
    obtain ⟨id, _, _, _, hout⟩ := step_cases hstep
    rcases hout with ⟨sent, hsent, hstats, _⟩ | ⟨_, hstats, _⟩ | ⟨_, hstats, _⟩
    · rw [hstats]
      intro stats hmem
      rcases List.mem_append.mp hmem with hmem | hmem
      · exact inv stats hmem
      · obtain ⟨v, hreply, _, hpercent⟩ := goroutine_sent hsent
        obtain ⟨body, rfl, hrunning⟩ := hbodies i v hreply
        rw [List.mem_singleton.mp hmem, hpercent]
        exact ⟨body, calculateCPUPercent_running hrunning⟩
    · rw [hstats]
      exact inv
    · rw [hstats]
      exact inv
  · exact fun stats hmem => absurd hmem List.not_mem_nil

/-- A container that was restarted: it has used 0.2 s after 90 s before, within one second of a
machine with two processors. -/
def restarted : StatsBody where
  cpuStats := ⟨⟨200000000, []⟩, 5002000000000, 2⟩
  preCPUStats := ⟨⟨90000000000, []⟩, 5000000000000, 2⟩
  usage := 52428800
  limit := 536870912

/-- The percentage after a restart is not 0. -/
theorem restarted_unsafe : ¬ restarted.SafePercent := by
  intro h
  have hzero := h.reset (Or.inl (by decide))
  revert hzero
  decide +kernel

end NestGateway.LogStreamer.Stats
