import HostMonitoring.Store.Schema
import Mathlib.Algebra.Order.Field.Rat
import Mathlib.Tactic.Linarith

namespace HostMonitoring.Model

open HostMonitoring.Protocol
open HostMonitoring.Store

def saturatingAdd (a b : UInt64) : UInt64 := UInt64.ofNat (min (a.toNat + b.toNat) (2 ^ 64 - 1))

/-- `reduce(f64::max)`. -/
def reduceMax : List ℚ → Option ℚ
  | [] => none
  | v :: vs => some (vs.foldl max v)

/-- `a.zip(b)`. -/
def zip {α β : Type} : Option α → Option β → Option (α × β)
  | some a, some b => some (a, b)
  | _, _ => none

/-- The memory of the GPUs that report both counters: used and total. -/
def gpuMemory (gpus : List GpuSnapshot) : UInt64 × UInt64 :=
  (gpus.filterMap fun gpu => zip gpu.memoryUsedBytes gpu.memoryTotalBytes).foldl
    (fun sum value => (saturatingAdd sum.1 value.1, saturatingAdd sum.2 value.2)) (0, 0)

/-- Percentage of a total, none where the total is zero. -/
def share (used total : UInt64) : Option ℚ :=
  if 0 < total then some ((used.toNat : ℚ) * 100 / (total.toNat : ℚ)) else none

/-- The readings of the sensors and then of the GPUs. -/
def temperatures (system : SystemSnapshot) : List ℚ :=
  system.temperatures.filterMap TemperatureSnapshot.celsius ++
    system.gpus.filterMap GpuSnapshot.temperatureCelsius

/-- `metric_summary`; its divisions are exact here. -/
def metricSummary (report : ClientReport) : MetricSummary where
  cpuUsagePercent := some report.system.cpu.usagePercent
  memoryUsagePercent := share report.system.memory.usedBytes report.system.memory.totalBytes
  networkReceivedBytesPerSecond :=
    reduceMax (report.system.networks.map NetworkSnapshot.receivedBytesPerSecond)
  networkTransmittedBytesPerSecond :=
    reduceMax (report.system.networks.map NetworkSnapshot.transmittedBytesPerSecond)
  diskReadBytesPerSecond := reduceMax (report.system.disks.map DiskSnapshot.readBytesPerSecond)
  diskWrittenBytesPerSecond := reduceMax (report.system.disks.map DiskSnapshot.writtenBytesPerSecond)
  maxTemperatureCelsius := reduceMax (temperatures report.system)
  gpuUtilizationPercent :=
    reduceMax (report.system.gpus.filterMap GpuSnapshot.utilizationPercent)
  gpuMemoryUsagePercent :=
    share (gpuMemory report.system.gpus).1 (gpuMemory report.system.gpus).2

theorem reduceMax_eq_none (vs : List ℚ) : reduceMax vs = none ↔ vs = [] := by
  cases vs with
  | nil => simp [reduceMax]
  | cons v vs => simp [reduceMax]

/-- The maximum is one of the values and not below any. -/
theorem reduceMax_eq_some (vs : List ℚ) (m : ℚ) (h : reduceMax vs = some m) :
    m ∈ vs ∧ ∀ v ∈ vs, v ≤ m := by
  have fold : ∀ (vs : List ℚ) (v : ℚ), vs.foldl max v ∈ v :: vs ∧
      ∀ u ∈ v :: vs, u ≤ vs.foldl max v := by
    intro vs
    induction vs with
    | nil => simp
    | cons w vs ih =>
      intro v
      obtain ⟨hm, hle⟩ := ih (max v w)
      rw [List.foldl_cons]
      constructor
      · obtain he | hm := List.mem_cons.mp hm
        · rw [he]
          obtain h | h := max_choice v w
          · simp [h]
          · simp [h]
        · exact List.mem_cons_of_mem _ (List.mem_cons_of_mem _ hm)
      · intro u hu
        obtain rfl | hu := List.mem_cons.mp hu
        · exact (le_max_left u w).trans (hle _ List.mem_cons_self)
        · obtain rfl | hu := List.mem_cons.mp hu
          · exact (le_max_right v u).trans (hle _ List.mem_cons_self)
          · exact hle u (List.mem_cons_of_mem _ hu)
  cases vs with
  | nil => cases h
  | cons v vs =>
    cases h
    exact fold vs v

theorem share_eq_none (used total : UInt64) : share used total = none ↔ total.toNat = 0 := by
  unfold share
  rw [ite_eq_right_iff, UInt64.lt_iff_toNat_lt]
  constructor
  · intro h
    by_contra hne
    exact absurd (h (Nat.pos_of_ne_zero hne)) (Option.some_ne_none _)
  · intro h hpos
    rw [h] at hpos
    exact absurd hpos (Nat.lt_irrefl 0)

theorem share_range (used total : UInt64) (p : ℚ) (h : share used total = some p)
    (hle : used.toNat ≤ total.toNat) : 0 ≤ p ∧ p ≤ 100 := by
  unfold share at h
  split_ifs at h with hpos
  cases h
  rw [UInt64.lt_iff_toNat_lt] at hpos
  have total_pos : (0 : ℚ) < total.toNat := by exact_mod_cast hpos
  have used_le : (used.toNat : ℚ) ≤ total.toNat := by exact_mod_cast hle
  have used_nonneg : (0 : ℚ) ≤ used.toNat := by positivity
  constructor
  · exact div_nonneg (by linarith) total_pos.le
  · rw [div_le_iff₀ total_pos]
    linarith

theorem saturatingAdd_toNat (a b : UInt64) :
    (saturatingAdd a b).toNat = min (a.toNat + b.toNat) (2 ^ 64 - 1) := by
  unfold saturatingAdd
  rw [UInt64.toNat_ofNat']
  omega

/-- Saturation keeps a sum of used bytes below the sum of the totals. -/
theorem gpuMemory_le (gpus : List GpuSnapshot)
    (h : ∀ gpu ∈ gpus, ∀ used total, zip gpu.memoryUsedBytes gpu.memoryTotalBytes =
      some (used, total) → used.toNat ≤ total.toNat) :
    (gpuMemory gpus).1.toNat ≤ (gpuMemory gpus).2.toNat := by
  have fold : ∀ (pairs : List (UInt64 × UInt64)) (sum : UInt64 × UInt64),
      (∀ p ∈ pairs, p.1.toNat ≤ p.2.toNat) → sum.1.toNat ≤ sum.2.toNat →
      (pairs.foldl (fun sum value => (saturatingAdd sum.1 value.1, saturatingAdd sum.2 value.2))
        sum).1.toNat ≤ (pairs.foldl (fun sum value =>
          (saturatingAdd sum.1 value.1, saturatingAdd sum.2 value.2)) sum).2.toNat := by
    intro pairs
    induction pairs with
    | nil => exact fun _ _ hs => hs
    | cons p pairs ih =>
      intro sum hp hs
      have here := hp p List.mem_cons_self
      refine ih _ (fun q hq => hp q (List.mem_cons_of_mem _ hq)) ?_
      simp only [saturatingAdd_toNat]
      omega
  refine fold _ (0, 0) (fun p hp => ?_) (le_refl _)
  obtain ⟨gpu, hg, hz⟩ := List.mem_filterMap.mp hp
  exact h gpu hg p.1 p.2 hz

end HostMonitoring.Model
