import HostMonitoring.Model.ValidReports
import HostMonitoring.Store.Reports

namespace HostMonitoring.Model

open HostMonitoring.Protocol
open HostMonitoring.Store

def InPercent (value : Option ℚ) : Prop := ∀ v, value = some v → 0 ≤ v ∧ v ≤ 100

def NonNegative (value : Option ℚ) : Prop := ∀ v, value = some v → 0 ≤ v

/-- Every metric that is present lies in its range. -/
structure InRange (m : MetricSummary) : Prop where
  cpu : InPercent m.cpuUsagePercent
  memory : InPercent m.memoryUsagePercent
  received : NonNegative m.networkReceivedBytesPerSecond
  transmitted : NonNegative m.networkTransmittedBytesPerSecond
  read : NonNegative m.diskReadBytesPerSecond
  written : NonNegative m.diskWrittenBytesPerSecond
  temperature : ∀ v, m.maxTemperatureCelsius = some v → Bearable v
  gpu : InPercent m.gpuUtilizationPercent
  gpu_memory : InPercent m.gpuMemoryUsagePercent

/-- A metric is absent exactly when nothing in the report supplies it. -/
structure Supplied (report : ClientReport) (m : MetricSummary) : Prop where
  cpu : m.cpuUsagePercent ≠ none
  memory : m.memoryUsagePercent = none ↔ report.system.memory.totalBytes.toNat = 0
  received : m.networkReceivedBytesPerSecond = none ↔ report.system.networks = []
  transmitted : m.networkTransmittedBytesPerSecond = none ↔ report.system.networks = []
  read : m.diskReadBytesPerSecond = none ↔ report.system.disks = []
  written : m.diskWrittenBytesPerSecond = none ↔ report.system.disks = []
  temperature : m.maxTemperatureCelsius = none ↔
    (∀ sensor ∈ report.system.temperatures, sensor.celsius = none) ∧
      ∀ gpu ∈ report.system.gpus, gpu.temperatureCelsius = none
  gpu : m.gpuUtilizationPercent = none ↔
    ∀ gpu ∈ report.system.gpus, gpu.utilizationPercent = none
  gpu_memory : m.gpuMemoryUsagePercent = none ↔ (gpuMemory report.system.gpus).2.toNat = 0

theorem supplied (report : ClientReport) : Supplied report (metricSummary report) where
  cpu := Option.some_ne_none _
  memory := share_eq_none _ _
  received := by rw [metricSummary, reduceMax_eq_none, List.map_eq_nil_iff]
  transmitted := by rw [metricSummary, reduceMax_eq_none, List.map_eq_nil_iff]
  read := by rw [metricSummary, reduceMax_eq_none, List.map_eq_nil_iff]
  written := by rw [metricSummary, reduceMax_eq_none, List.map_eq_nil_iff]
  temperature := by
    rw [metricSummary, reduceMax_eq_none, temperatures, List.append_eq_nil_iff,
      List.filterMap_eq_nil_iff, List.filterMap_eq_nil_iff]
  gpu := by rw [metricSummary, reduceMax_eq_none, List.filterMap_eq_nil_iff]
  gpu_memory := share_eq_none _ _

/-- The maximum of values that lie in a range lies in it. -/
theorem reduceMax_mem (P : ℚ → Prop) (vs : List ℚ) (h : ∀ v ∈ vs, P v) (m : ℚ)
    (hm : reduceMax vs = some m) : P m := h m (reduceMax_eq_some vs m hm).1

theorem nonNegative_of_map {α : Type} (devices : List α) (rate : α → ℚ)
    (h : ∀ d ∈ devices, 0 ≤ rate d) : NonNegative (reduceMax (devices.map rate)) := by
  refine reduceMax_mem (fun v => 0 ≤ v) _ fun v hv => ?_
  obtain ⟨d, hd, rfl⟩ := List.mem_map.mp hv
  exact h d hd

/-- The one metric the validator does not cover: readings of GPUs reach the
summary unchecked, and a reading below the range shows when no other is above it. -/
def GpusBearable (report : ClientReport) : Prop :=
  (∀ gpu ∈ report.system.gpus, ∀ t, gpu.temperatureCelsius = some t → t ≤ 1000) ∧
  ((∀ sensor ∈ report.system.temperatures, sensor.celsius = none) →
    (∃ gpu ∈ report.system.gpus, gpu.temperatureCelsius ≠ none) →
    ∃ gpu ∈ report.system.gpus, ∃ t, gpu.temperatureCelsius = some t ∧ -273.15 ≤ t)

theorem bearable_iff (now : DateTime) (report : ClientReport) (v : ReportValid now report) :
    (∀ t, (metricSummary report).maxTemperatureCelsius = some t → Bearable t) ↔
      GpusBearable report := by
  have fromSensor : ∀ t ∈ report.system.temperatures.filterMap TemperatureSnapshot.celsius,
      Bearable t := by
    intro t ht
    obtain ⟨sensor, hs, hc⟩ := List.mem_filterMap.mp ht
    exact (v.temperatures sensor hs).bearable t (by simp [hc])
  have ofGpu : ∀ t, t ∈ report.system.gpus.filterMap GpuSnapshot.temperatureCelsius ↔
      ∃ gpu ∈ report.system.gpus, gpu.temperatureCelsius = some t := by
    intro t
    exact List.mem_filterMap
  change (∀ t, reduceMax (temperatures report.system) = some t → Bearable t) ↔ _
  constructor
  · intro h
    have present : ∀ t ∈ temperatures report.system, ∃ m, reduceMax (temperatures report.system) =
        some m ∧ t ≤ m := by
      intro t ht
      have nonempty : reduceMax (temperatures report.system) ≠ none := by
        rw [ne_eq, reduceMax_eq_none]
        exact List.ne_nil_of_mem ht
      obtain ⟨m, hm⟩ := Option.ne_none_iff_exists'.mp nonempty
      exact ⟨m, hm, (reduceMax_eq_some _ m hm).2 t ht⟩
    constructor
    · intro gpu hg t ht
      obtain ⟨m, hm, hle⟩ := present t
        (List.mem_append_right _ ((ofGpu t).mpr ⟨gpu, hg, ht⟩))
      exact hle.trans (h m hm).2
    · rintro silent ⟨gpu, hg, reading⟩
      obtain ⟨t, ht⟩ := Option.ne_none_iff_exists'.mp reading
      obtain ⟨m, hm, _⟩ := present t (List.mem_append_right _ ((ofGpu t).mpr ⟨gpu, hg, ht⟩))
      obtain hs | hg := List.mem_append.mp (reduceMax_eq_some _ m hm).1
      · obtain ⟨sensor, hmem, hc⟩ := List.mem_filterMap.mp hs
        rw [silent sensor hmem] at hc
        cases hc
      · obtain ⟨gpu, hmem, hc⟩ := (ofGpu m).mp hg
        exact ⟨gpu, hmem, m, hc, (h m hm).1⟩
  · rintro ⟨below, above⟩ m hm
    obtain ⟨hmem, hle⟩ := reduceMax_eq_some _ m hm
    obtain hs | hg := List.mem_append.mp hmem
    · exact fromSensor m hs
    · obtain ⟨gpu, hgpu, reading⟩ := (ofGpu m).mp hg
      refine ⟨?_, below gpu hgpu m reading⟩
      by_cases silent : ∀ sensor ∈ report.system.temperatures, sensor.celsius = none
      · obtain ⟨gpu', hgpu', t, ht, warm⟩ := above silent ⟨gpu, hgpu, by simp [reading]⟩
        exact warm.trans (hle t (List.mem_append_right _ ((ofGpu t).mpr ⟨gpu', hgpu', ht⟩)))
      · simp only [not_forall] at silent
        obtain ⟨sensor, hmem, hc⟩ := silent
        obtain ⟨t, ht⟩ := Option.ne_none_iff_exists'.mp hc
        have listed := List.mem_filterMap.mpr ⟨sensor, hmem, ht⟩
        exact (fromSensor t listed).1.trans (hle t (List.mem_append_left _ listed))

/-- The metrics of an admitted report are in range and absent only where nothing
supplies them, precisely when the readings of its GPUs are bearable. -/
theorem metrics_in_range_iff (now : DateTime) (report : ClientReport) (m : MetricSummary)
    (h : validateReport now report = .ok m) :
    (InRange m ∧ Supplied report m) ↔ GpusBearable report := by
  obtain ⟨v, rfl⟩ := (validateReport_ok now report m).mp h
  rw [← bearable_iff now report v]
  constructor
  · exact fun h => h.1.temperature
  · intro temperature
    refine ⟨⟨?_, ?_, ?_, ?_, ?_, ?_, temperature, ?_, ?_⟩, supplied report⟩
    · intro p hp
      cases hp
      exact v.cpu
    · intro p hp
      exact share_range _ _ p hp (UInt64.le_iff_toNat_le.mp v.memory_used)
    · exact nonNegative_of_map _ _ fun n hn => (v.networks n hn).received
    · exact nonNegative_of_map _ _ fun n hn => (v.networks n hn).transmitted
    · exact nonNegative_of_map _ _ fun d hd => (v.disks d hd).read
    · exact nonNegative_of_map _ _ fun d hd => (v.disks d hd).written
    · refine reduceMax_mem (fun p => 0 ≤ p ∧ p ≤ 100) _ fun p hp => ?_
      obtain ⟨gpu, hg, hu⟩ := List.mem_filterMap.mp hp
      exact (v.gpus gpu hg).utilization p hu
    · intro p hp
      refine share_range _ _ p hp (gpuMemory_le _ fun gpu hg used total hz => ?_)
      exact UInt64.le_iff_toNat_le.mp ((v.gpus gpu hg).memory used total hz)

/-- An admitted report with one GPU that claims the given temperature. -/
def gpuReport (celsius : Option ℚ) : ClientReport where
  schemaVersion := 1
  reportId := "00000000-0000-0000-0000-000000000005"
  collectedAt := noon
  host := ⟨"00000000-0000-0000-0000-000000000002", "linux", none, none, "x86_64", "0.9.10"⟩
  intervalSeconds := 10
  system := ⟨0, ⟨50, 1, none, [50]⟩, ⟨0, 0, 0, 0, 0⟩, [], [], [],
    [⟨"gpu0", "vendor", "name", none, none, none, celsius, none, none, none, none, none, "driver"⟩]⟩
  capabilities := []
  client := ⟨0, 0⟩

theorem metrics_in_range_sixty :
    InRange (metricSummary (gpuReport (some 60))) ∧
      Supplied (gpuReport (some 60)) (metricSummary (gpuReport (some 60))) := by
  refine (metrics_in_range_iff noon (gpuReport (some 60)) _ (by decide +kernel)).mpr ?_
  refine ⟨fun gpu hg t ht => ?_, fun _ _ => ?_⟩
  · rw [gpuReport, List.mem_singleton] at hg
    rw [hg] at ht
    cases ht
    norm_num
  · exact ⟨_, List.mem_singleton.mpr rfl, 60, rfl, by norm_num⟩

/-- A GPU that reports 5000 degrees. -/
theorem metrics_out_of_range :
    ¬∀ now report m, validateReport now report = .ok m → InRange m ∧ Supplied report m := by
  intro claim
  have admitted : validateReport noon (gpuReport (some 5000)) =
      .ok (metricSummary (gpuReport (some 5000))) := by decide +kernel
  have range := (claim noon _ _ admitted).1.temperature 5000 rfl
  have below := range.2
  norm_num at below

end HostMonitoring.Model
