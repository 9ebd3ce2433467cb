import HostMonitoring.Protocol.Wire
import Mathlib.Data.List.ReduceOption

namespace HostMonitoring.Protocol

open HostMonitoring.Framework
open HostMonitoring.Protocol.JsonU64 (Number)
open Wire

namespace Wire

/-- Lowercase, hyphenated text is that of a UUID. -/
theorem canonical_iff (value : String) : canonical value = true ↔ ∃ u : Uuid, u.toText = value := by
  rw [canonical, Option.any_eq_true]
  constructor
  · intro h
    obtain ⟨u, _, same⟩ := h
    exact ⟨u, of_decide_eq_true same⟩
  · intro h
    obtain ⟨u, rfl⟩ := h
    exact ⟨u, Uuid.parseStr_toText u, decide_eq_true rfl⟩

@[simp] theorem canonical_toText (u : Uuid) : canonical u.toText = true :=
  (canonical_iff _).mpr ⟨u, rfl⟩

@[simp] theorem uuid_valid (value : String) : uuid.Valid value ↔ canonical value = true := by
  simp [uuid]

@[simp] theorem uuid_kept (value : String) : uuid.Kept value ↔ canonical value = true := by
  simp [uuid]

@[simp] theorem u16_kept (n : UInt16) : u16.Kept n := by
  simp [u16, Number.unsigned, n.toNat_lt]

@[simp] theorem u32_kept (n : UInt32) : u32.Kept n := by
  simp [u32, Number.unsigned, n.toNat_lt]

@[simp] theorem u64_kept (n : UInt64) : u64.Kept n := by
  simp [u64, Number.unsigned, n.toNat_lt]

@[simp] theorem f64_kept (floats : FloatText) (x : ℚ) :
    (f64 floats).Kept x ↔ floats.reread x = x := by
  simp [f64, Number.toF64]

@[simp] theorem jsonU64_kept (n : UInt64) : jsonU64.Kept n := trivial

@[simp] theorem time_kept (times : TimeText) (t : DateTime) : (time times).Kept t := by
  simp [time, times.parse_format]

@[simp] theorem defaultedU64_kept (name : String) (o : Option UInt64) :
    (defaultedU64 name).codec.Kept o := by
  show (jsonU64.option jsonU64_solid).Kept o
  simp

@[simp] theorem skippedUuid_kept (name : String) (o : Option String) :
    (skippedUuid name).codec.Kept o ↔ ∀ value, o = some value → canonical value = true := by
  show (∀ value, o = some value → uuid.Kept value) ↔ _
  simp

end Wire

/-- The doubles of a record. -/
def CpuSnapshot.doubles (cpu : CpuSnapshot) : List ℚ := cpu.usagePercent :: cpu.perCorePercent

def NetworkSnapshot.doubles (network : NetworkSnapshot) : List ℚ :=
  [network.receivedBytesPerSecond, network.transmittedBytesPerSecond]

def DiskSnapshot.doubles (disk : DiskSnapshot) : List ℚ :=
  [disk.readBytesPerSecond, disk.writtenBytesPerSecond]

def TemperatureSnapshot.doubles (sensor : TemperatureSnapshot) : List ℚ :=
  [sensor.celsius, sensor.maxCelsius, sensor.criticalCelsius].reduceOption

def GpuSnapshot.doubles (gpu : GpuSnapshot) : List ℚ :=
  [gpu.utilizationPercent, gpu.temperatureCelsius, gpu.powerWatts, gpu.coreClockMhz,
    gpu.memoryClockMhz, gpu.pcieRxBytesPerSecond, gpu.pcieTxBytesPerSecond].reduceOption

def SystemSnapshot.doubles (system : SystemSnapshot) : List ℚ :=
  system.cpu.doubles ++ system.networks.flatMap NetworkSnapshot.doubles ++
    system.disks.flatMap DiskSnapshot.doubles ++
    system.temperatures.flatMap TemperatureSnapshot.doubles ++ system.gpus.flatMap GpuSnapshot.doubles

def ClientReport.doubles (report : ClientReport) : List ℚ :=
  report.intervalSeconds :: report.system.doubles

/-- The doubles are read back from their texts as they were. -/
def FloatText.Keep (floats : FloatText) (doubles : List ℚ) : Prop :=
  ∀ x ∈ doubles, floats.reread x = x

section
variable (floats : FloatText)

@[simp] theorem FloatText.keep_cons (x : ℚ) (l : List ℚ) :
    floats.Keep (x :: l) ↔ floats.reread x = x ∧ floats.Keep l := by
  simp [FloatText.Keep]

@[simp] theorem FloatText.keep_nil : floats.Keep [] := by
  simp [FloatText.Keep]

@[simp] theorem FloatText.keep_append (l l' : List ℚ) :
    floats.Keep (l ++ l') ↔ floats.Keep l ∧ floats.Keep l' := by
  simp [FloatText.Keep, or_imp, forall_and]

theorem FloatText.keep_flatMap {α : Type} (f : α → List ℚ) (l : List α) :
    floats.Keep (l.flatMap f) ↔ ∀ a ∈ l, floats.Keep (f a) := by
  induction l with
  | nil => simp
  | cons a l ih => rw [List.flatMap_cons, FloatText.keep_append, ih, List.forall_mem_cons]

theorem FloatText.keep_reduceOption (l : List (Option ℚ)) :
    floats.Keep l.reduceOption ↔ ∀ o ∈ l, ∀ x, o = some x → floats.reread x = x := by
  simp only [FloatText.Keep, List.reduceOption_mem_iff]
  constructor
  · intro h o ho x same
    rw [same] at ho
    exact h x ho
  · intro h x hx
    exact h _ hx x rfl

end

theorem HostIdentity.codec_valid {host : HostIdentity} (valid : HostIdentity.codec.Valid host) :
    canonical host.id = true := (uuid_valid _).mp valid.1

/-- What is read as a report has canonical identifiers. -/
theorem ClientReport.codec_valid {times : TimeText} {floats : FloatText} {r : ClientReport}
    (valid : (ClientReport.codec times floats).Valid r) :
    canonical r.reportId = true ∧ canonical r.host.id = true :=
  ⟨(uuid_valid _).mp valid.2.1, HostIdentity.codec_valid valid.2.2.2.1⟩

@[simp] theorem HostIdentity.codec_kept (host : HostIdentity) :
    HostIdentity.codec.Kept host ↔ canonical host.id = true := by
  simp [HostIdentity.codec]

section
variable (floats : FloatText)

@[simp] theorem CpuSnapshot.codec_kept (cpu : CpuSnapshot) :
    (CpuSnapshot.codec floats).Kept cpu ↔ floats.Keep cpu.doubles := by
  simp [CpuSnapshot.codec, CpuSnapshot.doubles, FloatText.Keep]

@[simp] theorem NetworkSnapshot.codec_kept (network : NetworkSnapshot) :
    (NetworkSnapshot.codec floats).Kept network ↔ floats.Keep network.doubles := by
  simp [NetworkSnapshot.codec, NetworkSnapshot.doubles]

@[simp] theorem DiskSnapshot.codec_kept (disk : DiskSnapshot) :
    (DiskSnapshot.codec floats).Kept disk ↔ floats.Keep disk.doubles := by
  simp [DiskSnapshot.codec, DiskSnapshot.doubles]

@[simp] theorem TemperatureSnapshot.codec_kept (sensor : TemperatureSnapshot) :
    (TemperatureSnapshot.codec floats).Kept sensor ↔ floats.Keep sensor.doubles := by
  simp [TemperatureSnapshot.codec, TemperatureSnapshot.doubles, FloatText.keep_reduceOption]

@[simp] theorem GpuSnapshot.codec_kept (gpu : GpuSnapshot) :
    (GpuSnapshot.codec floats).Kept gpu ↔ floats.Keep gpu.doubles := by
  simp [GpuSnapshot.codec, GpuSnapshot.doubles, FloatText.keep_reduceOption]

@[simp] theorem SystemSnapshot.codec_kept (system : SystemSnapshot) :
    (SystemSnapshot.codec floats).Kept system ↔ floats.Keep system.doubles := by
  simp [SystemSnapshot.codec, SystemSnapshot.doubles, MemorySnapshot.codec, FloatText.keep_flatMap]

end

@[simp] theorem Capability.codec_kept (c : Capability) : Capability.codec.Kept c := by
  simp [Capability.codec, CapabilityErrorKind.codec]

theorem ClientReport.codec_kept (times : TimeText) (floats : FloatText) (r : ClientReport) :
    (ClientReport.codec times floats).Kept r ↔
      canonical r.reportId = true ∧ canonical r.host.id = true ∧ floats.Keep r.doubles := by
  simp [ClientReport.codec, ClientReport.doubles, ClientHealth.codec]

@[simp] theorem ClientPairingRequest.codec_kept (r : ClientPairingRequest) :
    ClientPairingRequest.codec.Kept r ↔ canonical r.host.id = true := by
  simp [ClientPairingRequest.codec]

@[simp] theorem ClientPairingResponse.codec_kept (r : ClientPairingResponse) :
    ClientPairingResponse.codec.Kept r ↔ canonical r.requestId = true := by
  simp [ClientPairingResponse.codec]

@[simp] theorem ClientPairingStatusResponse.codec_kept (r : ClientPairingStatusResponse) :
    ClientPairingStatusResponse.codec.Kept r ↔
      ∀ value, r.instanceId = some value → canonical value = true := by
  simp [ClientPairingStatusResponse.codec, PairingStatus.codec]

@[simp] theorem ActivateClientRequest.codec_kept (r : ActivateClientRequest) :
    ActivateClientRequest.codec.Kept r ↔ canonical r.requestId = true := by
  simp [ActivateClientRequest.codec]

@[simp] theorem ActivateClientResponse.codec_kept (r : ActivateClientResponse) :
    ActivateClientResponse.codec.Kept r ↔ canonical r.instanceId = true := by
  simp [ActivateClientResponse.codec, ActivatePairingStatus.codec]

@[simp] theorem ClientReportAck.codec_kept (times : TimeText) (r : ClientReportAck) :
    (ClientReportAck.codec times).Kept r ↔ canonical r.hostId = true ∧ canonical r.reportId = true := by
  simp [ClientReportAck.codec]

/-- The keys of a report, level by level. -/
def ClientReport.shape : Shape :=
  .record [("schema_version", .leaf), ("report_id", .leaf), ("collected_at", .leaf),
    ("host", .record [("id", .leaf), ("os", .leaf), ("os_version", .option .leaf),
      ("kernel_version", .option .leaf), ("arch", .leaf), ("client_version", .leaf)]),
    ("interval_seconds", .leaf),
    ("system", .record [("uptime_seconds", .leaf),
      ("cpu", .record [("usage_percent", .leaf), ("logical_count", .leaf),
        ("physical_count", .option .leaf), ("per_core_percent", .list .leaf)]),
      ("memory", .record [("total_bytes", .leaf), ("used_bytes", .leaf), ("available_bytes", .leaf),
        ("swap_total_bytes", .leaf), ("swap_used_bytes", .leaf)]),
      ("networks", .list (.record [("name", .leaf), ("received_bytes_total", .leaf),
        ("transmitted_bytes_total", .leaf), ("received_bytes_per_second", .leaf),
        ("transmitted_bytes_per_second", .leaf), ("packets_received_total", .leaf),
        ("packets_transmitted_total", .leaf), ("receive_errors_total", .leaf),
        ("transmit_errors_total", .leaf)])),
      ("disks", .list (.record [("name", .leaf), ("mount_point", .leaf), ("file_system", .leaf),
        ("total_bytes", .leaf), ("available_bytes", .leaf), ("read_bytes_total", .leaf),
        ("written_bytes_total", .leaf), ("read_bytes_per_second", .leaf),
        ("written_bytes_per_second", .leaf), ("is_read_only", .leaf)])),
      ("temperatures", .list (.record [("id", .leaf), ("label", .leaf), ("celsius", .option .leaf),
        ("max_celsius", .option .leaf), ("critical_celsius", .option .leaf), ("source", .leaf)])),
      ("gpus", .list (.record [("id", .leaf), ("vendor", .leaf), ("name", .leaf),
        ("utilization_percent", .option .leaf), ("memory_total_bytes", .option .leaf),
        ("memory_used_bytes", .option .leaf), ("temperature_celsius", .option .leaf),
        ("power_watts", .option .leaf), ("core_clock_mhz", .option .leaf),
        ("memory_clock_mhz", .option .leaf), ("pcie_rx_bytes_per_second", .option .leaf),
        ("pcie_tx_bytes_per_second", .option .leaf), ("source", .leaf)]))]),
    ("capabilities", .list (.record [("name", .leaf), ("available", .leaf), ("source", .leaf),
      ("error_kind", .option (.choice ["unsupported", "not_present", "driver_missing",
        "permission_denied", "transient", "invalid_data"])), ("message", .option .leaf)])),
    ("client", .record [("spool_pending_batches", .leaf), ("collector_errors", .leaf)])]

theorem ClientReport.codec_shape (times : TimeText) (floats : FloatText) :
    (ClientReport.codec times floats).shape = ClientReport.shape := rfl

/-- A report is read back from what is written of it, unless an identifier is not canonical or a
double is read as another one. -/
theorem report_round_trip (times : TimeText) (floats : FloatText) (r : ClientReport) :
    (ClientReport.codec times floats).decode ((ClientReport.codec times floats).encode r) = some r ↔
      (∃ u : Uuid, u.toText = r.reportId) ∧ (∃ u : Uuid, u.toText = r.host.id) ∧
      ∀ x ∈ r.doubles, floats.reread x = x := by
  rw [Codec.round, ClientReport.codec_kept, canonical_iff, canonical_iff]
  rfl

end HostMonitoring.Protocol
