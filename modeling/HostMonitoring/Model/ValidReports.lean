import HostMonitoring.Model.Validation

namespace HostMonitoring.Model

open HostMonitoring.Framework.Checks
open HostMonitoring.Protocol
open HostMonitoring.Store

/-- A text of at most so many bytes without control characters. -/
structure Plain (value : String) (max : Nat) : Prop where
  bytes : value.utf8ByteSize ≤ max
  printable : ∀ c ∈ value.toList, isControl c = false

structure Named (value : String) (max : Nat) : Prop extends Plain value max where
  named : trim value ≠ ""

theorem validateOptional_ok (field value : String) (max : Nat) (u : Unit) :
    validateOptional field value max = .ok u ↔ Plain value max := by
  unfold validateOptional
  rw [reject_ok, not_or, Nat.not_lt, Bool.not_eq_true, List.any_eq_false]
  constructor
  · rintro ⟨bytes, printable⟩
    exact ⟨bytes, fun c hc => Bool.not_eq_true _ ▸ printable c hc⟩
  · rintro ⟨bytes, printable⟩
    exact ⟨bytes, fun c hc => by simp [printable c hc]⟩

theorem validateRequired_ok (field value : String) (max : Nat) (u : Unit) :
    validateRequired field value max = .ok u ↔ Named value max := by
  unfold validateRequired
  rw [check_bind_ok, reject_ok, validateOptional_ok]
  exact ⟨fun ⟨named, plain⟩ => ⟨plain, named⟩, fun h => ⟨h.named, h.toPlain⟩⟩

theorem percent_ok (field : String) (value : ℚ) (u : Unit) :
    percent field value = .ok u ↔ 0 ≤ value ∧ value ≤ 100 := by
  rw [percent, reject_ok, not_not]

theorem nonnegative_ok (field : String) (value : ℚ) (u : Unit) :
    nonnegative field value = .ok u ↔ 0 ≤ value := by
  rw [nonnegative, reject_ok, not_lt]

theorem canonicalUuid_ok (value field : String) (parsed : Uuid) :
    canonicalUuid value field = .ok parsed ↔ parsed.toText = value := by
  unfold canonicalUuid
  cases h : Uuid.parseStr value with
  | none =>
    simp only [reduceCtorEq, false_iff]
    rintro rfl
    rw [Uuid.parseStr_toText] at h
    cases h
  | some u =>
    simp only [ne_eq, ite_not]
    split_ifs with he
    · rw [Except.ok.injEq]
      constructor
      · rintro rfl
        exact he
      · intro hp
        exact Uuid.toText_injective (he.trans hp.symm)
    · simp only [false_iff]
      rintro rfl
      rw [Uuid.parseStr_toText] at h
      exact he (congrArg Uuid.toText (Option.some.inj h).symm)

/-- The text of some identifier. -/
def CanonicalUuid (value : String) : Prop := ∃ u : Uuid, u.toText = value

structure HostValid (host : HostIdentity) : Prop where
  id : CanonicalUuid host.id
  os : Named host.os CLIENT_REPORT_MAX_HOST_OS_BYTES
  arch : Named host.arch CLIENT_REPORT_MAX_HOST_ARCH_BYTES
  client_version : Named host.clientVersion CLIENT_REPORT_MAX_CLIENT_VERSION_BYTES
  os_version : Plain (host.osVersion.getD "") CLIENT_REPORT_MAX_HOST_VERSION_BYTES
  kernel_version : Plain (host.kernelVersion.getD "") CLIENT_REPORT_MAX_HOST_VERSION_BYTES
  supported : host.clientVersion ∈ supportedClientVersions

theorem validateHost_ok (host : HostIdentity) (u : Unit) :
    validateHost host = .ok u ↔ HostValid host := by
  unfold validateHost
  simp only [bind_ok, canonicalUuid_ok, validateRequired_ok, validateOptional_ok, reject_ok, not_not,
    exists_const]
  constructor
  · rintro ⟨id, hid, os, arch, version, osVersion, kernelVersion, supported⟩
    exact ⟨⟨id, hid⟩, os, arch, version, osVersion, kernelVersion, supported⟩
  · rintro ⟨⟨id, hid⟩, os, arch, version, osVersion, kernelVersion, supported⟩
    exact ⟨id, hid, os, arch, version, osVersion, kernelVersion, supported⟩

/-- Sixty-four lowercase hexadecimal digits. -/
structure HashText (value : String) : Prop where
  bytes : value.utf8ByteSize = 64
  digits : ∀ c ∈ value.toList, isLowerHexDigit c = true

theorem validateHash_ok (field value : String) (u : Unit) :
    validateHash field value = .ok u ↔ HashText value := by
  unfold validateHash
  rw [reject_ok, not_or, not_not, Bool.not_eq_false, List.all_eq_true]
  exact ⟨fun ⟨bytes, digits⟩ => ⟨bytes, digits⟩, fun h => ⟨h.bytes, h.digits⟩⟩

structure PairingValid (request : ClientPairingRequest) : Prop where
  host : HostValid request.host
  token_hash : HashText request.tokenHash
  polling_secret_hash : HashText request.pollingSecretHash
  differ : request.tokenHash ≠ request.pollingSecretHash

theorem validatePairing_ok (request : ClientPairingRequest) (u : Unit) :
    validatePairing request = .ok u ↔ PairingValid request := by
  unfold validatePairing
  simp only [bind_ok, validateHost_ok, validateHash_ok, reject_ok, exists_const]
  constructor
  · rintro ⟨host, token, secret, differ⟩
    exact ⟨host, token, secret, differ⟩
  · exact fun h => ⟨h.host, h.token_hash, h.polling_secret_hash, h.differ⟩

structure CapabilityValid (capability : Capability) : Prop where
  name : Named capability.name CLIENT_REPORT_MAX_CAPABILITY_NAME_BYTES
  source : Named capability.source CLIENT_REPORT_MAX_CAPABILITY_SOURCE_BYTES
  message : ∀ message, capability.message = some message →
    Plain message CLIENT_REPORT_MAX_CAPABILITY_MESSAGE_BYTES

theorem validateCapability_ok (capability : Capability) (u : Unit) :
    validateCapability capability = .ok u ↔ CapabilityValid capability := by
  unfold validateCapability
  simp only [bind_ok, validateRequired_ok, validateOptional_ok, forM_ok, Option.mem_toList,
    exists_const]
  exact ⟨fun ⟨name, source, message⟩ => ⟨name, source, message⟩,
    fun h => ⟨h.name, h.source, h.message⟩⟩

structure NetworkValid (network : NetworkSnapshot) : Prop where
  name : Named network.name CLIENT_REPORT_MAX_NETWORK_NAME_BYTES
  received : 0 ≤ network.receivedBytesPerSecond
  transmitted : 0 ≤ network.transmittedBytesPerSecond

theorem validateNetwork_ok (network : NetworkSnapshot) (u : Unit) :
    validateNetwork network = .ok u ↔ NetworkValid network := by
  unfold validateNetwork
  simp only [bind_ok, validateRequired_ok, nonnegative_ok, exists_const]
  exact ⟨fun ⟨name, received, transmitted⟩ => ⟨name, received, transmitted⟩,
    fun h => ⟨h.name, h.received, h.transmitted⟩⟩

structure DiskValid (disk : DiskSnapshot) : Prop where
  name : Plain disk.name CLIENT_REPORT_MAX_DISK_NAME_BYTES
  mount_point : Named disk.mountPoint CLIENT_REPORT_MAX_MOUNT_POINT_BYTES
  file_system : Plain disk.fileSystem CLIENT_REPORT_MAX_FILE_SYSTEM_BYTES
  available : disk.availableBytes ≤ disk.totalBytes
  read : 0 ≤ disk.readBytesPerSecond
  written : 0 ≤ disk.writtenBytesPerSecond

theorem validateDisk_ok (disk : DiskSnapshot) (u : Unit) :
    validateDisk disk = .ok u ↔ DiskValid disk := by
  unfold validateDisk
  simp only [bind_ok, validateRequired_ok, validateOptional_ok, nonnegative_ok, reject_ok,
    exists_const, UInt64.not_lt]
  constructor
  · rintro ⟨name, mountPoint, fileSystem, available, read, written⟩
    exact ⟨name, mountPoint, fileSystem, available, read, written⟩
  · exact fun h => ⟨h.name, h.mount_point, h.file_system, h.available, h.read, h.written⟩

/-- The range the validator holds temperatures to. -/
def Bearable (celsius : ℚ) : Prop := -273.15 ≤ celsius ∧ celsius ≤ 1000

structure TemperatureValid (sensor : TemperatureSnapshot) : Prop where
  id : Plain sensor.id CLIENT_REPORT_MAX_TEMPERATURE_ID_BYTES
  label : Plain sensor.label CLIENT_REPORT_MAX_TEMPERATURE_LABEL_BYTES
  source : Plain sensor.source CLIENT_REPORT_MAX_TEMPERATURE_SOURCE_BYTES
  bearable : ∀ value, some value ∈ [sensor.celsius, sensor.maxCelsius, sensor.criticalCelsius] →
    Bearable value

theorem validateTemperature_ok (sensor : TemperatureSnapshot) (u : Unit) :
    validateTemperature sensor = .ok u ↔ TemperatureValid sensor := by
  unfold validateTemperature
  simp only [bind_ok, validateOptional_ok, forM_ok, reject_ok, not_not, exists_const,
    List.mem_filterMap, id, exists_eq_right]
  constructor
  · rintro ⟨id, label, source, bearable⟩
    exact ⟨id, label, source, bearable⟩
  · exact fun h => ⟨h.id, h.label, h.source, h.bearable⟩

structure GpuValid (gpu : GpuSnapshot) : Prop where
  id : Plain gpu.id CLIENT_REPORT_MAX_GPU_ID_BYTES
  vendor : Plain gpu.vendor CLIENT_REPORT_MAX_GPU_VENDOR_BYTES
  name : Plain gpu.name CLIENT_REPORT_MAX_GPU_NAME_BYTES
  source : Plain gpu.source CLIENT_REPORT_MAX_GPU_SOURCE_BYTES
  utilization : ∀ value, gpu.utilizationPercent = some value → 0 ≤ value ∧ value ≤ 100
  memory : ∀ used total, zip gpu.memoryUsedBytes gpu.memoryTotalBytes = some (used, total) →
    used ≤ total
  nonnegative : ∀ value, some value ∈ [gpu.powerWatts, gpu.coreClockMhz, gpu.memoryClockMhz,
    gpu.pcieRxBytesPerSecond, gpu.pcieTxBytesPerSecond] → 0 ≤ value

theorem validateGpu_ok (gpu : GpuSnapshot) (u : Unit) :
    validateGpu gpu = .ok u ↔ GpuValid gpu := by
  unfold validateGpu
  simp only [bind_ok, validateOptional_ok, forM_ok, reject_ok, percent_ok, nonnegative_ok,
    exists_const, Option.mem_toList, List.mem_filterMap, id, exists_eq_right, Option.any_eq_true,
    not_exists, not_and, Prod.forall, decide_eq_true_eq, UInt64.not_lt]
  constructor
  · rintro ⟨id, vendor, name, source, utilization, memory, nonnegative⟩
    exact ⟨id, vendor, name, source, utilization, memory, nonnegative⟩
  · exact fun h => ⟨h.id, h.vendor, h.name, h.source, h.utilization, h.memory, h.nonnegative⟩

/-- What the report endpoint admits at a moment. -/
structure ReportValid (now : DateTime) (report : ClientReport) : Prop where
  host : HostValid report.host
  report_id : CanonicalUuid report.reportId
  schema : report.schemaVersion = CLIENT_REPORT_SCHEMA_VERSION
  interval : CLIENT_REPORT_MIN_INTERVAL_SECONDS ≤ report.intervalSeconds ∧
    report.intervalSeconds ≤ CLIENT_REPORT_MAX_INTERVAL_SECONDS
  collected : report.collectedAt ≤ now.plusSeconds (5 * 60)
  capability_count : report.capabilities.length ≤ CLIENT_REPORT_MAX_CAPABILITIES
  core_count : report.system.cpu.perCorePercent.length ≤ CLIENT_REPORT_MAX_CPU_CORES
  network_count : report.system.networks.length ≤ CLIENT_REPORT_MAX_NETWORKS
  disk_count : report.system.disks.length ≤ CLIENT_REPORT_MAX_DISKS
  temperature_count : report.system.temperatures.length ≤ CLIENT_REPORT_MAX_TEMPERATURES
  gpu_count : report.system.gpus.length ≤ CLIENT_REPORT_MAX_GPUS
  some_core : report.system.cpu.logicalCount ≠ 0
  cores : report.system.cpu.perCorePercent.length = report.system.cpu.logicalCount.toNat
  cpu : 0 ≤ report.system.cpu.usagePercent ∧ report.system.cpu.usagePercent ≤ 100
  per_core : ∀ value ∈ report.system.cpu.perCorePercent, 0 ≤ value ∧ value ≤ 100
  memory_used : report.system.memory.usedBytes ≤ report.system.memory.totalBytes
  memory_available : report.system.memory.availableBytes ≤ report.system.memory.totalBytes
  memory_swap : report.system.memory.swapUsedBytes ≤ report.system.memory.swapTotalBytes
  capabilities : ∀ capability ∈ report.capabilities, CapabilityValid capability
  networks : ∀ network ∈ report.system.networks, NetworkValid network
  disks : ∀ disk ∈ report.system.disks, DiskValid disk
  temperatures : ∀ sensor ∈ report.system.temperatures, TemperatureValid sensor
  gpus : ∀ gpu ∈ report.system.gpus, GpuValid gpu

theorem validateReport_ok (now : DateTime) (report : ClientReport) (m : MetricSummary) :
    validateReport now report = .ok m ↔ ReportValid now report ∧ m = metricSummary report := by
  unfold validateReport
  simp only [bind_ok, validateHost_ok, canonicalUuid_ok, reject_ok, percent_ok, forM_ok, pure_ok,
    validateCapability_ok, validateNetwork_ok, validateDisk_ok, validateTemperature_ok,
    validateGpu_ok, not_or, not_not, not_lt, UInt64.not_lt, exists_const, ne_eq]
  constructor
  · rintro ⟨host, id, hid, schema, interval, collected, ⟨capabilities, cores, networks, disks,
      temperatures, gpus⟩, ⟨some_core, per_core⟩, cpu, percents, ⟨used, available, swap⟩, validCaps,
      validNets, validDisks, validTemps, validGpus, rfl⟩
    exact ⟨⟨host, ⟨id, hid⟩, schema, interval, collected, capabilities, cores, networks, disks,
      temperatures, gpus, some_core, per_core, cpu, percents, used, available, swap, validCaps,
      validNets, validDisks, validTemps, validGpus⟩, rfl⟩
  · rintro ⟨v, rfl⟩
    obtain ⟨id, hid⟩ := v.report_id
    exact ⟨v.host, id, hid, v.schema, v.interval, v.collected, ⟨v.capability_count, v.core_count,
      v.network_count, v.disk_count, v.temperature_count, v.gpu_count⟩, ⟨v.some_core, v.cores⟩, v.cpu,
      v.per_core, ⟨v.memory_used, v.memory_available, v.memory_swap⟩, v.capabilities, v.networks,
      v.disks, v.temperatures, v.gpus, rfl⟩

end HostMonitoring.Model
