import HostMonitoring.Data.Text
import HostMonitoring.Framework.Checks
import HostMonitoring.Model.Metrics
import HostMonitoring.Protocol.Pairing

namespace HostMonitoring.Model

open HostMonitoring.Framework.Checks
open HostMonitoring.Protocol
open HostMonitoring.Store

def CLIENT_REPORT_SCHEMA_VERSION : UInt16 := 1
def CLIENT_REPORT_MIN_INTERVAL_SECONDS : ℚ := 1 / 10
def CLIENT_REPORT_MAX_INTERVAL_SECONDS : ℚ := 3600
def CLIENT_REPORT_MAX_CAPABILITIES : Nat := 256
def CLIENT_REPORT_MAX_CPU_CORES : Nat := 4096
def CLIENT_REPORT_MAX_NETWORKS : Nat := 1024
def CLIENT_REPORT_MAX_DISKS : Nat := 1024
def CLIENT_REPORT_MAX_TEMPERATURES : Nat := 4096
def CLIENT_REPORT_MAX_GPUS : Nat := 128
def CLIENT_REPORT_MAX_HOST_OS_BYTES : Nat := 64
def CLIENT_REPORT_MAX_HOST_VERSION_BYTES : Nat := 128
def CLIENT_REPORT_MAX_HOST_ARCH_BYTES : Nat := 64
def CLIENT_REPORT_MAX_CLIENT_VERSION_BYTES : Nat := 128
def CLIENT_REPORT_MAX_CAPABILITY_NAME_BYTES : Nat := 128
def CLIENT_REPORT_MAX_CAPABILITY_SOURCE_BYTES : Nat := 128
def CLIENT_REPORT_MAX_CAPABILITY_MESSAGE_BYTES : Nat := 1024
def CLIENT_REPORT_MAX_NETWORK_NAME_BYTES : Nat := 255
def CLIENT_REPORT_MAX_DISK_NAME_BYTES : Nat := 1024
def CLIENT_REPORT_MAX_MOUNT_POINT_BYTES : Nat := 4096
def CLIENT_REPORT_MAX_FILE_SYSTEM_BYTES : Nat := 128
def CLIENT_REPORT_MAX_TEMPERATURE_ID_BYTES : Nat := 255
def CLIENT_REPORT_MAX_TEMPERATURE_LABEL_BYTES : Nat := 255
def CLIENT_REPORT_MAX_TEMPERATURE_SOURCE_BYTES : Nat := 64
def CLIENT_REPORT_MAX_GPU_ID_BYTES : Nat := 255
def CLIENT_REPORT_MAX_GPU_VENDOR_BYTES : Nat := 64
def CLIENT_REPORT_MAX_GPU_NAME_BYTES : Nat := 255
def CLIENT_REPORT_MAX_GPU_SOURCE_BYTES : Nat := 64

/-- Unicode `Cc`. -/
def isControl (c : Char) : Bool :=
  c.toNat ≤ 0x1f || (0x7f ≤ c.toNat && c.toNat ≤ 0x9f)

def validateOptional (field value : String) (max : Nat) : Except String Unit :=
  reject (max < value.utf8ByteSize ∨ value.toList.any isControl = true) ("invalid " ++ field)

def validateRequired (field value : String) (max : Nat) : Except String Unit := do
  reject (trim value = "") (field ++ " must not be empty")
  validateOptional field value max

def percent (field : String) (value : ℚ) : Except String Unit :=
  reject (¬(0 ≤ value ∧ value ≤ 100)) ("invalid " ++ field)

def nonnegative (field : String) (value : ℚ) : Except String Unit :=
  reject (value < 0) ("invalid " ++ field)

def canonicalUuid (value field : String) : Except String Uuid :=
  match Uuid.parseStr value with
  | none => .error (field ++ " must be a canonical UUID")
  | some parsed =>
    if parsed.toText ≠ value then .error (field ++ " must be lowercase and hyphenated")
    else .ok parsed

def isLowerHexDigit (c : Char) : Bool :=
  ('0' ≤ c && c ≤ '9') || ('a' ≤ c && c ≤ 'f')

def validateHash (field value : String) : Except String Unit :=
  reject (value.utf8ByteSize ≠ 64 ∨ value.toList.all isLowerHexDigit = false)
    (field ++ " must be lowercase SHA-256 hex")

def supportedClientVersions : List String :=
  ["0.9.3", "0.9.4", "0.9.5", "0.9.6", "0.9.7", "0.9.8", "0.9.9", "0.9.10", "0.9.11", "0.9.12",
    "0.9.13", "0.9.14"]

def validateHost (host : HostIdentity) : Except String Unit := do
  let _ ← canonicalUuid host.id "host.id"
  validateRequired "host.os" host.os CLIENT_REPORT_MAX_HOST_OS_BYTES
  validateRequired "host.arch" host.arch CLIENT_REPORT_MAX_HOST_ARCH_BYTES
  validateRequired "host.client_version" host.clientVersion CLIENT_REPORT_MAX_CLIENT_VERSION_BYTES
  validateOptional "host.os_version" (host.osVersion.getD "") CLIENT_REPORT_MAX_HOST_VERSION_BYTES
  validateOptional "host.kernel_version" (host.kernelVersion.getD "")
    CLIENT_REPORT_MAX_HOST_VERSION_BYTES
  reject (host.clientVersion ∉ supportedClientVersions) "unsupported host.client_version"

def validatePairing (request : ClientPairingRequest) : Except String Unit := do
  validateHost request.host
  validateHash "token_hash" request.tokenHash
  validateHash "polling_secret_hash" request.pollingSecretHash
  reject (request.tokenHash = request.pollingSecretHash)
    "token_hash and polling_secret_hash must differ"

def validateCapability (capability : Capability) : Except String Unit := do
  validateRequired "capability.name" capability.name CLIENT_REPORT_MAX_CAPABILITY_NAME_BYTES
  validateRequired "capability.source" capability.source CLIENT_REPORT_MAX_CAPABILITY_SOURCE_BYTES
  capability.message.toList.forM fun message =>
    validateOptional "capability.message" message CLIENT_REPORT_MAX_CAPABILITY_MESSAGE_BYTES

def validateNetwork (network : NetworkSnapshot) : Except String Unit := do
  validateRequired "network.name" network.name CLIENT_REPORT_MAX_NETWORK_NAME_BYTES
  nonnegative "network.received_bytes_per_second" network.receivedBytesPerSecond
  nonnegative "network.transmitted_bytes_per_second" network.transmittedBytesPerSecond

def validateDisk (disk : DiskSnapshot) : Except String Unit := do
  validateOptional "disk.name" disk.name CLIENT_REPORT_MAX_DISK_NAME_BYTES
  validateRequired "disk.mount_point" disk.mountPoint CLIENT_REPORT_MAX_MOUNT_POINT_BYTES
  validateOptional "disk.file_system" disk.fileSystem CLIENT_REPORT_MAX_FILE_SYSTEM_BYTES
  reject (disk.totalBytes < disk.availableBytes) "disk available bytes exceed total"
  nonnegative "disk.read_bytes_per_second" disk.readBytesPerSecond
  nonnegative "disk.written_bytes_per_second" disk.writtenBytesPerSecond

def validateTemperature (sensor : TemperatureSnapshot) : Except String Unit := do
  validateOptional "temperature.id" sensor.id CLIENT_REPORT_MAX_TEMPERATURE_ID_BYTES
  validateOptional "temperature.label" sensor.label CLIENT_REPORT_MAX_TEMPERATURE_LABEL_BYTES
  validateOptional "temperature.source" sensor.source CLIENT_REPORT_MAX_TEMPERATURE_SOURCE_BYTES
  ([sensor.celsius, sensor.maxCelsius, sensor.criticalCelsius].filterMap id).forM fun value =>
    reject (¬(-273.15 ≤ value ∧ value ≤ 1000)) "invalid temperature"

/-- The temperature of a GPU is not looked at. -/
def validateGpu (gpu : GpuSnapshot) : Except String Unit := do
  validateOptional "gpu.id" gpu.id CLIENT_REPORT_MAX_GPU_ID_BYTES
  validateOptional "gpu.vendor" gpu.vendor CLIENT_REPORT_MAX_GPU_VENDOR_BYTES
  validateOptional "gpu.name" gpu.name CLIENT_REPORT_MAX_GPU_NAME_BYTES
  validateOptional "gpu.source" gpu.source CLIENT_REPORT_MAX_GPU_SOURCE_BYTES
  gpu.utilizationPercent.toList.forM (percent "gpu.utilization_percent")
  reject ((zip gpu.memoryUsedBytes gpu.memoryTotalBytes).any fun (used, total) =>
    decide (total < used)) "GPU memory usage exceeds total"
  ([gpu.powerWatts, gpu.coreClockMhz, gpu.memoryClockMhz, gpu.pcieRxBytesPerSecond,
    gpu.pcieTxBytesPerSecond].filterMap id).forM (nonnegative "gpu metric")

/-- `now` is what the clock reads when the time of the report is looked at. -/
def validateReport (now : DateTime) (report : ClientReport) : Except String MetricSummary := do
  validateHost report.host
  let _ ← canonicalUuid report.reportId "report_id"
  reject (report.schemaVersion ≠ CLIENT_REPORT_SCHEMA_VERSION)
    "unsupported client report schema_version"
  reject (¬(CLIENT_REPORT_MIN_INTERVAL_SECONDS ≤ report.intervalSeconds ∧
    report.intervalSeconds ≤ CLIENT_REPORT_MAX_INTERVAL_SECONDS))
    "interval_seconds is outside the supported range"
  reject (now.plusSeconds (5 * 60) < report.collectedAt) "collected_at is too far in the future"
  reject (CLIENT_REPORT_MAX_CAPABILITIES < report.capabilities.length ∨
    CLIENT_REPORT_MAX_CPU_CORES < report.system.cpu.perCorePercent.length ∨
    CLIENT_REPORT_MAX_NETWORKS < report.system.networks.length ∨
    CLIENT_REPORT_MAX_DISKS < report.system.disks.length ∨
    CLIENT_REPORT_MAX_TEMPERATURES < report.system.temperatures.length ∨
    CLIENT_REPORT_MAX_GPUS < report.system.gpus.length) "report contains too many devices"
  reject (report.system.cpu.logicalCount = 0 ∨
    report.system.cpu.perCorePercent.length ≠ report.system.cpu.logicalCount.toNat)
    "cpu core count and per-core values disagree"
  percent "cpu.usage_percent" report.system.cpu.usagePercent
  report.system.cpu.perCorePercent.forM (percent "cpu.per_core_percent")
  reject (report.system.memory.totalBytes < report.system.memory.usedBytes ∨
    report.system.memory.totalBytes < report.system.memory.availableBytes ∨
    report.system.memory.swapTotalBytes < report.system.memory.swapUsedBytes)
    "memory counters exceed totals"
  report.capabilities.forM validateCapability
  report.system.networks.forM validateNetwork
  report.system.disks.forM validateDisk
  report.system.temperatures.forM validateTemperature
  report.system.gpus.forM validateGpu
  return metricSummary report

def validateInstanceName (value : String) : Except String Unit :=
  reject (32 < value.length) "instance name must contain at most 32 characters"

/-- The name of a new instance; one without a name is the overview. -/
def createClientInstanceRequestValidated (displayName : Option String) : Except String String := do
  let displayName := trim (displayName.getD "概览")
  validateRequired "display_name" displayName 255
  validateInstanceName displayName
  return displayName

def updateMonitoringRemarkRequestValidated (remark : String) : Except String String := do
  let value := trim remark
  validateRequired "remark" value 255
  validateInstanceName value
  return value

end HostMonitoring.Model
