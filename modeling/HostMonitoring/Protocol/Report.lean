import HostMonitoring.Data.DateTime
import Mathlib.Data.Rat.Defs

namespace HostMonitoring.Protocol

structure HostIdentity where
  id : String
  os : String
  osVersion : Option String
  kernelVersion : Option String
  arch : String
  clientVersion : String
deriving DecidableEq

structure CpuSnapshot where
  usagePercent : ℚ
  logicalCount : UInt32
  physicalCount : Option UInt32
  perCorePercent : List ℚ
deriving DecidableEq

structure MemorySnapshot where
  totalBytes : UInt64
  usedBytes : UInt64
  availableBytes : UInt64
  swapTotalBytes : UInt64
  swapUsedBytes : UInt64
deriving DecidableEq

structure NetworkSnapshot where
  name : String
  receivedBytesTotal : UInt64
  transmittedBytesTotal : UInt64
  receivedBytesPerSecond : ℚ
  transmittedBytesPerSecond : ℚ
  packetsReceivedTotal : UInt64
  packetsTransmittedTotal : UInt64
  receiveErrorsTotal : UInt64
  transmitErrorsTotal : UInt64
deriving DecidableEq

structure DiskSnapshot where
  name : String
  mountPoint : String
  fileSystem : String
  totalBytes : UInt64
  availableBytes : UInt64
  readBytesTotal : UInt64
  writtenBytesTotal : UInt64
  readBytesPerSecond : ℚ
  writtenBytesPerSecond : ℚ
  isReadOnly : Bool
deriving DecidableEq

structure TemperatureSnapshot where
  id : String
  label : String
  celsius : Option ℚ
  maxCelsius : Option ℚ
  criticalCelsius : Option ℚ
  source : String
deriving DecidableEq

structure GpuSnapshot where
  id : String
  vendor : String
  name : String
  utilizationPercent : Option ℚ
  memoryTotalBytes : Option UInt64
  memoryUsedBytes : Option UInt64
  temperatureCelsius : Option ℚ
  powerWatts : Option ℚ
  coreClockMhz : Option ℚ
  memoryClockMhz : Option ℚ
  pcieRxBytesPerSecond : Option ℚ
  pcieTxBytesPerSecond : Option ℚ
  source : String
deriving DecidableEq

structure SystemSnapshot where
  uptimeSeconds : UInt64
  cpu : CpuSnapshot
  memory : MemorySnapshot
  networks : List NetworkSnapshot
  disks : List DiskSnapshot
  temperatures : List TemperatureSnapshot
  gpus : List GpuSnapshot
deriving DecidableEq

inductive CapabilityErrorKind where
  | unsupported
  | notPresent
  | driverMissing
  | permissionDenied
  | transient
  | invalidData
deriving DecidableEq

structure Capability where
  name : String
  available : Bool
  source : String
  errorKind : Option CapabilityErrorKind
  message : Option String
deriving DecidableEq

structure ClientHealth where
  spoolPendingBatches : UInt64
  collectorErrors : UInt64
deriving DecidableEq

/-- A telemetry report as decoded from JSON; its numbers are finite. -/
structure ClientReport where
  schemaVersion : UInt16
  reportId : String
  collectedAt : DateTime
  host : HostIdentity
  intervalSeconds : ℚ
  system : SystemSnapshot
  capabilities : List Capability
  client : ClientHealth
deriving DecidableEq

end HostMonitoring.Protocol
