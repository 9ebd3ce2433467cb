import HostMonitoring.Data.Uuid
import HostMonitoring.Framework.Serde
import HostMonitoring.Protocol.JsonU64
import HostMonitoring.Protocol.Pairing

namespace HostMonitoring.Protocol

open HostMonitoring.Framework
open HostMonitoring.Protocol.JsonU64 (Number)

/-- The text of a time in JSON, as `chrono` writes and reads it. -/
structure TimeText where
  format : DateTime → String
  parse : String → Option DateTime
  parse_format : ∀ t, parse (format t) = some t

/-- What is read of the text that a finite double is written as: of most the same double, of some
a neighbour. -/
structure FloatText where
  reread : ℚ → ℚ

/-- `n as f64`: the nearest double, of two the one with an even last bit. -/
def asF64 (n : Nat) : ℚ :=
  let unit := 2 ^ (n.log2 - 52)
  let low := n / unit
  let rest := n % unit
  let up := unit < 2 * rest ∨ 2 * rest = unit ∧ low % 2 = 1
  ((if up then low + 1 else low) * unit : Nat)

namespace JsonU64.Number

/-- An unsigned integer below a limit. -/
def unsigned (limit : Nat) : Number → Option Nat
  | .u64 n => if n.toNat < limit then some n.toNat else none
  | .i64 n => if 0 ≤ n.toInt ∧ n.toInt < limit then some n.toInt.toNat else none
  | .f64 _ => none

def toF64 : Number → ℚ
  | .u64 n => asF64 n.toNat
  | .i64 n => if n.toInt < 0 then -asF64 n.toInt.natAbs else asF64 n.toInt.natAbs
  | .f64 x => x

end JsonU64.Number

namespace Wire

def u16 : Codec Number UInt16 :=
  .number (fun n => .u64 n.toUInt64) fun n => (n.unsigned UInt16.size).map UInt16.ofNat

def u32 : Codec Number UInt32 :=
  .number (fun n => .u64 n.toUInt64) fun n => (n.unsigned UInt32.size).map UInt32.ofNat

def u64 : Codec Number UInt64 :=
  .number .u64 fun n => (n.unsigned UInt64.size).map UInt64.ofNat

/-- A finite double. It is met again as what its text is read as. -/
def f64 (floats : FloatText) : Codec Number ℚ :=
  .number (fun x => .f64 (floats.reread x)) fun n => some n.toF64

def jsonU64 : Codec Number UInt64 where
  encode := JsonU64.serialize
  decode j := (JsonU64.deserialize j).toOption
  Kept _ := True
  Valid _ := True
  shape := .leaf
  round n := by
    rw [(JsonU64.deserialize_ok _ n).mpr (JsonU64.accepted_serialize n)]
    exact iff_of_true rfl trivial
  sound j n h := by
    cases read : JsonU64.deserialize j with
    | error e =>
      rw [read] at h
      cases h
    | ok m =>
      refine ⟨trivial, .leaf j ?_⟩
      cases (JsonU64.deserialize_ok j m).mp read with
      | unsigned n small => rfl
      | signed i n same small => rfl
      | text s n canonical value => rfl

theorem jsonU64_solid (n : UInt64) : jsonU64.encode n ≠ .null := by
  show JsonU64.serialize n ≠ .null
  unfold JsonU64.serialize
  split_ifs
  · simp
  · simp

/-- `deserialize_canonical_uuid` -/
def canonical (value : String) : Bool := (Uuid.parseStr value).any fun u => decide (u.toText = value)

def uuid : Codec Number String := Codec.string.check canonical

def time (times : TimeText) : Codec Number DateTime :=
  .text times.format times.parse

end Wire

open Wire Member

/-- `#[serde(default, with = "crate::json_u64::option")]` -/
def Wire.defaultedU64 (name : String) : Member Number (Option UInt64) :=
  { nullable name jsonU64 jsonU64_solid with defaults := true }

/-- `deserialize_optional_canonical_uuid`, not written where there is none. -/
def Wire.skippedUuid (name : String) : Member Number (Option String) :=
  { nullable name uuid fun _ => nofun with
    defaults := true
    skip := Option.isNone
    skipped := fun o empty => by
      rw [Option.isNone_iff_eq_none.mp empty]
      exact ⟨rfl, nofun⟩ }

theorem Wire.defaultedU64_name (name : String) : (defaultedU64 name).name = name := rfl

def CapabilityErrorKind.asStr : CapabilityErrorKind → String
  | .unsupported => "unsupported"
  | .notPresent => "not_present"
  | .driverMissing => "driver_missing"
  | .permissionDenied => "permission_denied"
  | .transient => "transient"
  | .invalidData => "invalid_data"

def PairingStatus.asStr : PairingStatus → String
  | .waiting => "waiting"
  | .active => "active"
  | .denied => "denied"
  | .expired => "expired"

def CapabilityErrorKind.codec : Codec Number CapabilityErrorKind :=
  .choice [.unsupported, .notPresent, .driverMissing, .permissionDenied, .transient, .invalidData]
    CapabilityErrorKind.asStr fun kind => by cases kind <;> rfl

def PairingStatus.codec : Codec Number PairingStatus :=
  .choice [.waiting, .active, .denied, .expired] PairingStatus.asStr fun status => by
    cases status <;> rfl

def ActivatePairingStatus.codec : Codec Number ActivatePairingStatus :=
  .choice [.active] (fun _ => "active") fun status => by cases status; rfl

def HostIdentity.codec : Codec Number HostIdentity :=
  (Fields.record
    (.cons (required "id" uuid) <|
      .cons (required "os" .string) <|
      .cons (nullable "os_version" .string fun _ => nofun) <|
      .cons (nullable "kernel_version" .string fun _ => nofun) <|
      .cons (required "arch" .string) <|
      .cons (required "client_version" .string) .nil)
    (by decide)).iso
  { toFun := fun r => (r.id, r.os, r.osVersion, r.kernelVersion, r.arch, r.clientVersion, ())
    invFun := fun (id, os, osVersion, kernelVersion, arch, clientVersion, ()) =>
      ⟨id, os, osVersion, kernelVersion, arch, clientVersion⟩
    left_inv := fun _ => rfl
    right_inv := fun _ => rfl }

def CpuSnapshot.codec (floats : FloatText) : Codec Number CpuSnapshot :=
  (Fields.record
    (.cons (required "usage_percent" (f64 floats)) <|
      .cons (required "logical_count" u32) <|
      .cons (nullable "physical_count" u32 fun _ => nofun) <|
      .cons (required "per_core_percent" (f64 floats).list) .nil)
    (by
      simp only [Fields.keys_cons, Fields.keys_nil, required_name, nullable_name]
      decide)).iso
  { toFun := fun r => (r.usagePercent, r.logicalCount, r.physicalCount, r.perCorePercent, ())
    invFun := fun (usagePercent, logicalCount, physicalCount, perCorePercent, ()) =>
      ⟨usagePercent, logicalCount, physicalCount, perCorePercent⟩
    left_inv := fun _ => rfl
    right_inv := fun _ => rfl }

def MemorySnapshot.codec : Codec Number MemorySnapshot :=
  (Fields.record
    (.cons (required "total_bytes" jsonU64) <|
      .cons (required "used_bytes" jsonU64) <|
      .cons (required "available_bytes" jsonU64) <|
      .cons (required "swap_total_bytes" jsonU64) <|
      .cons (required "swap_used_bytes" jsonU64) .nil)
    (by decide)).iso
  { toFun := fun r => (r.totalBytes, r.usedBytes, r.availableBytes, r.swapTotalBytes,
      r.swapUsedBytes, ())
    invFun := fun (totalBytes, usedBytes, availableBytes, swapTotalBytes, swapUsedBytes, ()) =>
      ⟨totalBytes, usedBytes, availableBytes, swapTotalBytes, swapUsedBytes⟩
    left_inv := fun _ => rfl
    right_inv := fun _ => rfl }

def NetworkSnapshot.codec (floats : FloatText) : Codec Number NetworkSnapshot :=
  (Fields.record
    (.cons (required "name" .string) <|
      .cons (required "received_bytes_total" jsonU64) <|
      .cons (required "transmitted_bytes_total" jsonU64) <|
      .cons (required "received_bytes_per_second" (f64 floats)) <|
      .cons (required "transmitted_bytes_per_second" (f64 floats)) <|
      .cons (required "packets_received_total" jsonU64) <|
      .cons (required "packets_transmitted_total" jsonU64) <|
      .cons (required "receive_errors_total" jsonU64) <|
      .cons (required "transmit_errors_total" jsonU64) .nil)
    (by
      simp only [Fields.keys_cons, Fields.keys_nil, required_name]
      decide)).iso
  { toFun := fun r => (r.name, r.receivedBytesTotal, r.transmittedBytesTotal,
      r.receivedBytesPerSecond, r.transmittedBytesPerSecond, r.packetsReceivedTotal,
      r.packetsTransmittedTotal, r.receiveErrorsTotal, r.transmitErrorsTotal, ())
    invFun := fun (name, receivedBytesTotal, transmittedBytesTotal, receivedBytesPerSecond,
      transmittedBytesPerSecond, packetsReceivedTotal, packetsTransmittedTotal, receiveErrorsTotal,
      transmitErrorsTotal, ()) =>
      ⟨name, receivedBytesTotal, transmittedBytesTotal, receivedBytesPerSecond,
      transmittedBytesPerSecond, packetsReceivedTotal, packetsTransmittedTotal, receiveErrorsTotal,
      transmitErrorsTotal⟩
    left_inv := fun _ => rfl
    right_inv := fun _ => rfl }

def DiskSnapshot.codec (floats : FloatText) : Codec Number DiskSnapshot :=
  (Fields.record
    (.cons (required "name" .string) <|
      .cons (required "mount_point" .string) <|
      .cons (required "file_system" .string) <|
      .cons (required "total_bytes" jsonU64) <|
      .cons (required "available_bytes" jsonU64) <|
      .cons (required "read_bytes_total" jsonU64) <|
      .cons (required "written_bytes_total" jsonU64) <|
      .cons (required "read_bytes_per_second" (f64 floats)) <|
      .cons (required "written_bytes_per_second" (f64 floats)) <|
      .cons (required "is_read_only" .bool) .nil)
    (by
      simp only [Fields.keys_cons, Fields.keys_nil, required_name]
      decide)).iso
  { toFun := fun r => (r.name, r.mountPoint, r.fileSystem, r.totalBytes, r.availableBytes,
      r.readBytesTotal, r.writtenBytesTotal, r.readBytesPerSecond, r.writtenBytesPerSecond,
      r.isReadOnly, ())
    invFun := fun (name, mountPoint, fileSystem, totalBytes, availableBytes, readBytesTotal,
      writtenBytesTotal, readBytesPerSecond, writtenBytesPerSecond, isReadOnly, ()) =>
      ⟨name, mountPoint, fileSystem, totalBytes, availableBytes, readBytesTotal, writtenBytesTotal,
      readBytesPerSecond, writtenBytesPerSecond, isReadOnly⟩
    left_inv := fun _ => rfl
    right_inv := fun _ => rfl }

def TemperatureSnapshot.codec (floats : FloatText) : Codec Number TemperatureSnapshot :=
  (Fields.record
    (.cons (required "id" .string) <|
      .cons (required "label" .string) <|
      .cons (nullable "celsius" (f64 floats) fun _ => nofun) <|
      .cons (nullable "max_celsius" (f64 floats) fun _ => nofun) <|
      .cons (nullable "critical_celsius" (f64 floats) fun _ => nofun) <|
      .cons (required "source" .string) .nil)
    (by
      simp only [Fields.keys_cons, Fields.keys_nil, required_name, nullable_name]
      decide)).iso
  { toFun := fun r => (r.id, r.label, r.celsius, r.maxCelsius, r.criticalCelsius, r.source, ())
    invFun := fun (id, label, celsius, maxCelsius, criticalCelsius, source, ()) =>
      ⟨id, label, celsius, maxCelsius, criticalCelsius, source⟩
    left_inv := fun _ => rfl
    right_inv := fun _ => rfl }

def GpuSnapshot.codec (floats : FloatText) : Codec Number GpuSnapshot :=
  (Fields.record
    (.cons (required "id" .string) <|
      .cons (required "vendor" .string) <|
      .cons (required "name" .string) <|
      .cons (nullable "utilization_percent" (f64 floats) fun _ => nofun) <|
      .cons (defaultedU64 "memory_total_bytes") <|
      .cons (defaultedU64 "memory_used_bytes") <|
      .cons (nullable "temperature_celsius" (f64 floats) fun _ => nofun) <|
      .cons (nullable "power_watts" (f64 floats) fun _ => nofun) <|
      .cons (nullable "core_clock_mhz" (f64 floats) fun _ => nofun) <|
      .cons (nullable "memory_clock_mhz" (f64 floats) fun _ => nofun) <|
      .cons (nullable "pcie_rx_bytes_per_second" (f64 floats) fun _ => nofun) <|
      .cons (nullable "pcie_tx_bytes_per_second" (f64 floats) fun _ => nofun) <|
      .cons (required "source" .string) .nil)
    (by
      simp only [Fields.keys_cons, Fields.keys_nil, required_name, nullable_name, defaultedU64_name]
      decide)).iso
  { toFun := fun r => (r.id, r.vendor, r.name, r.utilizationPercent, r.memoryTotalBytes,
      r.memoryUsedBytes, r.temperatureCelsius, r.powerWatts, r.coreClockMhz, r.memoryClockMhz,
      r.pcieRxBytesPerSecond, r.pcieTxBytesPerSecond, r.source, ())
    invFun := fun (id, vendor, name, utilizationPercent, memoryTotalBytes, memoryUsedBytes,
      temperatureCelsius, powerWatts, coreClockMhz, memoryClockMhz, pcieRxBytesPerSecond,
      pcieTxBytesPerSecond, source, ()) =>
      ⟨id, vendor, name, utilizationPercent, memoryTotalBytes, memoryUsedBytes, temperatureCelsius,
      powerWatts, coreClockMhz, memoryClockMhz, pcieRxBytesPerSecond, pcieTxBytesPerSecond, source⟩
    left_inv := fun _ => rfl
    right_inv := fun _ => rfl }

def SystemSnapshot.codec (floats : FloatText) : Codec Number SystemSnapshot :=
  (Fields.record
    (.cons (required "uptime_seconds" jsonU64) <|
      .cons (required "cpu" (CpuSnapshot.codec floats)) <|
      .cons (required "memory" MemorySnapshot.codec) <|
      .cons (required "networks" (NetworkSnapshot.codec floats).list) <|
      .cons (required "disks" (DiskSnapshot.codec floats).list) <|
      .cons (required "temperatures" (TemperatureSnapshot.codec floats).list) <|
      .cons (required "gpus" (GpuSnapshot.codec floats).list) .nil)
    (by
      simp only [Fields.keys_cons, Fields.keys_nil, required_name]
      decide)).iso
  { toFun := fun r => (r.uptimeSeconds, r.cpu, r.memory, r.networks, r.disks, r.temperatures,
      r.gpus, ())
    invFun := fun (uptimeSeconds, cpu, memory, networks, disks, temperatures, gpus, ()) =>
      ⟨uptimeSeconds, cpu, memory, networks, disks, temperatures, gpus⟩
    left_inv := fun _ => rfl
    right_inv := fun _ => rfl }

def Capability.codec : Codec Number Capability :=
  (Fields.record
    (.cons (required "name" .string) <|
      .cons (required "available" .bool) <|
      .cons (required "source" .string) <|
      .cons (nullable "error_kind" CapabilityErrorKind.codec fun _ => nofun) <|
      .cons (nullable "message" .string fun _ => nofun) .nil)
    (by decide)).iso
  { toFun := fun r => (r.name, r.available, r.source, r.errorKind, r.message, ())
    invFun := fun (name, available, source, errorKind, message, ()) =>
      ⟨name, available, source, errorKind, message⟩
    left_inv := fun _ => rfl
    right_inv := fun _ => rfl }

def ClientHealth.codec : Codec Number ClientHealth :=
  (Fields.record
    (.cons (required "spool_pending_batches" jsonU64) <|
      .cons (required "collector_errors" jsonU64) .nil)
    (by decide)).iso
  { toFun := fun r => (r.spoolPendingBatches, r.collectorErrors, ())
    invFun := fun (spoolPendingBatches, collectorErrors, ()) =>
      ⟨spoolPendingBatches, collectorErrors⟩
    left_inv := fun _ => rfl
    right_inv := fun _ => rfl }

def ClientReport.codec (times : TimeText) (floats : FloatText) : Codec Number ClientReport :=
  (Fields.record
    (.cons (required "schema_version" u16) <|
      .cons (required "report_id" uuid) <|
      .cons (required "collected_at" (time times)) <|
      .cons (required "host" HostIdentity.codec) <|
      .cons (required "interval_seconds" (f64 floats)) <|
      .cons (required "system" (SystemSnapshot.codec floats)) <|
      .cons (required "capabilities" Capability.codec.list) <|
      .cons (required "client" ClientHealth.codec) .nil)
    (by
      simp only [Fields.keys_cons, Fields.keys_nil, required_name]
      decide)).iso
  { toFun := fun r => (r.schemaVersion, r.reportId, r.collectedAt, r.host, r.intervalSeconds,
      r.system, r.capabilities, r.client, ())
    invFun := fun (schemaVersion, reportId, collectedAt, host, intervalSeconds, system,
      capabilities, client, ()) =>
      ⟨schemaVersion, reportId, collectedAt, host, intervalSeconds, system, capabilities, client⟩
    left_inv := fun _ => rfl
    right_inv := fun _ => rfl }

def ClientPairingRequest.codec : Codec Number ClientPairingRequest :=
  (Fields.record
    (.cons (required "host" HostIdentity.codec) <|
      .cons (required "token_hash" .string) <|
      .cons (required "polling_secret_hash" .string) .nil)
    (by decide)).iso
  { toFun := fun r => (r.host, r.tokenHash, r.pollingSecretHash, ())
    invFun := fun (host, tokenHash, pollingSecretHash, ()) => ⟨host, tokenHash, pollingSecretHash⟩
    left_inv := fun _ => rfl
    right_inv := fun _ => rfl }

def ClientPairingResponse.codec : Codec Number ClientPairingResponse :=
  (Fields.record
    (.cons (required "request_id" uuid) <|
      .cons (required "activation_url" .string) <|
      .cons (required "expires_in" u64) <|
      .cons (required "poll_interval" u64) .nil)
    (by decide)).iso
  { toFun := fun r => (r.requestId, r.activationUrl, r.expiresIn, r.pollInterval, ())
    invFun := fun (requestId, activationUrl, expiresIn, pollInterval, ()) =>
      ⟨requestId, activationUrl, expiresIn, pollInterval⟩
    left_inv := fun _ => rfl
    right_inv := fun _ => rfl }

def ClientPairingStatusResponse.codec : Codec Number ClientPairingStatusResponse :=
  (Fields.record
    (.cons (required "status" PairingStatus.codec) <|
      .cons (skippedUuid "instance_id") .nil)
    (by decide)).iso
  { toFun := fun r => (r.status, r.instanceId, ())
    invFun := fun (status, instanceId, ()) => ⟨status, instanceId⟩
    left_inv := fun _ => rfl
    right_inv := fun _ => rfl }

def ActivateClientRequest.codec : Codec Number ActivateClientRequest :=
  (Fields.record
    (.cons (required "request_id" uuid) <|
      .cons (required "activation_code" .string) .nil)
    (by decide)).iso
  { toFun := fun r => (r.requestId, r.activationCode, ())
    invFun := fun (requestId, activationCode, ()) => ⟨requestId, activationCode⟩
    left_inv := fun _ => rfl
    right_inv := fun _ => rfl }

def ActivateClientResponse.codec : Codec Number ActivateClientResponse :=
  (Fields.record
    (.cons (required "instance_id" uuid) <|
      .cons (required "status" ActivatePairingStatus.codec) .nil)
    (by decide)).iso
  { toFun := fun r => (r.instanceId, r.status, ())
    invFun := fun (instanceId, status, ()) => ⟨instanceId, status⟩
    left_inv := fun _ => rfl
    right_inv := fun _ => rfl }

def ClientReportAck.codec (times : TimeText) : Codec Number ClientReportAck :=
  (Fields.record
    (.cons (required "host_id" uuid) <|
      .cons (required "report_id" uuid) <|
      .cons (required "accepted" .bool) <|
      .cons (required "received_at" (time times)) .nil)
    (by
      simp only [Fields.keys_cons, Fields.keys_nil, required_name]
      decide)).iso
  { toFun := fun r => (r.hostId, r.reportId, r.accepted, r.receivedAt, ())
    invFun := fun (hostId, reportId, accepted, receivedAt, ()) =>
      ⟨hostId, reportId, accepted, receivedAt⟩
    left_inv := fun _ => rfl
    right_inv := fun _ => rfl }

end HostMonitoring.Protocol
