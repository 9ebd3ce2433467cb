import HostMonitoring.Protocol.Report

namespace HostMonitoring.Protocol

structure ClientPairingRequest where
  host : HostIdentity
  tokenHash : String
  pollingSecretHash : String
deriving DecidableEq

structure ClientPairingResponse where
  requestId : String
  activationUrl : String
  expiresIn : UInt64
  pollInterval : UInt64
deriving DecidableEq

inductive PairingStatus where
  | waiting
  | active
  | denied
  | expired
deriving DecidableEq

structure ClientPairingStatusResponse where
  status : PairingStatus
  instanceId : Option String
deriving DecidableEq

structure ActivateClientRequest where
  requestId : String
  activationCode : String
deriving DecidableEq

inductive ActivatePairingStatus where
  | active
deriving DecidableEq

structure ActivateClientResponse where
  instanceId : String
  status : ActivatePairingStatus
deriving DecidableEq

structure ClientReportAck where
  hostId : String
  reportId : String
  accepted : Bool
  receivedAt : DateTime
deriving DecidableEq

end HostMonitoring.Protocol
