import HostMonitoring.Admission.PairingAdmission
import HostMonitoring.Model.Validation
import HostMonitoring.Store.Hosts
import HostMonitoring.Store.Points

namespace HostMonitoring.Store

open HostMonitoring.Protocol

structure ClientPairingPublicSummary where
  requestId : String
  os : String
  arch : String
  clientVersion : String
  status : PairingStatus
  expiresAt : DateTime

def pairingPublic (requestId : Uuid) (now : DateTime) (db : Db) :
    Option ClientPairingPublicSummary :=
  (db.pairings.find? fun r => decide (r.requestId = requestId)).map fun r =>
    { requestId := r.requestId.toText
      os := r.os
      arch := r.arch
      clientVersion := r.clientVersion
      status := match r.status with
        | .pending => if DateTime.sqlLe r.expiresAt now then .expired else .waiting
        | .active => .active
        | .denied => .denied
      expiresAt := r.expiresAt }

/-- `ORDER BY created_at DESC LIMIT 200`: rows of one time come in any order. -/
def ListsInvites (db : Db) (summaries : List ClientInstanceSummary) : Prop :=
  ∃ rows : List InstanceInvite, rows.Perm db.invites.rows ∧
    rows.Pairwise (fun r r' => DateTime.sqlLt r.createdAt r'.createdAt = false) ∧
    summaries = (rows.take 200).map clientInstance

end HostMonitoring.Store

namespace HostMonitoring.Server

open HostMonitoring.Admission
open HostMonitoring.Protocol
open HostMonitoring.Store

/-- Names are in lower case; a header may be sent twice. -/
abbrev HeaderMap := List (String × List UInt8)

namespace HeaderMap

def get (headers : HeaderMap) (name : String) : Option (List UInt8) := headers.lookup name

end HeaderMap

/-- `HeaderValue::to_str`: visible ASCII and tabs. -/
def toStr (value : List UInt8) : Option String :=
  if value.all fun b => (32 ≤ b && b < 127) || b == 9 then
    some (String.ofList (value.map fun b => Char.ofNat b.toNat))
  else none

def splitOnce (delimiter : Char) (value : String) : Option (String × String) :=
  match value.toList.span (· ≠ delimiter) with
  | (_, []) => none
  | (first, _ :: rest) => some (String.ofList first, String.ofList rest)

def authorization (headers : HeaderMap) (expectedScheme : String) : Option String := do
  let value ← toStr (← headers.get "authorization")
  let (scheme, value) ← splitOnce ' ' value
  if scheme.toLower = expectedScheme.toLower ∧ value ≠ "" then some value else none

/-- What a signed-in administrator may ask for. -/
inductive ConsoleRequest where
  | listHosts (limit offset : Option Int)
  | hostDetail (id : String)
  | hostHistory (id : String) (fromTime toTime : Option DateTime) (limit : Option Int)
  | listInstances
  | createInstance (displayName : Option String)
  | cancelInstance (id : String)
  | updateRemark (id remark : String)
  | deleteHost (id : String)
  | activateAdmin (peer : IpAddr) (request : ActivateClientRequest)

/-- A request whose path, query and body were read. -/
inductive Request where
  | report (headers : HeaderMap) (report : ClientReport)
  | createPairing (peer : IpAddr) (request : ClientPairingRequest)
  | pairingPublic (peer : IpAddr) (id : String)
  | pairingStatus (peer : IpAddr) (headers : HeaderMap) (id : String)
  | activateCapability (peer : IpAddr) (request : ActivateClientRequest)
  | console (headers : HeaderMap) (request : ConsoleRequest)

inductive Body where
  | empty
  | error (message : String)
  | ack (hostId reportId : String) (accepted : Bool) (receivedAt : DateTime)
  | hosts (hosts : List HostSummary) (total : Nat) (limit offset : Int)
  | host (host : HostSummary) (latest : Option ClientReport)
  | history (hostId : String) (points : List HistoryPoint)
  | instances (instances : List ClientInstanceSummary)
  | instance (summary : ClientInstanceSummary) (activationCode : String)
  | pairing (requestId activationUrl : String) (expiresIn pollInterval : Nat)
  | pairingPublic (summary : ClientPairingPublicSummary)
  | pairingStatus (status : PairingStatus) (instanceId : Option String)
  | active (instanceId : String)

structure Response where
  status : Nat
  body : Body := .empty
  retryAfter : Option Nat := none
  noStore : Bool := false

inductive Error where
  | badRequest (message : String)
  | unauthorized
  | clientHostMismatch
  | notFound (message : String)
  | conflict (message : String)
  | rateLimited (refusal : RateLimited)
  | retryableUnavailable (message : String) (retryAfter : Nat)
  | database (error : StoreError)

namespace Error

def status : Error → Nat
  | .badRequest _ => 400
  | .unauthorized => 401
  | .clientHostMismatch => 403
  | .notFound _ => 404
  | .conflict _ => 409
  | .rateLimited _ => 429
  | .retryableUnavailable .. => 503
  | .database _ => 503

def retryAfter : Error → Option Nat
  | .rateLimited refusal => some refusal.retryAfter
  | .retryableUnavailable _ retryAfter => some retryAfter
  | _ => none

def message : Error → String
  | .badRequest message => message
  | .unauthorized => "unauthorized"
  | .clientHostMismatch => "client credential does not belong to the reported host"
  | .notFound message => message
  | .conflict message => message
  | .rateLimited refusal => refusal.message
  | .retryableUnavailable message _ => message
  | .database _ => "database is unavailable"

def intoResponse (e : Error) : Response where
  status := e.status
  body := .error e.message
  retryAfter := e.retryAfter

end Error

/-- Neither time is a leap second. -/
def secondsUntil (expiresAt now : DateTime) : Nat :=
  (max (Int.tdiv ((expiresAt.secs - now.secs) * 1000000000 +
    ((expiresAt.nanos : Int) - now.nanos)) 1000000000) 1).toNat

def activationUrl (requestId : Uuid) : String := "/activate/" ++ requestId.toText

end HostMonitoring.Server
