import HostMonitoring.Server.Calls

namespace HostMonitoring.Server

open HostMonitoring.Framework
open HostMonitoring.Admission
open HostMonitoring.Model
open HostMonitoring.Protocol
open HostMonitoring.Store
open HostMonitoring.Telemetry (TelemetrySubmitError)

abbrev Handler (α : Type) := Fallible Call Answer Error α

def perform (o : Call) : Handler (Answer o) := ExceptT.lift (Program.ask o)

def ofExcept {α : Type} (x : Except Error α) : Handler α := ExceptT.mk (pure x)

def okOr {α : Type} (x : Option α) (e : Error) : Handler α := ofExcept (x.elim (.error e) .ok)

def ensure (good : Prop) [Decidable good] (e : Error) : Handler Unit :=
  ofExcept (if good then .ok () else .error e)

def validated {α : Type} (x : Except String α) : Handler α := ofExcept (x.mapError .badRequest)

def panic {α : Type} : Handler α := do nomatch (← perform .panic)

def allowReport (hostId : String) : Handler Unit := do
  ofExcept ((← perform (.allowReport hostId)).mapError fun delay =>
    .rateLimited (reportLimited delay))

def checkAdmission (check : Check) : Handler Unit := do
  ofExcept ((← perform (.checkAdmission check)).mapError .rateLimited)

def query (q : Query) : Handler q.Result := do
  ofExcept ((← perform (.query q)).mapError .database)

def mutate (m : Mutation) : Handler m.Result := do
  ofExcept ((← perform (.mutate m)).mapError .database)

/-- The order matters: a store error is looked into before it is called unavailable. -/
def submitError : TelemetrySubmitError → Error
  | .queueFull => .rateLimited ⟨"telemetry queue is full", 1⟩
  | .writerUnavailable => .retryableUnavailable "telemetry writer is unavailable" 1
  | .responseDeadline =>
    .retryableUnavailable "telemetry persistence exceeded its response deadline" 1
  | .store (.report .unauthorized) => .unauthorized
  | .store (.report .reportIdConflict) => .conflict "report_id already belongs to another host"
  | .store _ => .retryableUnavailable "telemetry persistence is unavailable" 1

def submit (write : ReportWrite) : Handler (Bool × DateTime) := do
  let call ← perform (.submit write)
  ofExcept ((← perform (.submitted call)).mapError submitError)

section
variable (tokenHash : String → String)

def report (headers : HeaderMap) (report : ClientReport) : Handler Response := do
  let credential ← okOr (authorization headers "bearer") .unauthorized
  let credentialHash := tokenHash credential
  let host ← okOr (← query (.hostForToken credentialHash)) .unauthorized
  ensure (host.toText = report.host.id) .clientHostMismatch
  let metrics ← validated (validateReport (← perform .now) report)
  allowReport report.host.id
  let (accepted, receivedAt) ← submit ⟨report, credentialHash, metrics⟩
  return { status := 202, body := .ack report.host.id report.reportId accepted receivedAt }

def createPairing (peer : IpAddr) (request : ClientPairingRequest) : Handler Response := do
  validated (validatePairing request)
  checkAdmission (.create peer request.host.id)
  match ← mutate (.createPairing request) with
  | .ready requestId expiresAt created =>
    let expiresIn := secondsUntil expiresAt (← perform .now)
    return {
      status := if created then 201 else 200
      body := .pairing requestId.toText (activationUrl requestId) expiresIn 5
      noStore := true }
  | .expired => throw (.badRequest "pairing request expired")
  | .conflict => throw (.conflict "polling secret or client token is already in use")
  | .atCapacity => throw (.rateLimited ⟨"too many pending pairing requests", 60⟩)
  | .deviceAtCapacity =>
    throw (.rateLimited ⟨"too many pending pairing requests for this device", 60⟩)

def pairingPublic (peer : IpAddr) (id : String) : Handler Response := do
  let id ← validated (canonicalUuid id "pairing request id")
  checkAdmission (.poll peer id)
  let value ← okOr (← query (.pairingPublic id)) (.notFound "pairing request not found")
  return { status := 200, body := .pairingPublic value, noStore := true }

def pairingStatus (peer : IpAddr) (headers : HeaderMap) (id : String) : Handler Response := do
  let id ← validated (canonicalUuid id "pairing request id")
  checkAdmission (.poll peer id)
  let secret ← okOr (authorization headers "pairing") .unauthorized
  ensure (32 ≤ secret.utf8ByteSize ∧ secret.utf8ByteSize ≤ 256 ∧
    secret.toList.any isWhitespace = false) .unauthorized
  let (status, instanceId) ← okOr (← query (.pairingStatus id (tokenHash secret))) .unauthorized
  return { status := 200, body := .pairingStatus status instanceId, noStore := true }

def activate (source : IpAddr) (request : ActivateClientRequest) (actor : String) :
    Handler Response := do
  let id ← validated (canonicalUuid request.requestId "pairing request id")
  checkAdmission (.activation source id)
  ensure (request.activationCode.utf8ByteSize ≤ 256 ∧
    request.activationCode.toList.any isWhitespace = false) .unauthorized
  match ← mutate (.activate id (tokenHash request.activationCode) actor) with
  | .active instanceId =>
    return { status := 200, body := .active instanceId.toText, noStore := true }
  | .notFound => throw (.notFound "pairing request not found")
  | .invalidCode => throw .unauthorized
  | .expired => throw (.badRequest "pairing request or activation code expired")
  | .conflict => throw (.conflict "activation code or pairing request already used")

end

def listHosts (limit offset : Option Int) : Handler Response := do
  let limit := max 1 (min (limit.getD 200) 1000)
  let offset := max (offset.getD 0) 0
  let total ← query .hostCount
  let rows ← query (.hostRows limit offset)
  let now ← perform .now
  return { status := 200, body := .hosts (rows.map (summarize now)) total limit offset }

def hostDetail (id : String) : Handler Response := do
  let id ← validated (canonicalUuid id "host id")
  let row ← okOr (← query (.hostRow id)) (.notFound "monitored host not found")
  let latest ← query (.hostPayload id)
  return { status := 200, body := .host (summarize (← perform .now) row) latest }

def hostHistory (id : String) (fromTime toTime : Option DateTime) (limit : Option Int) :
    Handler Response := do
  let id ← validated (canonicalUuid id "host id")
  ensure ((zip fromTime toTime).all fun (fromTime, toTime) => decide (fromTime ≤ toTime))
    (.badRequest "history from must not be after to")
  ensure ((← query (.hostExists id)) = true) (.notFound "monitored host not found")
  let points ← query (.historyRows id fromTime toTime (max 1 (min (limit.getD 300) 1000)))
  return { status := 200, body := .history id.toText points }

def listInstances : Handler Response := do
  return { status := 200, body := .instances (← query .listInvites) }

def createInstance (principal : String) (displayName : Option String) : Handler Response := do
  checkAdmission (.inviteAccount principal)
  let name ← validated (createClientInstanceRequestValidated displayName)
  match ← mutate (.createInvite name principal) with
  | (.created summary, some activationCode) =>
    return { status := 201, body := .instance summary activationCode, noStore := true }
  | (.created _, none) => panic
  | (.conflict, _) => throw (.conflict "a pending invite already exists")

def cancelInstance (principal id : String) : Handler Response := do
  let id ← validated (canonicalUuid id "client instance request id")
  match ← mutate (.cancelInvite id principal) with
  | .cancelled => return { status := 204 }
  | .notFound => throw (.notFound "client instance invite not found")
  | .notPending => throw (.conflict "only a pending invite can be cancelled")

def updateRemark (principal id remark : String) : Handler Response := do
  let id ← validated (canonicalUuid id "host id")
  let remark ← validated (updateMonitoringRemarkRequestValidated remark)
  ensure ((← mutate (.updateRemark id remark principal)) = true)
    (.notFound "monitored host not found")
  return { status := 204 }

def deleteHost (principal id : String) : Handler Response := do
  let id ← validated (canonicalUuid id "host id")
  ensure ((← mutate (.deleteHost id principal)) = true) (.notFound "monitored host not found")
  return { status := 204 }

section
variable (tokenHash : String → String)

def activateAdmin (principal : String) (peer : IpAddr) (request : ActivateClientRequest) :
    Handler Response := do
  checkAdmission (.inviteAccount principal)
  activate tokenHash peer request principal

def activateCapability (peer : IpAddr) (request : ActivateClientRequest) : Handler Response :=
  activate tokenHash peer request "client-capability"

/-- The routes behind `console_admission`. -/
def console (principal : String) : ConsoleRequest → Handler Response
  | .listHosts limit offset => listHosts limit offset
  | .hostDetail id => hostDetail id
  | .hostHistory id fromTime toTime limit => hostHistory id fromTime toTime limit
  | .listInstances => listInstances
  | .createInstance displayName => createInstance principal displayName
  | .cancelInstance id => cancelInstance principal id
  | .updateRemark id remark => updateRemark principal id remark
  | .deleteHost id => deleteHost principal id
  | .activateAdmin peer request => activateAdmin tokenHash principal peer request

def consoleAdmission (headers : HeaderMap) (request : ConsoleRequest) : Handler Response := do
  match ← perform (.authenticate headers request) with
  | .error response => return response
  | .ok principal => console tokenHash principal request

def route : Request → Handler Response
  | .report headers body => report tokenHash headers body
  | .createPairing peer request => createPairing peer request
  | .pairingPublic peer id => pairingPublic peer id
  | .pairingStatus peer headers id => pairingStatus tokenHash peer headers id
  | .activateCapability peer request => activateCapability tokenHash peer request
  | .console headers request => consoleAdmission tokenHash headers request

def intoResponse : Except Error Response → Response
  | .ok response => response
  | .error e => e.intoResponse

/-- One request of a connection and its response. -/
def handle : Program Call Answer Unit := do
  let request ← Program.ask Call.receive
  let result ← (route tokenHash request).run
  Program.ask (Call.respond (intoResponse result))

end
end HostMonitoring.Server
