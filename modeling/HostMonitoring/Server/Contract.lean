import HostMonitoring.Server.Handlers

namespace HostMonitoring.Server

open HostMonitoring.Framework
open HostMonitoring.Framework.World (History historyContract)
open HostMonitoring.Admission
open HostMonitoring.Model
open HostMonitoring.Protocol
open HostMonitoring.Store
open HostMonitoring.Telemetry (TelemetrySubmitError)

/-- What a connection has asked and been answered so far. -/
abbrev Past := History Call Answer

def Past.Got (h : Past) (o : Call) (a : Answer o) : Prop := ⟨o, a⟩ ∈ h

/-- The result is not what was asked for. -/
def Mutation.Refuses : (m : Mutation) → m.Result → Prop
  | .createInvite .., r => ∀ summary, r.1 ≠ .created summary
  | .cancelInvite .., r => r ≠ .cancelled
  | .createPairing _, r => ∀ requestId expiresAt created, r ≠ .ready requestId expiresAt created
  | .activate .., r => ∀ instanceId, r ≠ .active instanceId
  | .updateRemark .., r => r = false
  | .deleteHost .., r => r = false

/-- The body of a response tells the result. -/
def Mutation.Confirms (body : Body) : (m : Mutation) → m.Result → Prop
  | .createInvite .., r => ∃ summary activationCode,
    r = (.created summary, some activationCode) ∧ body = .instance summary activationCode
  | .cancelInvite .., r => r = .cancelled ∧ body = .empty
  | .createPairing _, r => ∃ requestId expiresAt created expiresIn,
    r = .ready requestId expiresAt created ∧
    body = .pairing requestId.toText (activationUrl requestId) expiresIn 5
  | .activate .., r => ∃ instanceId, r = .active instanceId ∧ body = .active instanceId.toText
  | .updateRemark .., r => r = true ∧ body = .empty
  | .deleteHost .., r => r = true ∧ body = .empty

section
variable (tokenHash : String → String)

structure Activates (h : Past) (peer : IpAddr) (request : ActivateClientRequest) (requestId : Uuid)
    (activationHash : String) : Prop where
  request_id : requestId.toText = request.requestId
  hash : activationHash = tokenHash request.activationCode
  admitted : h.Got (.checkAdmission (.activation peer requestId)) (.ok ())

/-- What a signed-in administrator's request may do to the store. -/
def ConsoleRequest.Permits (h : Past) (principal : String) (request : ConsoleRequest)
    (m : Mutation) : Prop :=
  match request, m with
  | .createInstance displayName, .createInvite name actor => actor = principal ∧
    createClientInstanceRequestValidated displayName = .ok name ∧
    h.Got (.checkAdmission (.inviteAccount principal)) (.ok ())
  | .cancelInstance id, .cancelInvite inviteId actor => actor = principal ∧ inviteId.toText = id
  | .updateRemark id remark, .updateRemark hostId name actor => actor = principal ∧
    hostId.toText = id ∧ updateMonitoringRemarkRequestValidated remark = .ok name
  | .deleteHost id, .deleteHost hostId actor => actor = principal ∧ hostId.toText = id
  | .activateAdmin peer request, .activate requestId activationHash actor => actor = principal ∧
    h.Got (.checkAdmission (.inviteAccount principal)) (.ok ()) ∧
    Activates tokenHash h peer request requestId activationHash
  | _, _ => False

/-- What a request may do to the store, after the checks that lie behind it. -/
def Request.Permits (h : Past) (request : Request) (m : Mutation) : Prop :=
  match request, m with
  | .createPairing peer request, .createPairing request' => request' = request ∧
    validatePairing request = .ok () ∧ h.Got (.checkAdmission (.create peer request.host.id)) (.ok ())
  | .activateCapability peer request, .activate requestId activationHash actor =>
    actor = "client-capability" ∧ Activates tokenHash h peer request requestId activationHash
  | .console headers request, m => ∃ principal,
    h.Got (.authenticate headers request) (.ok principal) ∧
    request.Permits tokenHash h principal m
  | _, _ => False

/-- A report may be queued for the host its credential belongs to. -/
structure Submits (h : Past) (write : ReportWrite) : Prop where
  credential : ∃ headers credential, h.Got .receive (.report headers write.report) ∧
    authorization headers "bearer" = some credential ∧ write.tokenHash = tokenHash credential
  host : ∃ hostId, h.Got (.query (.hostForToken write.tokenHash)) (.ok (some hostId)) ∧
    hostId.toText = write.report.host.id
  valid : ∃ now, h.Got .now now ∧ validateReport now write.report = .ok write.metrics
  allowed : h.Got (.allowReport write.report.host.id) (.ok ())

end

/-- The result of `submit` says that the report was not stored. -/
def notStored : TelemetrySubmitError → Bool
  | .queueFull => true
  | .store _ => true
  | _ => false

/-- Nothing the connection asked for was done. -/
structure Refused (h : Past) : Prop where
  mutations : ∀ m r, h.Got (.mutate m) (.ok r) → m.Refuses r
  reports : ∀ write call, h.Got (.submit write) call →
    ∃ e, notStored e = true ∧ h.Got (.submitted call) (.error e)

def ConsoleRequest.mutates : ConsoleRequest → Bool
  | .createInstance _ => true
  | .cancelInstance _ => true
  | .updateRemark .. => true
  | .deleteHost _ => true
  | .activateAdmin .. => true
  | _ => false

def Request.mutates : Request → Bool
  | .createPairing .. => true
  | .activateCapability .. => true
  | .console _ request => request.mutates
  | _ => false

section
variable (tokenHash : String → String) (reads : (q : Query) → q.Result → Prop) (body : Body)

/-- The body of a page tells what was read for it. -/
def ConsoleRequest.Tells : ConsoleRequest → Prop
  | .listHosts limit offset => ∃ total rows now, reads .hostCount total ∧
    reads (.hostRows (max 1 (min (limit.getD 200) 1000)) (max (offset.getD 0) 0)) rows ∧
    body = .hosts (rows.map (summarize now)) total (max 1 (min (limit.getD 200) 1000))
      (max (offset.getD 0) 0)
  | .hostDetail id => ∃ hostId row latest now, hostId.toText = id ∧
    reads (.hostRow hostId) (some row) ∧ reads (.hostPayload hostId) latest ∧
    body = .host (summarize now row) latest
  | .hostHistory id fromTime toTime limit => ∃ hostId points, hostId.toText = id ∧
    reads (.hostExists hostId) true ∧
    reads (.historyRows hostId fromTime toTime (max 1 (min (limit.getD 300) 1000))) points ∧
    body = .history id points
  | .listInstances => ∃ instances, reads .listInvites instances ∧ body = .instances instances
  | _ => True

/-- The body of a response tells what was read for it. -/
def Request.Tells : Request → Prop
  | .report headers sent => ∃ credential hostId now metrics accepted receivedAt,
    authorization headers "bearer" = some credential ∧
    reads (.hostForToken (tokenHash credential)) (some hostId) ∧ hostId.toText = sent.host.id ∧
    validateReport now sent = .ok metrics ∧
    body = .ack sent.host.id sent.reportId accepted receivedAt
  | .pairingPublic _ id => ∃ requestId summary, requestId.toText = id ∧
    reads (.pairingPublic requestId) (some summary) ∧ body = .pairingPublic summary
  | .pairingStatus _ headers id => ∃ requestId secret status instanceId, requestId.toText = id ∧
    authorization headers "pairing" = some secret ∧
    reads (.pairingStatus requestId (tokenHash secret)) (some (status, instanceId)) ∧
    body = .pairingStatus status instanceId
  | .console _ request => request.Tells reads body
  | _ => True

end

/-- What a connection has read. -/
def Past.Read (h : Past) (q : Query) (r : q.Result) : Prop := h.Got (.query q) (.ok r)

/-- A response tells what was read or done. -/
structure Answered (tokenHash : String → String) (request : Request) (h : Past) (r : Response) :
    Prop where
  refused : 400 ≤ r.status → r.status < 500 → Refused h
  accepted : r.status = 202 → ∃ headers write call result,
    request = .report headers write.report ∧ h.Got (.submit write) call ∧
    h.Got (.submitted call) (.ok result) ∧
    r.body = .ack write.report.host.id write.report.reportId result.1 result.2
  done : r.status < 300 → request.mutates = true → ∃ m a,
    h.Got (.mutate m) (.ok a) ∧ m.Confirms r.body a
  told : r.status < 300 → request.mutates = false → request.Tells tokenHash h.Read r.body

/-- The answers the rest of the server gives: an invite comes with its code, and who is not signed
in is told so by an error. -/
def Possible : (o : Call) → Answer o → Prop
  | .mutate (.createInvite ..), a =>
    ∀ summary activationCode, a = .ok (.created summary, activationCode) → activationCode ≠ none
  | .authenticate .., a => ∀ response, a = .error response → 400 ≤ response.status
  | _, _ => True

/-- Calls that leave the store as it is. -/
def passive : Call → Bool
  | .mutate _ => false
  | .submit _ => false
  | .submitted _ => false
  | .panic => false
  | .respond _ => false
  | _ => true

def Quiet (h : Past) : Prop := ∀ e ∈ h, passive e.1 = true

/-- A connection first receives its one request. It writes to the store once at most, after the
checks the request needs; it answers in accordance with what was done, and it never panics. -/
def Owes (tokenHash : String → String) (o : Call) (h : Past) : Prop :=
  match o with
  | .receive => h = []
  | .mutate m => Quiet h ∧ ∃ request, h.Got .receive request ∧ request.Permits tokenHash h m
  | .submit write => Quiet h ∧ Submits tokenHash h write
  | .submitted call => ∃ write, h.Got (.submit write) call
  | .panic => False
  | .respond r => ∃ request, h.Got .receive request ∧ Answered tokenHash request h r
  | _ => True

def contract (tokenHash : String → String) : Contract Call Answer Past :=
  historyContract (Owes tokenHash) Possible

end HostMonitoring.Server
