import HostMonitoring.Admission.BucketRuns
import HostMonitoring.Framework.Threads
import HostMonitoring.Server.Requests
import HostMonitoring.Telemetry.Writer

namespace HostMonitoring.Server

open HostMonitoring.Framework
open HostMonitoring.Admission
open HostMonitoring.Protocol
open HostMonitoring.Store
open HostMonitoring.Telemetry (TelemetrySubmitError TelemetryWriterConfig)

/-- The digests of credentials and codes, and of what the admission limits are keyed by. -/
structure Digests (D : Type) where
  tokenHash : String → String
  sha256 : String → D

/-- A reading statement of the store. -/
inductive Query where
  | hostForToken (tokenHash : String)
  | pairingPublic (requestId : Uuid)
  | pairingStatus (requestId : Uuid) (secretHash : String)
  | listInvites
  | hostCount
  | hostRows (limit offset : Int)
  | hostRow (hostId : Uuid)
  | hostPayload (hostId : Uuid)
  | hostExists (hostId : Uuid)
  | historyRows (hostId : Uuid) (fromTime toTime : Option DateTime) (limit : Int)

abbrev Query.Result : Query → Type
  | .hostForToken _ => Option Uuid
  | .pairingPublic _ => Option ClientPairingPublicSummary
  | .pairingStatus .. => Option (PairingStatus × Option String)
  | .listInvites => List ClientInstanceSummary
  | .hostCount => Nat
  | .hostRows .. => List HostRow
  | .hostRow _ => Option HostRow
  | .hostPayload _ => Option ClientReport
  | .hostExists _ => Bool
  | .historyRows .. => List HistoryPoint

/-- What the statement may read when the clock says `now`; `fetch_one` fails where there is no
row. -/
def Query.Reads (now : DateTime) (db : Db) : (q : Query) → q.Result → Prop
  | .hostForToken tokenHash, r => r = Store.hostForToken tokenHash db
  | .pairingPublic requestId, r => r = Store.pairingPublic requestId now db
  | .pairingStatus requestId secretHash, r => r = Store.pairingStatus requestId secretHash now db
  | .listInvites, r => ListsInvites db r
  | .hostCount, r => r = db.hosts.count fun h => decide (h.lifecycleStatus = .active)
  | .hostRows limit offset, r => r = (listedHosts limit offset db).map (Store.hostRow db)
  | .hostRow hostId, r => r = getHostRow hostId db
  | .hostPayload hostId, r => getHostPayload hostId db = some r
  | .hostExists hostId, r => r = db.hosts.any fun h =>
    decide (h.hostId = hostId) && decide (h.lifecycleStatus = .active)
  | .historyRows hostId fromTime toTime limit, r =>
    r = ((limited limit (Store.historyRows hostId fromTime toTime db)).map historyPoint).reverse

/-- A call of the store that may write. -/
inductive Mutation where
  | createInvite (displayName actor : String)
  | cancelInvite (inviteId : Uuid) (actor : String)
  | createPairing (request : ClientPairingRequest)
  | activate (requestId : Uuid) (activationHash actor : String)
  | updateRemark (hostId : Uuid) (remark actor : String)
  | deleteHost (hostId : Uuid) (actor : String)

abbrev Mutation.Result : Mutation → Type
  | .createInvite .. => CreateInviteResult × Option String
  | .cancelInvite .. => CancelInviteResult
  | .createPairing _ => CreatePairingResult
  | .activate .. => ActivateResult
  | .updateRemark .. => Bool
  | .deleteHost .. => Bool

/-- What a call meets: faults, random draws and clock readings. -/
structure Luck where
  faults : Faults
  ids : Uuid × Uuid
  activationCode : String
  now : DateTime
  later : DateTime

def Mutation.perform (tokenHash : String → String) (luck : Luck) :
    (m : Mutation) → Db → Except StoreError m.Result × Db
  | .createInvite displayName actor => Store.createInvite luck.faults displayName actor luck.ids.1
    luck.ids.2 luck.activationCode (tokenHash luck.activationCode) luck.now luck.later
  | .cancelInvite inviteId actor => Store.cancelInvite luck.faults inviteId actor luck.now luck.later
  | .createPairing request => Store.createPairing luck.faults request luck.ids.1 luck.now luck.later
  | .activate requestId activationHash actor =>
    Store.activate luck.faults requestId activationHash actor luck.ids.1 luck.now luck.later
  | .updateRemark hostId remark actor => Store.updateRemark luck.faults hostId remark actor luck.now
  | .deleteHost hostId actor => Store.deleteHost luck.faults hostId actor luck.now

/-- The same call as one of those whose runs the store is about. -/
def Mutation.op (tokenHash : String → String) (luck : Luck) : Mutation → Op
  | .createInvite displayName actor => .createInvite luck.faults displayName actor luck.ids.1
    luck.ids.2 luck.activationCode (tokenHash luck.activationCode) luck.now luck.later
  | .cancelInvite inviteId actor => .cancelInvite luck.faults inviteId actor luck.now luck.later
  | .createPairing request => .createPairing luck.faults request luck.ids.1 luck.now luck.later
  | .activate requestId activationHash actor =>
    .activate luck.faults requestId activationHash actor luck.ids.1 luck.now luck.later
  | .updateRemark hostId remark actor => .updateRemark luck.faults hostId remark actor luck.now
  | .deleteHost hostId actor => .deleteHost luck.faults hostId actor luck.now

theorem Mutation.exec_op (tokenHash : String → String) (luck : Luck) (m : Mutation) (db : Db) :
    ((m.op tokenHash luck).exec db).2 = (m.perform tokenHash luck db).2 := by
  cases m <;> rfl

/-- A limit of the admission control. -/
inductive Check where
  | create (source : IpAddr) (deviceId : String)
  | poll (source : IpAddr) (requestId : Uuid)
  | activation (source : IpAddr) (requestId : Uuid)
  | inviteAccount (accountId : String)

def Check.run {D : Type} [DecidableEq D] (sha256 : String → D) (now : Instant)
    (s : AdmissionState D) : Check → Except RateLimited Unit × AdmissionState D
  | .create source deviceId => s.checkCreate sha256 source deviceId now
  | .poll source requestId => s.checkPoll source requestId now
  | .activation source requestId => s.checkActivation source requestId now
  | .inviteAccount accountId => s.checkInviteAccount sha256 accountId now

/-- What a handler asks of the rest of the server. `receive` and `respond` are its connection;
`submit` starts a call of the telemetry writer and `submitted` waits for it; `panic` ends the
handler. -/
inductive Call where
  | receive
  | authenticate (headers : HeaderMap) (request : ConsoleRequest)
  | now
  | allowReport (hostId : String)
  | checkAdmission (check : Check)
  | query (q : Query)
  | mutate (m : Mutation)
  | submit (write : ReportWrite)
  | submitted (call : Nat)
  | panic
  | respond (response : Response)

abbrev Answer : Call → Type
  | .receive => Request
  | .authenticate .. => Except Response String
  | .now => DateTime
  | .allowReport _ => Except Admission.Duration Unit
  | .checkAdmission _ => Except RateLimited Unit
  | .query q => Except StoreError q.Result
  | .mutate m => Except StoreError m.Result
  | .submit _ => Nat
  | .submitted _ => Except TelemetrySubmitError (Bool × DateTime)
  | .panic => Empty
  | .respond _ => Unit

/-- A connection the server handles. -/
abbrev Connection := Nat

/-- The parts of a server its handlers share. The last four fields record the run: who made each
call of `submit`, who did what to the store, and the checks of reports with the time each bucket
was last changed. No step reads them. -/
structure State (D : Type) where
  telemetry : Telemetry.State
  admission : AdmissionState D
  reportBuckets : BoundedBuckets String
  clock : Instant
  callers : List Connection := []
  ops : List (Option Connection × Op) := []
  reportChecks : List (Connection × Admission.Call String) := []
  lastWrites : String → Option Instant := fun _ => none

namespace State

variable {D : Type}

def db (s : State D) : Db := s.telemetry.db

/-- A call of the store by a connection, or by the retention service. -/
def performed (s : State D) (who : Option Connection) (op : Op) : State D :=
  { s with
    telemetry := { s.telemetry with db := (op.exec s.telemetry.db).2 }
    ops := s.ops ++ [(who, op)] }

/-- A map may iterate in any order each time. -/
structure Reorders (a b : AdmissionState D) : Prop where
  createSources : a.createSources.Reorders b.createSources
  createDevices : a.createDevices.Reorders b.createDevices
  pollSources : a.pollSources.Reorders b.pollSources
  pollRequests : a.pollRequests.Reorders b.pollRequests
  activationSources : a.activationSources.Reorders b.activationSources
  activationRequests : a.activationRequests.Reorders b.activationRequests
  inviteAccounts : a.inviteAccounts.Reorders b.inviteAccounts

/-- The check of a report, under the lock of the buckets `m`. -/
def checked (s : State D) (c : Connection) (hostId : String) (m : BoundedBuckets String)
    (now : Instant) : State D :=
  let (result, buckets) := ReportBuckets.allowAt m hostId now
  { s with
    reportBuckets := buckets
    clock := now
    reportChecks := s.reportChecks ++ [(c, ⟨hostId, now, s.lastWrites hostId, result⟩)]
    lastWrites := s.reportBuckets.writes buckets s.lastWrites now }

end State

/-- The telemetry writer, its shutdown, and the callers that wait for it go on by themselves. -/
def background : Telemetry.Move → Bool
  | .submit _ => false
  | .elsewhere _ => false
  | .caller _ .cancel => false
  | _ => true

/-- What a step of the telemetry writer does to the store. -/
def transacted (s : Telemetry.State) : Telemetry.Move → List Op
  | .writer (.transact boundary receivedAt faults) =>
    match s.writer with
    | .persisting batch =>
      [.storeReportBatch boundary (batch.map fun q => ⟨q.write, receivedAt q, faults q⟩)]
    | _ => []
  | _ => []

/-- The telemetry writer and the retention service work for no connection. -/
def byNobody (ops : List Op) : List (Option Connection × Op) := ops.map (none, ·)

def isRetention : Op → Bool
  | .aggregateRawBatch .. => true
  | .deleteAggregatedRawBatch .. => true
  | .deleteExpiredAggregateBatch .. => true
  | _ => false

section
variable {D : Type} [DecidableEq D] (config : TelemetryWriterConfig) (digests : Digests D)

/-- The clock of the report buckets is read under their lock, so it never goes back there. Who is
not signed in is answered with an error. -/
def Executes (c : Connection) (s : State D) : (o : Call) → Answer o → State D → Prop
  | .receive, _, s' => s' = s
  | .authenticate .., a, s' => s' = s ∧ ∀ response, a = .error response → 400 ≤ response.status
  | .now, _, s' => s' = s
  | .allowReport hostId, a, s' => ∃ m now, s.reportBuckets.Reorders m ∧ s.clock ≤ now ∧
    a = (ReportBuckets.allowAt m hostId now).1 ∧ s' = s.checked c hostId m now
  | .checkAdmission check, a, s' => ∃ m now, State.Reorders s.admission m ∧
    a = (check.run digests.sha256 now m).1 ∧
    s' = { s with admission := (check.run digests.sha256 now m).2 }
  | .query q, a, s' => s' = s ∧ ((∃ e, a = .error e) ∨ ∃ r now, a = .ok r ∧ q.Reads now s.db r)
  | .mutate m, a, s' => ∃ luck, a = (m.perform digests.tokenHash luck s.db).1 ∧
    s' = s.performed (some c) (m.op digests.tokenHash luck)
  | .submit write, a, s' => ∃ telemetry,
    Telemetry.step config s.telemetry (.submit write) = some telemetry ∧
    a = s.telemetry.calls.length ∧ s' = { s with telemetry, callers := s.callers ++ [c] }
  | .submitted i, a, s' => s' = s ∧
    ∃ call, s.telemetry.calls[i]? = some call ∧ call.phase = .returned a
  | .panic, _, _ => False
  | .respond _, _, s' => s' = s

/-- A connection that breaks off drops the call of `submit` it waits for. -/
def server : World Connection Call Answer (State D) where
  exec c o s a s' := Executes config digests c s o a s'
  reap c s s' := ∃ i telemetry, s.callers[i]? = some c ∧
    Telemetry.step config s.telemetry (.caller i .cancel) = some telemetry ∧
    s' = { s with telemetry }
  outside s s' :=
    (∃ move telemetry, background move = true ∧
      Telemetry.step config s.telemetry move = some telemetry ∧
      s' = { s with
        telemetry
        ops := s.ops ++ byNobody (transacted s.telemetry move) }) ∨
    ∃ op, isRetention op = true ∧ s' = s.performed none op

end

/-- A server that starts on a store other runs have left behind. -/
def boot (D : Type) [DecidableEq D] (before : List Op) (clock : Instant) : State D where
  telemetry := { db := store.after before }
  admission := .new .production D
  reportBuckets := ReportBuckets.production
  clock

end HostMonitoring.Server
