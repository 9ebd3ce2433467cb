import HostMonitoring.Data.Text
import HostMonitoring.Protocol.Pairing
import HostMonitoring.Store.Invites

namespace HostMonitoring.Store

open HostMonitoring.Framework
open HostMonitoring.Framework.Tx
open HostMonitoring.Protocol

inductive CreatePairingResult where
  | ready (requestId : Uuid) (expiresAt : DateTime) (created : Bool)
  | expired
  | conflict
  | atCapacity
  | deviceAtCapacity
deriving DecidableEq

def MAX_PENDING : Nat := 4096

def PairingRequest.pendingAt (now : DateTime) (r : PairingRequest) : Bool :=
  decide (r.status = .pending) && DateTime.sqlLt now r.expiresAt

/-- What the cleanup may remove: expired requests and old denials. -/
def PairingRequest.disposable (now deniedCutoff : DateTime) (r : PairingRequest) : Bool :=
  (decide (r.status = .pending) && DateTime.sqlLe r.expiresAt now) ||
    (decide (r.status = .denied) && DateTime.sqlLt r.createdAt deniedCutoff)

/-- `ORDER BY created_at` says nothing of requests of the same time. -/
def createdBefore (ties : Uuid → Nat) (r r' : PairingRequest) : Bool :=
  DateTime.sqlLt r.createdAt r'.createdAt || (DateTime.sqlLe r.createdAt r'.createdAt &&
    decide (ties r.requestId ≤ ties r'.requestId))

/-- The rows one cleanup removes. -/
def victims (ties : Uuid → Nat) (now deniedCutoff : DateTime) (pairings : Table PairingRequest) :
    List PairingRequest :=
  pairings.select (PairingRequest.disposable now deniedCutoff) (createdBefore ties) 512

def cleanup (ties : Uuid → Nat) (now deniedCutoff : DateTime) (pairings : Table PairingRequest) :
    Table PairingRequest :=
  pairings.delete fun r => (victims ties now deniedCutoff pairings).any fun v =>
    decide (v.requestId = r.requestId)

/-- Cleanup keeps some of the rows, among them all that are not disposable. -/
theorem mem_cleanup {ties : Uuid → Nat} (now deniedCutoff : DateTime) (pairings : Table PairingRequest)
    (r : PairingRequest) :
    (r ∈ cleanup ties now deniedCutoff pairings → r ∈ pairings) ∧
    (r ∈ pairings → r.disposable now deniedCutoff = false →
      r ∈ cleanup ties now deniedCutoff pairings) := by
  unfold cleanup
  rw [Table.mem_delete]
  refine ⟨And.left, fun hr hd => ⟨hr, ?_⟩⟩
  rw [List.any_eq_false]
  intro v hv hid
  obtain ⟨hm, hp⟩ := Table.mem_of_mem_select _ _ _ _ _ hv
  rw [pairings.eq_of_clash v r hm hr (Or.inl (of_decide_eq_true hid)), hd] at hp
  cases hp

def PairingRequest.sameRequest (row : PairingRequest) (request : ClientPairingRequest) : Bool :=
  decide (row.requestedHostId.toText = request.host.id) && decide (row.os = trim request.host.os) &&
    decide (row.osVersion = request.host.osVersion) &&
    decide (row.kernelVersion = request.host.kernelVersion) &&
    decide (row.arch = trim request.host.arch) &&
    decide (row.clientVersion = trim request.host.clientVersion) &&
    decide (row.tokenHash = request.tokenHash)

/-- The answer to a request whose polling secret is already known. -/
def answerExisting (row : PairingRequest) (request : ClientPairingRequest) (now : DateTime) :
    CreatePairingResult :=
  if row.sameRequest request = false ∨ row.status = .denied then .conflict
  else if row.expiresAt ≤ now then .expired
  else .ready row.requestId row.expiresAt false

def pendingPairing (request : ClientPairingRequest) (requestId requestedHostId : Uuid)
    (createdAt : DateTime) : PairingRequest where
  requestId
  requestedHostId
  os := trim request.host.os
  osVersion := request.host.osVersion
  kernelVersion := request.host.kernelVersion
  arch := trim request.host.arch
  clientVersion := trim request.host.clientVersion
  tokenHash := request.tokenHash
  pollingSecretHash := request.pollingSecretHash
  expiresAt := createdAt.plusSeconds (15 * 60)
  createdAt

/-- `ON CONFLICT DO NOTHING`: the number of rows written. -/
def insertPairing (row : PairingRequest) (db : Db) : Nat × Db :=
  match db.pairings.insert? row with
  | some pairings => (1, { db with pairings })
  | none => (0, db)

/-- The call reads `now` before its cleanup, or to compare a known request's
expiry, and `createdAt` before it inserts. -/
def createPairing (f : Faults) (request : ClientPairingRequest) (requestId : Uuid)
    (now createdAt : DateTime) : Db → Except StoreError CreatePairingResult × Db :=
  transact f.boundary do
    let existing ← query (f.statement 0) fun db =>
      db.pairings.find? fun r => decide (r.pollingSecretHash = request.pollingSecretHash)
    match existing with
    | some row => return .rollback (.ok (answerExisting row request now))
    | none =>
      execute (f.statement 1) fun db => .ok ((), { db with
        pairings := cleanup f.ties now (now.plusSeconds (-(30 * 86400))) db.pairings })
      let pending ← query (f.statement 2) fun db =>
        db.pairings.count (PairingRequest.pendingAt now)
      if MAX_PENDING ≤ pending then return .commit .atCapacity
      else
        match Uuid.parseStr request.host.id with
        | none => fail .uuid
        | some requestedHostId =>
          let pendingForDevice ← query (f.statement 3) fun db => db.pairings.count fun r =>
            decide (r.requestedHostId = requestedHostId) && r.pendingAt now
          if 4 ≤ pendingForDevice then return .commit .deviceAtCapacity
          else
            let row := pendingPairing request requestId requestedHostId createdAt
            let rowsAffected ← execute (f.statement 4) fun db => .ok (insertPairing row db)
            if rowsAffected ≠ 1 then return .rollback (.ok .conflict)
            else return .commit (.ready requestId row.expiresAt true)

theorem createPairing_cases (f : Faults) (request : ClientPairingRequest) (requestId : Uuid)
    (now createdAt : DateTime) (db db' : Db) (r : Except StoreError CreatePairingResult)
    (h : createPairing f request requestId now createdAt db = (r, db')) :
    (db' = db ∧ ((∃ e, r = .error e) ∨ r = .ok .conflict ∨ ∃ row ∈ db.pairings,
      row.pollingSecretHash = request.pollingSecretHash ∧
      r = .ok (answerExisting row request now))) ∨
    ((∀ row ∈ db.pairings, row.pollingSecretHash ≠ request.pollingSecretHash) ∧
      ∃ cleaned, cleaned = cleanup f.ties now (now.plusSeconds (-(30 * 86400))) db.pairings ∧
        (((r = .ok .atCapacity ∨ r = .ok .deviceAtCapacity) ∧
            db' = { db with pairings := cleaned }) ∨
          ∃ requestedHostId row pairings, Uuid.parseStr request.host.id = some requestedHostId ∧
            row = pendingPairing request requestId requestedHostId createdAt ∧
            cleaned.count (PairingRequest.pendingAt now) < MAX_PENDING ∧
            (cleaned.count fun r =>
              decide (r.requestedHostId = requestedHostId) && r.pendingAt now) < 4 ∧
            cleaned.insert? row = some pairings ∧
            r = .ok (.ready requestId row.expiresAt true) ∧
            db' = { db with pairings })) := by
  obtain ⟨⟨e, rfl⟩, rfl⟩ | ⟨⟨w, hb⟩, rfl⟩ | ⟨a, rfl, hb⟩ := transact_cases _ _ _ _ _ h
  · exact Or.inl ⟨rfl, Or.inl ⟨e, rfl⟩⟩
  · simp only [bind_ok, query_ok] at hb
    obtain ⟨existing, _, ⟨_, hrow, rfl⟩, hb⟩ := hb
    cases existing with
    | some row =>
      obtain ⟨hm, hs⟩ := Table.mem_of_find? _ _ _ hrow.symm
      rw [pure_ok] at hb
      cases hb.1
      exact Or.inl ⟨rfl, Or.inr (Or.inr ⟨row, hm, by simpa using hs, rfl⟩)⟩
    | none =>
      simp only [bind_ok, query_ok] at hb
      obtain ⟨_, _, _, pending, _, _, hb⟩ := hb
      split_ifs at hb with hp
      · rw [pure_ok] at hb
        cases hb.1
      · cases hid : Uuid.parseStr request.host.id with
        | none =>
          rw [hid] at hb
          exact absurd hb (fail_ok _ _ _ _)
        | some requestedHostId =>
          simp only [hid, bind_ok, query_ok] at hb
          obtain ⟨forDevice, _, _, hb⟩ := hb
          split_ifs at hb with hd
          · rw [pure_ok] at hb
            cases hb.1
          · rw [bind_ok] at hb
            obtain ⟨rowsAffected, _, _, hb⟩ := hb
            split_ifs at hb with hrows
            · rw [pure_ok] at hb
              cases hb.1
              exact Or.inl ⟨rfl, Or.inr (Or.inl rfl)⟩
            · rw [pure_ok] at hb
              cases hb.1
  · right
    simp only [bind_ok, query_ok] at hb
    obtain ⟨existing, _, ⟨_, hrow, rfl⟩, hb⟩ := hb
    cases existing with
    | some row =>
      rw [pure_ok] at hb
      cases hb.1
    | none =>
      refine ⟨fun row hm => by simpa using (Table.find?_eq_none _ _).mp hrow.symm row hm, _, rfl, ?_⟩
      simp only [bind_ok, query_ok, execute_ok, Except.ok.injEq, Prod.mk.injEq] at hb
      obtain ⟨_, _, ⟨_, _, rfl⟩, pending, _, ⟨_, rfl, rfl⟩, hb⟩ := hb
      split_ifs at hb with hp
      · rw [pure_ok] at hb
        obtain ⟨ha, rfl⟩ := hb
        cases ha
        exact Or.inl ⟨Or.inl rfl, rfl⟩
      · cases hid : Uuid.parseStr request.host.id with
        | none =>
          rw [hid] at hb
          exact absurd hb (fail_ok _ _ _ _)
        | some requestedHostId =>
          simp only [hid, bind_ok, query_ok] at hb
          obtain ⟨forDevice, _, ⟨_, rfl, rfl⟩, hb⟩ := hb
          split_ifs at hb with hd
          · rw [pure_ok] at hb
            obtain ⟨ha, rfl⟩ := hb
            cases ha
            exact Or.inl ⟨Or.inr rfl, rfl⟩
          · simp only [bind_ok, execute_ok, Except.ok.injEq] at hb
            obtain ⟨rowsAffected, _, ⟨_, hins⟩, hb⟩ := hb
            split_ifs at hb with hrows
            · rw [pure_ok] at hb
              cases hb.1
            · rw [pure_ok] at hb
              obtain ⟨ha, rfl⟩ := hb
              cases ha
              unfold insertPairing at hins
              split at hins
              · rename_i pairings hi
                cases hins
                exact Or.inr ⟨requestedHostId, _, pairings, rfl, rfl, not_le.mp hp, not_le.mp hd,
                  hi, rfl, rfl⟩
              · cases hins
                exact absurd (by decide) hrows

/-- The status a poll of one request sees, and the instance once it is active. -/
def pairingStatus (requestId : Uuid) (secretHash : String) (now : DateTime) (db : Db) :
    Option (PairingStatus × Option String) :=
  (db.pairings.find? fun r =>
      decide (r.requestId = requestId) && decide (r.pollingSecretHash = secretHash)).map fun r =>
    match r.status with
    | .pending => if DateTime.sqlLe r.expiresAt now then (.expired, none) else (.waiting, none)
    | .active => (.active, r.instanceId.map Uuid.toText)
    | .denied => (.denied, none)

inductive ActivateResult where
  | active (instanceId : Uuid)
  | notFound
  | invalidCode
  | expired
  | conflict
deriving DecidableEq

/-- The host an activation registers under the invited instance. -/
def registeredHost (invite : InstanceInvite) (pairing : PairingRequest) (now : DateTime) :
    MonitoredHost where
  hostId := invite.instanceId
  name := invite.displayName
  os := pairing.os
  osVersion := pairing.osVersion
  kernelVersion := pairing.kernelVersion
  arch := pairing.arch
  clientVersion := pairing.clientVersion
  registeredAt := now
  lastSeenAt := now

/-- A credential needs its host. -/
def insertCredential (row : ClientCredential) (db : Db) : Except StoreError (Unit × Db) :=
  if db.hosts.any fun h => decide (h.hostId = row.hostId) then
    orViolation (db.credentials.insert? row) fun credentials => { db with credentials }
  else .error (.sql .foreignKeyViolation)

def bindPairing (inviteId instanceId : Uuid) (now : DateTime) (r : PairingRequest) : PairingRequest :=
  { r with
    status := .active
    inviteId := some inviteId
    instanceId := some instanceId
    activatedAt := some now }

def bindInvite (now : DateTime) (r : InstanceInvite) : InstanceInvite :=
  { r with status := .active, activatedAt := some now }

/-- `activation_hash` stands for the code the client typed; the call reads `now`
only when it is about to write. -/
def activate (f : Faults) (requestId : Uuid) (activationHash actor : String) (credentialId : Uuid)
    (now auditedAt : DateTime) : Db → Except StoreError ActivateResult × Db :=
  transact f.boundary do
    let pairing ← query (f.statement 0) fun db =>
      db.pairings.find? fun r => decide (r.requestId = requestId)
    match pairing with
    | none => return .rollback (.ok .notFound)
    | some pairing =>
      let invite ← query (f.statement 1) fun db =>
        db.invites.find? fun r => decide (r.activationCodeHash = activationHash)
      match invite with
      | none => return .rollback (.ok .invalidCode)
      | some invite =>
        if pairing.status = .active then
          let same := decide (pairing.inviteId = some invite.inviteId) &&
            decide (pairing.instanceId = some invite.instanceId)
          let active ← query (f.statement 2) fun db => db.credentials.any fun c =>
            decide (c.hostId = invite.instanceId) && decide (c.tokenHash = pairing.tokenHash) &&
              c.revokedAt.isNone
          return .rollback (.ok (if same && active then .active invite.instanceId else .conflict))
        else if pairing.status ≠ .pending ∨ invite.status ≠ .pending then
          return .rollback (.ok .conflict)
        else if pairing.expiresAt ≤ now then return .rollback (.ok .expired)
        else
          execute (f.statement 2) fun db =>
            orViolation (db.hosts.insert? (registeredHost invite pairing now))
              fun hosts => { db with hosts }
          execute (f.statement 3) (insertCredential
            { credentialId, hostId := invite.instanceId, tokenHash := pairing.tokenHash,
              issuedAt := now })
          execute (f.statement 4) fun db =>
            orViolation (db.pairings.update? (fun r => decide (r.requestId = requestId))
              (bindPairing invite.inviteId invite.instanceId now)) fun pairings => { db with pairings }
          execute (f.statement 5) fun db =>
            orViolation (db.invites.update? (fun r => decide (r.inviteId = invite.inviteId))
              (bindInvite now)) fun invites => { db with invites }
          audit (f.statement 6) "monitoring.client_instance.activate" invite.instanceId.toText
            (some ("request_id=" ++ requestId.toText ++ "; invite_id=" ++ invite.inviteId.toText))
            actor auditedAt
          return .commit (.active invite.instanceId)

/-- What a first activation writes: a host, its credential, and the two bound rows. -/
structure Activation (pairing : PairingRequest) (invite : InstanceInvite) (requestId : Uuid)
    (activationHash actor : String) (credentialId : Uuid) (now auditedAt : DateTime)
    (db db' : Db) : Prop where
  pairing_mem : pairing ∈ db.pairings
  pairing_id : pairing.requestId = requestId
  pairing_pending : pairing.status = .pending
  unexpired : now < pairing.expiresAt
  invite_mem : invite ∈ db.invites
  invite_code : invite.activationCodeHash = activationHash
  invite_pending : invite.status = .pending
  hosts : db.hosts.insert? (registeredHost invite pairing now) = some db'.hosts
  credentials : db.credentials.insert?
    { credentialId, hostId := invite.instanceId, tokenHash := pairing.tokenHash,
      issuedAt := now } = some db'.credentials
  pairings : db.pairings.update? (fun r => decide (r.requestId = requestId))
    (bindPairing invite.inviteId invite.instanceId now) = some db'.pairings
  invites : db.invites.update? (fun r => decide (r.inviteId = invite.inviteId))
    (bindInvite now) = some db'.invites
  reports : db'.reports = db.reports
  hourly : db'.hourly = db.hourly
  audit : db'.audit = db.audit ++ [⟨"monitoring.client_instance.activate",
    invite.instanceId.toText,
    some ("request_id=" ++ requestId.toText ++ "; invite_id=" ++ invite.inviteId.toText),
    actor, auditedAt⟩]

namespace Activation

variable {pairing : PairingRequest} {invite : InstanceInvite} {requestId : Uuid}
  {activationHash actor : String} {credentialId : Uuid} {now auditedAt : DateTime} {db db' : Db}

theorem mem_pairings (h : Activation pairing invite requestId activationHash actor credentialId now
    auditedAt db db') (p : PairingRequest) :
    p ∈ db'.pairings ↔ p = bindPairing invite.inviteId invite.instanceId now pairing ∨
      (p ∈ db.pairings ∧ p ≠ pairing) := by
  refine Table.mem_update?_one _ _ _ _ pairing p h.pairing_mem (decide_eq_true h.pairing_id) ?_
    h.pairings
  intro r hr hid
  have same : r.requestId = pairing.requestId := (of_decide_eq_true hid).trans h.pairing_id.symm
  exact db.pairings.eq_of_clash r pairing hr h.pairing_mem (Or.inl same)

theorem mem_invites (h : Activation pairing invite requestId activationHash actor credentialId now
    auditedAt db db') (v : InstanceInvite) :
    v ∈ db'.invites ↔ v = bindInvite now invite ∨ (v ∈ db.invites ∧ v ≠ invite) := by
  refine Table.mem_update?_one _ _ _ _ invite v h.invite_mem (decide_eq_true rfl) ?_ h.invites
  intro r hr hid
  exact db.invites.eq_of_clash r invite hr h.invite_mem (Or.inl (of_decide_eq_true hid))

/-- The rows that were active before are neither the pairing nor the invite at hand. -/
theorem keeps_pairing (h : Activation pairing invite requestId activationHash actor credentialId now
    auditedAt db db') (p : PairingRequest) (hp : p ∈ db.pairings) (ha : p.status = .active) :
    p ∈ db'.pairings := by
  refine (h.mem_pairings p).mpr (Or.inr ⟨hp, ?_⟩)
  intro he
  rw [he, h.pairing_pending] at ha
  cases ha

theorem keeps_invite (h : Activation pairing invite requestId activationHash actor credentialId now
    auditedAt db db') (v : InstanceInvite) (hv : v ∈ db.invites) (ha : v.status = .active) :
    v ∈ db'.invites := by
  refine (h.mem_invites v).mpr (Or.inr ⟨hv, ?_⟩)
  intro he
  rw [he, h.invite_pending] at ha
  cases ha

end Activation

/-- A pairing already bound to the invite of the given code, its credential in force. -/
def BoundBy (db : Db) (requestId : Uuid) (activationHash : String) (instanceId : Uuid) : Prop :=
  ∃ pairing ∈ db.pairings, ∃ invite ∈ db.invites, pairing.requestId = requestId ∧
    pairing.status = .active ∧ invite.activationCodeHash = activationHash ∧
    invite.instanceId = instanceId ∧ pairing.inviteId = some invite.inviteId ∧
    pairing.instanceId = some instanceId ∧ ∃ c ∈ db.credentials, c.hostId = instanceId ∧
      c.tokenHash = pairing.tokenHash ∧ c.revokedAt = none

theorem activate_cases (f : Faults) (requestId : Uuid) (activationHash actor : String)
    (credentialId : Uuid) (now auditedAt : DateTime) (db db' : Db)
    (r : Except StoreError ActivateResult)
    (h : activate f requestId activationHash actor credentialId now auditedAt db = (r, db')) :
    (db' = db ∧ ∀ i, r = .ok (.active i) → BoundBy db requestId activationHash i) ∨
    ∃ pairing invite, r = .ok (.active invite.instanceId) ∧
      Activation pairing invite requestId activationHash actor credentialId now auditedAt db db' := by
  obtain ⟨⟨e, rfl⟩, rfl⟩ | ⟨⟨w, hb⟩, rfl⟩ | ⟨a, rfl, hb⟩ := transact_cases _ _ _ _ _ h
  · exact Or.inl ⟨rfl, by simp⟩
  · refine Or.inl ⟨rfl, ?_⟩
    simp only [bind_ok, query_ok] at hb
    obtain ⟨pairing, _, ⟨_, hp, rfl⟩, hb⟩ := hb
    cases pairing with
    | none =>
      rw [pure_ok] at hb
      cases hb.1
      simp
    | some pairing =>
      simp only [bind_ok, query_ok] at hb
      obtain ⟨invite, _, ⟨_, hi, rfl⟩, hb⟩ := hb
      obtain ⟨hpm, hpid⟩ := Table.mem_of_find? _ _ _ hp.symm
      cases invite with
      | none =>
        rw [pure_ok] at hb
        cases hb.1
        simp
      | some invite =>
        obtain ⟨him, hic⟩ := Table.mem_of_find? _ _ _ hi.symm
        simp only at hb
        split_ifs at hb with hactive hpending hexpired
        · simp only [bind_ok, query_ok, pure_ok] at hb
          obtain ⟨active, _, ⟨_, rfl, rfl⟩, hb, _⟩ := hb
          cases hb
          intro i hr
          split_ifs at hr with hsame
          · cases hr
            simp only [Bool.and_eq_true, decide_eq_true_eq, Table.any_eq_true,
              Option.isNone_iff_eq_none] at hsame
            obtain ⟨⟨hinv, hinst⟩, c, hc, ⟨hch, hct⟩, hcr⟩ := hsame
            exact ⟨pairing, hpm, invite, him, of_decide_eq_true hpid, hactive,
              of_decide_eq_true hic, rfl, hinv, hinst, c, hc, hch, hct, hcr⟩
          · cases hr
        · rw [pure_ok] at hb
          cases hb.1
          simp
        · rw [pure_ok] at hb
          cases hb.1
          simp
        · simp only [bind_ok, pure_ok] at hb
          obtain ⟨_, _, _, _, _, _, _, _, _, _, _, _, _, _, _, hb, _⟩ := hb
          cases hb
  · right
    simp only [bind_ok, query_ok] at hb
    obtain ⟨pairing, _, ⟨_, hp, rfl⟩, hb⟩ := hb
    cases pairing with
    | none =>
      rw [pure_ok] at hb
      cases hb.1
    | some pairing =>
      simp only [bind_ok, query_ok] at hb
      obtain ⟨invite, _, ⟨_, hi, rfl⟩, hb⟩ := hb
      obtain ⟨hpm, hpid⟩ := Table.mem_of_find? _ _ _ hp.symm
      cases invite with
      | none =>
        rw [pure_ok] at hb
        cases hb.1
      | some invite =>
        obtain ⟨him, hic⟩ := Table.mem_of_find? _ _ _ hi.symm
        simp only at hb
        split_ifs at hb with hactive hpending hexpired
        · simp only [bind_ok, query_ok, pure_ok] at hb
          obtain ⟨_, _, _, hb, _⟩ := hb
          cases hb
        · rw [pure_ok] at hb
          cases hb.1
        · rw [pure_ok] at hb
          cases hb.1
        · simp only [bind_ok, pure_ok, execute_ok, orViolation_ok, audit_ok] at hb
          obtain ⟨_, _, ⟨_, hosts, hhosts, rfl⟩, _, _, ⟨_, hcred⟩, _, _,
            ⟨_, pairings, hpairings, rfl⟩, _, _, ⟨_, invites, hinvites, rfl⟩, _, _, ⟨_, rfl⟩,
            hb, rfl⟩ := hb
          cases hb
          unfold insertCredential at hcred
          split_ifs at hcred with hfk
          rw [orViolation_ok] at hcred
          obtain ⟨credentials, hcredentials, rfl⟩ := hcred
          simp only [not_or, not_not] at hpending
          exact ⟨pairing, invite, rfl, hpm, of_decide_eq_true hpid, hpending.1, not_le.mp hexpired,
            him, of_decide_eq_true hic, hpending.2, hhosts, hcredentials, hpairings, hinvites,
            rfl, rfl, rfl⟩

/-- The calls that succeed without faults: every statement finds its key free. -/
theorem activate_writes (pairing : PairingRequest) (invite : InstanceInvite) (actor : String)
    (credentialId : Uuid) (now auditedAt : DateTime) (hosts : Table MonitoredHost)
    (credentials : Table ClientCredential) (pairings : Table PairingRequest)
    (invites : Table InstanceInvite) (db : Db) (hp : pairing ∈ db.pairings)
    (hi : invite ∈ db.invites) (pending : pairing.status = .pending)
    (unexpired : now < pairing.expiresAt) (invited : invite.status = .pending)
    (hhosts : db.hosts.insert? (registeredHost invite pairing now) = some hosts)
    (hcredentials : db.credentials.insert?
      { credentialId, hostId := invite.instanceId, tokenHash := pairing.tokenHash,
        issuedAt := now } = some credentials)
    (hpairings : db.pairings.update? (fun r => decide (r.requestId = pairing.requestId))
      (bindPairing invite.inviteId invite.instanceId now) = some pairings)
    (hinvites : db.invites.update? (fun r => decide (r.inviteId = invite.inviteId))
      (bindInvite now) = some invites) :
    activate .none pairing.requestId invite.activationCodeHash actor credentialId now auditedAt db =
      (.ok (.active invite.instanceId), { db with
        hosts, credentials, pairings, invites
        audit := db.audit ++ [⟨"monitoring.client_instance.activate", invite.instanceId.toText,
          some ("request_id=" ++ pairing.requestId.toText ++ "; invite_id=" ++
            invite.inviteId.toText), actor, auditedAt⟩] }) := by
  have findPairing : db.pairings.find? (fun r => decide (r.requestId = pairing.requestId)) =
      some pairing := Table.find?_eq_some _ _ _ hp (decide_eq_true rfl)
    fun r hr hid => db.pairings.eq_of_clash r pairing hr hp (Or.inl (of_decide_eq_true hid))
  have findInvite : db.invites.find?
      (fun r => decide (r.activationCodeHash = invite.activationCodeHash)) = some invite :=
    Table.find?_eq_some _ _ _ hi (decide_eq_true rfl)
      fun r hr hid => db.invites.eq_of_clash r invite hr hi
        (Or.inr (Or.inl (of_decide_eq_true hid)))
  have registered : (hosts.any fun h => decide (h.hostId = invite.instanceId)) = true :=
    (Table.any_eq_true _ _).mpr
      ⟨_, (Table.mem_insert? _ _ _ _ hhosts).mpr (Or.inr rfl), decide_eq_true rfl⟩
  apply transact_commit
  simp only [bind_ok, query_ok]
  refine ⟨_, _, ⟨rfl, rfl, rfl⟩, ?_⟩
  rw [findPairing]
  simp only [bind_ok, query_ok]
  refine ⟨_, _, ⟨rfl, rfl, rfl⟩, ?_⟩
  rw [findInvite]
  simp only [pending, invited, reduceCtorEq, if_false, ne_eq, not_true_eq_false, or_self,
    not_le.mpr unexpired, bind_ok, execute_ok, orViolation_ok, audit_ok, pure_ok]
  refine ⟨(), _, ⟨rfl, hosts, hhosts, rfl⟩, (), { db with hosts, credentials }, ⟨rfl, ?_⟩,
    (), _, ⟨rfl, pairings, hpairings, rfl⟩, (), _, ⟨rfl, invites, hinvites, rfl⟩, (), _, ⟨rfl, rfl⟩,
    trivial, rfl⟩
  unfold insertCredential
  rw [if_pos registered, orViolation_ok]
  exact ⟨credentials, hcredentials, rfl⟩

def hostForToken (tokenHash : String) (db : Db) : Option Uuid :=
  (db.credentials.find? fun c => decide (c.tokenHash = tokenHash) && c.revokedAt.isNone &&
    db.hosts.any fun h => decide (h.hostId = c.hostId) && decide (h.lifecycleStatus = .active)).map
      ClientCredential.hostId

end HostMonitoring.Store
