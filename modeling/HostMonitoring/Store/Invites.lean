import HostMonitoring.Store.Schema

namespace HostMonitoring.Store

open HostMonitoring.Framework
open HostMonitoring.Framework.Tx

/-- A write that a key may refuse. -/
def orViolation {α : Type} [Keyed α] (t : Option (Table α)) (put : Table α → Db) :
    Except StoreError (Unit × Db) :=
  match t with
  | some t' => .ok ((), put t')
  | none => .error (.sql .uniqueViolation)

theorem orViolation_ok {α : Type} [Keyed α] (t : Option (Table α)) (put : Table α → Db) (u : Unit)
    (db' : Db) : orViolation t put = .ok (u, db') ↔ ∃ t', t = some t' ∧ db' = put t' := by
  cases t with
  | none => simp [orViolation]
  | some t' => simp [orViolation, eq_comm]

def audit (fault : Option StoreError) (action target : String) (detail : Option String)
    (actor : String) (createdAt : DateTime) : Tx Db StoreError Unit :=
  execute fault fun db =>
    .ok ((), { db with audit := db.audit ++ [⟨action, target, detail, actor, createdAt⟩] })

theorem audit_ok (fault : Option StoreError) (action target : String) (detail : Option String)
    (actor : String) (createdAt : DateTime) (u : Unit) (db db' : Db) :
    (audit fault action target detail actor createdAt).run db = (.ok u, db') ↔ fault = none ∧
      db' = { db with audit := db.audit ++ [⟨action, target, detail, actor, createdAt⟩] } := by
  rw [audit, execute_ok]
  simp [eq_comm]

structure ClientInstanceSummary where
  requestId : String
  instanceId : String
  displayName : String
  status : InviteStatus
  createdAt : DateTime

def clientInstance (row : InstanceInvite) : ClientInstanceSummary :=
  ⟨row.inviteId.toText, row.instanceId.toText, row.displayName, row.status, row.createdAt⟩

inductive CreateInviteResult where
  | created (summary : ClientInstanceSummary)
  | conflict

/-- `ON CONFLICT (instance_id) WHERE status='pending' DO NOTHING`: a clash on any
other key is an error. -/
def insertPendingInvite (row : InstanceInvite) (db : Db) :
    Except StoreError (Option InstanceInvite × Db) :=
  match db.invites.insert? row with
  | some invites => .ok (some row, { db with invites })
  | none =>
    if db.invites.any fun r => decide (r.inviteId = row.inviteId) ||
        decide (r.activationCodeHash = row.activationCodeHash) then
      .error (.sql .uniqueViolation)
    else .ok (none, db)

/-- The columns an insertion leaves to their defaults are those of a pending invite. -/
def pendingInvite (inviteId instanceId : Uuid) (activationHash displayName : String)
    (createdAt : DateTime) : InstanceInvite :=
  { inviteId, instanceId, activationCodeHash := activationHash, displayName, createdAt }

/-- The invite, instance and code are drawn at random by the caller, as
`activation_code` and its `token_hash`. -/
def createInvite (f : Faults) (displayName actor : String) (inviteId instanceId : Uuid)
    (activationCode activationHash : String) (createdAt auditedAt : DateTime) :
    Db → Except StoreError (CreateInviteResult × Option String) × Db :=
  transact f.boundary do
    let row ← execute (f.statement 0) (insertPendingInvite
      (pendingInvite inviteId instanceId activationHash displayName createdAt))
    match row with
    | none => return .rollback (.ok (.conflict, none))
    | some row =>
      audit (f.statement 1) "monitoring.client_instance.invite.create" instanceId.toText
        (some ("invite_id=" ++ inviteId.toText)) actor auditedAt
      return .commit (.created (clientInstance row), some activationCode)

theorem createInvite_cases (f : Faults) (displayName actor : String) (inviteId instanceId : Uuid)
    (activationCode activationHash : String) (createdAt auditedAt : DateTime) (db db' : Db)
    (r : Except StoreError (CreateInviteResult × Option String))
    (h : createInvite f displayName actor inviteId instanceId activationCode activationHash
      createdAt auditedAt db = (r, db')) :
    (db' = db ∧ ∀ s c, r ≠ .ok (.created s, c)) ∨
    ∃ row invites,
      row = pendingInvite inviteId instanceId activationHash displayName createdAt ∧
      r = .ok (.created (clientInstance row), some activationCode) ∧
      db.invites.insert? row = some invites ∧
      db' = { db with
        invites
        audit := db.audit ++ [⟨"monitoring.client_instance.invite.create", instanceId.toText,
          some ("invite_id=" ++ inviteId.toText), actor, auditedAt⟩] } := by
  obtain ⟨⟨e, rfl⟩, rfl⟩ | ⟨⟨w, hb⟩, rfl⟩ | ⟨a, rfl, hb⟩ := transact_cases _ _ _ _ _ h
  · exact Or.inl ⟨rfl, by simp⟩
  · simp only [bind_ok] at hb
    obtain ⟨row, s₁, _, hb⟩ := hb
    cases row with
    | none =>
      rw [pure_ok] at hb
      cases hb.1
      exact Or.inl ⟨rfl, by simp⟩
    | some row =>
      simp only [bind_ok, pure_ok] at hb
      obtain ⟨_, _, _, hb, _⟩ := hb
      cases hb
  · simp only [bind_ok, execute_ok] at hb
    obtain ⟨row, s₁, ⟨_, hrow⟩, hb⟩ := hb
    cases row with
    | none =>
      rw [pure_ok] at hb
      cases hb.1
    | some row =>
      simp only [bind_ok, pure_ok, audit_ok] at hb
      obtain ⟨_, _, ⟨_, rfl⟩, hb, rfl⟩ := hb
      cases hb
      unfold insertPendingInvite at hrow
      cases hi : db.invites.insert?
          (pendingInvite inviteId instanceId activationHash displayName createdAt) with
      | none =>
        rw [hi] at hrow
        simp only at hrow
        split_ifs at hrow
        all_goals simp at hrow
      | some invites =>
        rw [hi] at hrow
        simp only [Except.ok.injEq, Prod.mk.injEq, Option.some.injEq] at hrow
        obtain ⟨rfl, rfl⟩ := hrow
        exact Or.inr ⟨_, invites, rfl, rfl, hi, rfl⟩

inductive CancelInviteResult where
  | cancelled
  | notFound
  | notPending
deriving DecidableEq

def cancelInvite (f : Faults) (inviteId : Uuid) (actor : String) (cancelledAt auditedAt : DateTime) :
    Db → Except StoreError CancelInviteResult × Db :=
  transact f.boundary do
    let row ← query (f.statement 0) fun db => db.invites.find? fun r => decide (r.inviteId = inviteId)
    match row with
    | none => return .rollback (.ok .notFound)
    | some row =>
      if row.status ≠ .pending then return .rollback (.ok .notPending)
      else do
        execute (f.statement 1) fun db =>
          orViolation (db.invites.update? (fun r => decide (r.inviteId = inviteId))
            fun r => { r with status := .cancelled, cancelledAt := some cancelledAt })
            fun invites => { db with invites }
        audit (f.statement 2) "monitoring.client_instance.invite.cancel" row.instanceId.toText
          (some ("invite_id=" ++ inviteId.toText)) actor auditedAt
        return .commit .cancelled

/-- Cancelling replaces the one row of that invite. -/
theorem mem_cancelled (invites invites' : Table InstanceInvite) (inviteId : Uuid)
    (cancelledAt : DateTime) (row : InstanceInvite) (hm : row ∈ invites)
    (hid : row.inviteId = inviteId)
    (h : invites.update? (fun r => decide (r.inviteId = inviteId))
      (fun r => { r with status := .cancelled, cancelledAt := some cancelledAt }) = some invites')
    (v : InstanceInvite) :
    v ∈ invites' ↔ v = { row with status := .cancelled, cancelledAt := some cancelledAt } ∨
      (v ∈ invites ∧ v ≠ row) := by
  refine Table.mem_update?_one _ _ _ _ row v hm (decide_eq_true hid) ?_ h
  intro r hr hrid
  have same : r.inviteId = row.inviteId := (of_decide_eq_true hrid).trans hid.symm
  exact invites.eq_of_clash r row hr hm (Or.inl same)

theorem cancelInvite_cases (f : Faults) (inviteId : Uuid) (actor : String)
    (cancelledAt auditedAt : DateTime) (db db' : Db) (r : Except StoreError CancelInviteResult)
    (h : cancelInvite f inviteId actor cancelledAt auditedAt db = (r, db')) :
    (db' = db ∧ r ≠ .ok .cancelled ∧
      (r = .ok .notFound → ∀ row ∈ db.invites, row.inviteId ≠ inviteId) ∧
      (r = .ok .notPending → ∃ row ∈ db.invites, row.inviteId = inviteId ∧ row.status ≠ .pending)) ∨
    ∃ row invites, row ∈ db.invites ∧ row.inviteId = inviteId ∧ row.status = .pending ∧
      r = .ok .cancelled ∧
      db.invites.update? (fun r => decide (r.inviteId = inviteId))
        (fun r => { r with status := .cancelled, cancelledAt := some cancelledAt }) = some invites ∧
      db' = { db with
        invites
        audit := db.audit ++ [⟨"monitoring.client_instance.invite.cancel", row.instanceId.toText,
          some ("invite_id=" ++ inviteId.toText), actor, auditedAt⟩] } := by
  obtain ⟨⟨e, rfl⟩, rfl⟩ | ⟨⟨w, hb⟩, rfl⟩ | ⟨a, rfl, hb⟩ := transact_cases _ _ _ _ _ h
  · exact Or.inl ⟨rfl, by simp⟩
  · simp only [bind_ok, query_ok] at hb
    obtain ⟨found, _, ⟨_, hrow, rfl⟩, hb⟩ := hb
    cases found with
    | none =>
      rw [pure_ok] at hb
      cases hb.1
      refine Or.inl ⟨rfl, by simp, fun _ => ?_, by simp⟩
      intro row hm
      simpa using (Table.find?_eq_none _ _).mp hrow.symm row hm
    | some row =>
      obtain ⟨hm, hi⟩ := Table.mem_of_find? _ _ _ hrow.symm
      simp only at hb
      split_ifs at hb with hp
      · rw [pure_ok] at hb
        cases hb.1
        exact Or.inl ⟨rfl, by simp, by simp, fun _ => ⟨row, hm, by simpa using hi, hp⟩⟩
      · simp only [bind_ok, pure_ok] at hb
        obtain ⟨_, _, _, _, _, _, hb, _⟩ := hb
        cases hb
  · simp only [bind_ok, query_ok] at hb
    obtain ⟨found, _, ⟨_, hrow, rfl⟩, hb⟩ := hb
    cases found with
    | none =>
      rw [pure_ok] at hb
      cases hb.1
    | some row =>
      obtain ⟨hm, hi⟩ := Table.mem_of_find? _ _ _ hrow.symm
      simp only at hb
      split_ifs at hb with hp
      · rw [pure_ok] at hb
        cases hb.1
      · simp only [bind_ok, pure_ok, execute_ok, orViolation_ok, audit_ok] at hb
        obtain ⟨_, _, ⟨_, invites, hu, rfl⟩, _, _, ⟨_, rfl⟩, hb, rfl⟩ := hb
        cases hb
        exact Or.inr ⟨row, invites, hm, by simpa using hi, not_not.mp hp, rfl, hu, rfl⟩

end HostMonitoring.Store
