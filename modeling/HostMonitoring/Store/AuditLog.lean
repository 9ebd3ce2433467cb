import HostMonitoring.Store.PairingBounds

namespace HostMonitoring.Store

open HostMonitoring.Framework
open HostMonitoring.Framework.Tx
open HostMonitoring.Protocol
open HostMonitoring.Retention

/-- What the calls of an administrator are to do when they succeed, with the one
event that says so. -/
inductive Documented (db : Db) : Op → Reply → AuditEvent → Db → Prop where
  | created {f : Faults} {displayName actor : String} {inviteId instanceId : Uuid}
      {activationCode activationHash : String} {createdAt auditedAt : DateTime}
      {invites : Table InstanceInvite} {row : InstanceInvite} {event : AuditEvent}
      (is_row : row = pendingInvite inviteId instanceId activationHash displayName createdAt)
      (insert : db.invites.insert? row = some invites)
      (is_event : event = ⟨"monitoring.client_instance.invite.create", instanceId.toText,
        some ("invite_id=" ++ inviteId.toText), actor, auditedAt⟩) :
      Documented db (.createInvite f displayName actor inviteId instanceId activationCode
        activationHash createdAt auditedAt)
        (.invite (.ok (.created (clientInstance row), some activationCode))) event
        { db with invites, audit := db.audit ++ [event] }
  | cancelled {f : Faults} {inviteId : Uuid} {actor : String} {cancelledAt auditedAt : DateTime}
      {row : InstanceInvite} {invites : Table InstanceInvite} {event : AuditEvent}
      (mem : row ∈ db.invites) (id : row.inviteId = inviteId) (pending : row.status = .pending)
      (update : db.invites.update? (fun r => decide (r.inviteId = inviteId))
        (fun r => { r with status := .cancelled, cancelledAt := some cancelledAt }) = some invites)
      (is_event : event = ⟨"monitoring.client_instance.invite.cancel", row.instanceId.toText,
        some ("invite_id=" ++ inviteId.toText), actor, auditedAt⟩) :
      Documented db (.cancelInvite f inviteId actor cancelledAt auditedAt)
        (.cancel (.ok .cancelled)) event { db with invites, audit := db.audit ++ [event] }
  | activated {f : Faults} {requestId : Uuid} {activationHash actor : String} {credentialId : Uuid}
      {now auditedAt : DateTime} {pairing : PairingRequest} {invite : InstanceInvite} {db' : Db}
      {event : AuditEvent}
      (act : Activation pairing invite requestId activationHash actor credentialId now auditedAt
        db db')
      (is_event : event = ⟨"monitoring.client_instance.activate", invite.instanceId.toText,
        some ("request_id=" ++ requestId.toText ++ "; invite_id=" ++ invite.inviteId.toText),
        actor, auditedAt⟩) :
      Documented db (.activate f requestId activationHash actor credentialId now auditedAt)
        (.activate (.ok (.active invite.instanceId))) event db'
  | renamed {f : Faults} {hostId : Uuid} {remark actor : String} {auditedAt : DateTime}
      {event : AuditEvent} (host : HasHost db hostId)
      (is_event : event =
        ⟨"monitoring.instance.remark.update", hostId.toText, none, actor, auditedAt⟩) :
      Documented db (.updateRemark f hostId remark actor auditedAt) (.changed (.ok true)) event
        { db with
          hosts := db.hosts.modify (fun h => decide (h.hostId = hostId))
            (fun h => { h with name := remark }) fun _ _ => id
          audit := db.audit ++ [event] }
  | deleted {f : Faults} {hostId : Uuid} {actor : String} {auditedAt : DateTime}
      {event : AuditEvent} (host : HasHost db hostId)
      (is_event : event = ⟨"monitoring.instance.delete", hostId.toText,
        some "host, reports, credentials, pairings and invites permanently deleted", actor,
        auditedAt⟩) :
      Documented db (.deleteHost f hostId actor auditedAt) (.changed (.ok true)) event
        (cascadeHost hostId (removeInvites hostId (removePairings hostId
          { db with audit := db.audit ++ [event] })))

theorem Documented.audit {db db' : Db} {op : Op} {reply : Reply} {event : AuditEvent}
    (h : Documented db op reply event db') : db'.audit = db.audit ++ [event] := by
  cases h with
  | created is_row insert is_event => rfl
  | cancelled mem id pending update is_event => rfl
  | activated act is_event => rw [act.audit, is_event]
  | renamed host is_event => rfl
  | deleted host is_event => rfl

/-- Thirty days before. -/
def deniedCutoff (now : DateTime) : DateTime := now.plusSeconds (-(30 * 86400))

/-- The answers of a pairing call after which nothing has changed. -/
def Idle (r : Except StoreError CreatePairingResult) : Prop :=
  (∃ e, r = .error e) ∨ r = .ok .expired ∨ r = .ok .conflict ∨ ∃ id t, r = .ok (.ready id t false)

/-- The `i`th request, of the device with this identifier. -/
def asking (device : String) (i : Nat) : ClientPairingRequest :=
  { laptop with
    host := { laptop.host with id := device }
    tokenHash := s!"token {i}"
    pollingSecretHash := s!"secret {i}" }

def asks (device : String) (i : Nat) (at_ : DateTime) : Op :=
  .createPairing .none (asking device i) ⟨BitVec.ofNat 128 i⟩ at_ at_

end HostMonitoring.Store
