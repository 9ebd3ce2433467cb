import HostMonitoring.Store.System

namespace HostMonitoring.Store

open HostMonitoring.Framework
open HostMonitoring.Framework.Tx
open HostMonitoring.Protocol
open HostMonitoring.Retention

def MonitoredHost.identity (h : MonitoredHost) : Uuid × LifecycleStatus :=
  (h.hostId, h.lifecycleStatus)

def ClientCredential.identity (c : ClientCredential) : Uuid × Uuid × String × Option DateTime :=
  (c.credentialId, c.hostId, c.tokenHash, c.revokedAt)

def HasHost (db : Db) (hostId : Uuid) : Prop := ∃ h ∈ db.hosts, h.hostId = hostId

/-- A change that adds and removes no host, credential, invite or pairing, and
leaves report and hourly rows only for hosts that had some or exist. -/
structure ColumnsOnly (db db' : Db) : Prop where
  hosts : db'.hosts.rows.map MonitoredHost.identity = db.hosts.rows.map MonitoredHost.identity
  credentials : db'.credentials.rows.map ClientCredential.identity =
    db.credentials.rows.map ClientCredential.identity
  invites : db'.invites = db.invites
  pairings : db'.pairings = db.pairings
  reports : ∀ r ∈ db'.reports, (∃ r₀ ∈ db.reports, r₀.hostId = r.hostId) ∨ HasHost db r.hostId
  hourly : ∀ r ∈ db'.hourly, (∃ r₀ ∈ db.hourly, r₀.hostId = r.hostId) ∨ HasHost db r.hostId

namespace ColumnsOnly

theorem refl (db : Db) : ColumnsOnly db db :=
  ⟨rfl, rfl, rfl, rfl, fun r hr => Or.inl ⟨r, hr, rfl⟩, fun r hr => Or.inl ⟨r, hr, rfl⟩⟩

theorem hasHost {db db' : Db} (h : ColumnsOnly db db') (hostId : Uuid) :
    HasHost db' hostId ↔ HasHost db hostId := by
  constructor
  · rintro ⟨host, hm, rfl⟩
    obtain ⟨host₀, hm₀, he⟩ := Table.mem_of_map_eq _ _ _ h.hosts host hm
    exact ⟨host₀, hm₀, congrArg Prod.fst he⟩
  · rintro ⟨host, hm, rfl⟩
    obtain ⟨host₀, hm₀, he⟩ := Table.mem_of_map_eq _ _ _ h.hosts.symm host hm
    exact ⟨host₀, hm₀, congrArg Prod.fst he⟩

theorem trans {db₁ db₂ db₃ : Db} (h : ColumnsOnly db₁ db₂) (h' : ColumnsOnly db₂ db₃) :
    ColumnsOnly db₁ db₃ where
  hosts := h'.hosts.trans h.hosts
  credentials := h'.credentials.trans h.credentials
  invites := h'.invites.trans h.invites
  pairings := h'.pairings.trans h.pairings
  reports r hr := by
    obtain ⟨r₁, hr₁, he⟩ | hh := h'.reports r hr
    · rw [← he]
      exact h.reports r₁ hr₁
    · exact Or.inr ((h.hasHost _).mp hh)
  hourly r hr := by
    obtain ⟨r₁, hr₁, he⟩ | hh := h'.hourly r hr
    · rw [← he]
      exact h.hourly r₁ hr₁
    · exact Or.inr ((h.hasHost _).mp hh)

end ColumnsOnly

theorem accepted_columns {write : ReportWrite} {receivedAt : DateTime} {hostId reportId : Uuid}
    {host : MonitoredHost} {inserted : Table MetricReport} {db db' : Db}
    (auth : Authorized write hostId reportId host db)
    (acc : Accepted write receivedAt hostId reportId host inserted db db') : ColumnsOnly db db' where
  hosts := by
    rw [acc.hosts]
    split_ifs
    · exact Table.updated_map _ _ _ _ fun _ => rfl
    · rfl
  credentials := by
    rw [acc.credentials]
    exact Table.updated_map _ _ _ _ fun _ => rfl
  invites := acc.invites
  pairings := acc.pairings
  reports := by
    have ins : ∀ r ∈ inserted, (∃ r₀ ∈ db.reports, r₀.hostId = r.hostId) ∨ HasHost db r.hostId := by
      intro r hr
      obtain hr | rfl := (Table.mem_insert? _ _ _ _ acc.row).mp hr
      · exact Or.inl ⟨r, hr, rfl⟩
      · exact Or.inr ⟨host, auth.mem, auth.is_host⟩
    intro r hr
    rw [acc.reports] at hr
    split_ifs at hr
    · unfold dropPayload at hr
      split at hr
      · obtain ⟨r₀, hr₀, _, rfl⟩ | ⟨hr, _⟩ := (mem_clearPayload _ _ _).mp hr
        · exact ins r₀ hr₀
        · exact ins r hr
      · exact ins r hr
    · exact ins r hr
  hourly r hr := by
    rw [acc.hourly] at hr
    exact Or.inl ⟨r, hr, rfl⟩

theorem storeReport_columns (f : Faults) (write : ReportWrite) (receivedAt : DateTime) (db : Db) :
    ColumnsOnly db (storeReport f write receivedAt db).2 := by
  obtain ⟨he, _⟩ | ⟨_, hostId, reportId, host, inserted, auth, acc⟩ :=
    storeReport_cases f write receivedAt db _ _ Prod.mk.eta.symm
  · rw [he]
    exact .refl db
  · exact accepted_columns auth acc

theorem storeReportBatch_columns (boundary : Boundary StoreError) (reports : List BatchItem)
    (db : Db) : ColumnsOnly db (storeReportBatch boundary reports db).2 := by
  obtain ⟨_, he⟩ | ⟨results, _, _, separate⟩ :=
    storeReportBatch_cases boundary reports db _ _ Prod.mk.eta.symm
  · rw [he]
    exact .refl db
  · rw [← congrArg Prod.snd separate]
    exact oneByOne_preserves (ColumnsOnly db) storeSeparately
      (fun item s h => h.trans (storeReport_columns _ _ _ s)) reports db (.refl db)

theorem upsertHourly_hosts (aggregate : HourlyAggregate) (now : DateTime) (db db' : Db) (u : Unit)
    (h : upsertHourly aggregate now db = .ok (u, db')) (row : HourlyRow) (hr : row ∈ db'.hourly) :
    (∃ r₀ ∈ db.hourly, r₀.hostId = row.hostId) ∨ HasHost db row.hostId := by
  unfold upsertHourly at h
  have hc : HourlyRow.admissible { aggregate with updatedAt := now } ≠ false := by
    intro hc
    simp [hc] at h
  simp only [if_neg hc] at h
  cases hf : hourlyAt aggregate.key db.hourly with
  | some current =>
    rw [hf] at h
    simp only at h
    split_ifs at h with hm
    simp only [Except.ok.injEq, Prod.mk.injEq] at h
    obtain ⟨_, rfl⟩ := h
    obtain ⟨r₀, hr₀, _, rfl⟩ | ⟨hr, _⟩ := (mem_mergeInto _ _ _).mp hr
    · exact Or.inl ⟨r₀, hr₀, rfl⟩
    · exact Or.inl ⟨row, hr, rfl⟩
  | none =>
    rw [hf] at h
    simp only at h
    split_ifs at h with hfk
    obtain ⟨hourly, hi, rfl⟩ := (orViolation_ok _ _ _ _).mp h
    obtain hr | rfl := (Table.mem_insert? _ _ _ _ hi).mp hr
    · exact Or.inl ⟨row, hr, rfl⟩
    · obtain ⟨host, hm, hid⟩ := (Table.any_eq_true _ _).mp hfk
      exact Or.inr ⟨host, hm, of_decide_eq_true hid⟩

theorem upsertAll_hosts (fault : Nat → Option StoreError) (now : DateTime)
    (aggregates : List HourlyAggregate) (i : Nat) (u : Unit) (db db' : Db)
    (h : (upsertAll fault now aggregates i).run db = (.ok u, db')) (row : HourlyRow)
    (hr : row ∈ db'.hourly) :
    (∃ r₀ ∈ db.hourly, r₀.hostId = row.hostId) ∨ HasHost db row.hostId := by
  induction aggregates generalizing i db with
  | nil =>
    rw [upsertAll, pure_ok] at h
    rw [h.2] at hr
    exact Or.inl ⟨row, hr, rfl⟩
  | cons a aggregates ih =>
    rw [upsertAll, bind_ok] at h
    obtain ⟨_, db₁, ha, h⟩ := h
    rw [execute_ok] at ha
    obtain ⟨r₁, hr₁, he⟩ | hh := ih (i + 1) db₁ h
    · rw [← he]
      exact upsertHourly_hosts _ _ _ _ _ ha.2 r₁ hr₁
    · rw [(upsertHourly_ok _ _ _ _ _ ha.2).1] at hh
      exact Or.inr hh

theorem aggregateRawBatch_columns (f : Faults) (cutoff now : DateTime) (batchSize : Nat) (db : Db) :
    ColumnsOnly db (aggregateRawBatch f cutoff now batchSize db).2 := by
  obtain ⟨he, _⟩ | ⟨reports, hourly, _, _, _, ⟨i, u, db₁, hu, rfl⟩, he⟩ :=
    aggregateRawBatch_cases f cutoff now batchSize db _ _ Prod.mk.eta.symm
  · rw [he]
    exact .refl db
  · rw [he]
    refine ⟨rfl, rfl, rfl, rfl, ?_, ?_⟩
    · intro r hr
      obtain ⟨r₀, hr₀, _, rfl⟩ | ⟨hr, _⟩ := (mem_markAggregated _ _ _ _).mp hr
      · exact Or.inl ⟨r₀, hr₀, rfl⟩
      · exact Or.inl ⟨r, hr, rfl⟩
    · exact fun r hr => upsertAll_hosts _ _ _ _ _ _ _ hu r hr

theorem deleteAggregatedRawBatch_columns (f : Faults) (batchSize : Nat) (db : Db) :
    ColumnsOnly db (deleteAggregatedRawBatch f batchSize db).2 := by
  obtain he | he := deleteAggregatedRawBatch_cases f batchSize db _ _ Prod.mk.eta.symm
  · rw [he]
    exact .refl db
  · rw [he]
    refine ⟨rfl, rfl, rfl, rfl, ?_, fun r hr => Or.inl ⟨r, hr, rfl⟩⟩
    exact fun r hr => Or.inl ⟨r, ((Table.mem_delete _ _ _).mp hr).1, rfl⟩

theorem deleteExpiredAggregateBatch_columns (f : Faults) (cutoff : DateTime) (batchSize : Nat)
    (db : Db) : ColumnsOnly db (deleteExpiredAggregateBatch f cutoff batchSize db).2 := by
  obtain he | he := deleteExpiredAggregateBatch_cases f cutoff batchSize db _ _ Prod.mk.eta.symm
  · rw [he]
    exact .refl db
  · rw [he]
    refine ⟨rfl, rfl, rfl, rfl, fun r hr => Or.inl ⟨r, hr, rfl⟩, ?_⟩
    exact fun r hr => Or.inl ⟨r, ((Table.mem_delete _ _ _).mp hr).1, rfl⟩

/-- The calls that only invite, and ask for pairing. -/
def Op.Enrolls : Op → Prop
  | .createInvite _ _ _ _ _ _ _ _ _ => True
  | .cancelInvite _ _ _ _ _ => True
  | .createPairing _ _ _ _ _ => True
  | _ => False

/-- They leave hosts, reports and hourly rows alone. -/
theorem enrolls_frame (op : Op) (h : op.Enrolls) (db : Db) :
    (op.exec db).2.hosts = db.hosts ∧ (op.exec db).2.reports = db.reports ∧
      (op.exec db).2.hourly = db.hourly := by
  cases op with
  | createInvite f displayName actor inviteId instanceId activationCode activationHash createdAt
      auditedAt =>
    obtain ⟨he, _⟩ | ⟨_, _, _, _, _, he⟩ := createInvite_cases f displayName actor inviteId
      instanceId activationCode activationHash createdAt auditedAt db _ _ Prod.mk.eta.symm
    · exact ⟨(congrArg Db.hosts he :), (congrArg Db.reports he :), (congrArg Db.hourly he :)⟩
    · exact ⟨(congrArg Db.hosts he :), (congrArg Db.reports he :), (congrArg Db.hourly he :)⟩
  | cancelInvite f inviteId actor cancelledAt auditedAt =>
    obtain ⟨he, _⟩ | ⟨_, _, _, _, _, _, _, he⟩ := cancelInvite_cases f inviteId actor cancelledAt
      auditedAt db _ _ Prod.mk.eta.symm
    · exact ⟨(congrArg Db.hosts he :), (congrArg Db.reports he :), (congrArg Db.hourly he :)⟩
    · exact ⟨(congrArg Db.hosts he :), (congrArg Db.reports he :), (congrArg Db.hourly he :)⟩
  | createPairing f request requestId now createdAt =>
    obtain ⟨he, _⟩ | ⟨_, _, _, ⟨_, he⟩ | ⟨_, _, _, _, _, _, _, _, _, he⟩⟩ := createPairing_cases f
      request requestId now createdAt db _ _ Prod.mk.eta.symm
    · exact ⟨(congrArg Db.hosts he :), (congrArg Db.reports he :), (congrArg Db.hourly he :)⟩
    · exact ⟨(congrArg Db.hosts he :), (congrArg Db.reports he :), (congrArg Db.hourly he :)⟩
    · exact ⟨(congrArg Db.hosts he :), (congrArg Db.reports he :), (congrArg Db.hourly he :)⟩
  | _ => exact absurd h id

/-- Everything one call can do to the tables that say who is who. -/
inductive Change (db : Db) : Op → Db → Prop where
  | columns {op : Op} {db' : Db} (h : ColumnsOnly db db') : Change db op db'
  | invited {f : Faults} {displayName actor : String} {inviteId instanceId : Uuid}
      {activationCode activationHash : String} {createdAt auditedAt : DateTime}
      {invites : Table InstanceInvite} {audit : List AuditEvent}
      (h : db.invites.insert? (pendingInvite inviteId instanceId activationHash displayName
        createdAt) = some invites) :
      Change db (.createInvite f displayName actor inviteId instanceId activationCode activationHash
        createdAt auditedAt) { db with invites, audit }
  | cancelled {f : Faults} {inviteId : Uuid} {actor : String} {cancelledAt auditedAt : DateTime}
      {row : InstanceInvite} {invites : Table InstanceInvite} {audit : List AuditEvent}
      (mem : row ∈ db.invites) (id : row.inviteId = inviteId) (pending : row.status = .pending)
      (h : db.invites.update? (fun r => decide (r.inviteId = inviteId))
        (fun r => { r with status := .cancelled, cancelledAt := some cancelledAt }) = some invites) :
      Change db (.cancelInvite f inviteId actor cancelledAt auditedAt) { db with invites, audit }
  | cleaned {f : Faults} {request : ClientPairingRequest} {requestId : Uuid}
      {now createdAt : DateTime} :
      Change db (.createPairing f request requestId now createdAt)
        { db with pairings := cleanup f.ties now (now.plusSeconds (-(30 * 86400))) db.pairings }
  | requested {f : Faults} {request : ClientPairingRequest} {requestId requestedHostId : Uuid}
      {now createdAt : DateTime} {pairings : Table PairingRequest}
      (h : (cleanup f.ties now (now.plusSeconds (-(30 * 86400))) db.pairings).insert?
        (pendingPairing request requestId requestedHostId createdAt) = some pairings) :
      Change db (.createPairing f request requestId now createdAt) { db with pairings }
  | activated {f : Faults} {requestId : Uuid} {activationHash actor : String} {credentialId : Uuid}
      {now auditedAt : DateTime} {pairing : PairingRequest} {invite : InstanceInvite} {db' : Db}
      (h : Activation pairing invite requestId activationHash actor credentialId now auditedAt
        db db') :
      Change db (.activate f requestId activationHash actor credentialId now auditedAt) db'
  | deleted {f : Faults} {hostId : Uuid} {actor : String} {auditedAt : DateTime}
      {audit : List AuditEvent} (h : HasHost db hostId) :
      Change db (.deleteHost f hostId actor auditedAt)
        (cascadeHost hostId (removeInvites hostId (removePairings hostId { db with audit })))

theorem exec_change (op : Op) (db : Db) : Change db op (op.exec db).2 := by
  cases op with
  | createInvite f displayName actor inviteId instanceId activationCode activationHash createdAt
      auditedAt =>
    change Change db _ (createInvite _ _ _ _ _ _ _ _ _ db).2
    obtain ⟨he, _⟩ | ⟨row, invites, rfl, _, hi, he⟩ :=
      createInvite_cases f displayName actor inviteId instanceId activationCode activationHash
        createdAt auditedAt db _ _ Prod.mk.eta.symm
    · exact .columns (by rw [he]; exact .refl db)
    · exact he ▸ .invited hi
  | cancelInvite f inviteId actor cancelledAt auditedAt =>
    change Change db _ (cancelInvite _ _ _ _ _ db).2
    obtain ⟨he, _⟩ | ⟨row, invites, hm, hid, hp, _, hu, he⟩ :=
      cancelInvite_cases f inviteId actor cancelledAt auditedAt db _ _ Prod.mk.eta.symm
    · exact .columns (by rw [he]; exact .refl db)
    · exact he ▸ .cancelled hm hid hp hu
  | createPairing f request requestId now createdAt =>
    change Change db _ (createPairing _ _ _ _ _ db).2
    obtain ⟨he, _⟩ | ⟨_, cleaned, rfl, ⟨_, he⟩ | ⟨host, row, pairings, _, rfl, _, _, hi, _, he⟩⟩ :=
      createPairing_cases f request requestId now createdAt db _ _ Prod.mk.eta.symm
    · exact .columns (by rw [he]; exact .refl db)
    · exact he ▸ .cleaned
    · exact he ▸ .requested hi
  | activate f requestId activationHash actor credentialId now auditedAt =>
    change Change db _ (activate _ _ _ _ _ _ _ db).2
    obtain ⟨he, _⟩ | ⟨pairing, invite, _, ha⟩ :=
      activate_cases f requestId activationHash actor credentialId now auditedAt db _ _
        Prod.mk.eta.symm
    · exact .columns (by rw [he]; exact .refl db)
    · exact .activated ha
  | storeReport f write receivedAt => exact .columns (storeReport_columns f write receivedAt db)
  | storeReportBatch boundary reports =>
    exact .columns (storeReportBatch_columns boundary reports db)
  | updateRemark f hostId remark actor auditedAt =>
    change Change db _ (updateRemark _ _ _ _ _ db).2
    obtain ⟨he, _⟩ | ⟨_, _, he⟩ :=
      updateRemark_cases f hostId remark actor auditedAt db _ _ Prod.mk.eta.symm
    · exact .columns (by rw [he]; exact .refl db)
    · refine .columns (he ▸ ⟨Table.updated_map _ _ _ _ fun _ => rfl, rfl, rfl, rfl, ?_, ?_⟩)
      · exact fun r hr => Or.inl ⟨r, hr, rfl⟩
      · exact fun r hr => Or.inl ⟨r, hr, rfl⟩
  | deleteHost f hostId actor auditedAt =>
    change Change db _ (deleteHost _ _ _ _ db).2
    obtain ⟨he, _⟩ | ⟨_, hh, he⟩ :=
      deleteHost_cases f hostId actor auditedAt db _ _ Prod.mk.eta.symm
    · exact .columns (by rw [he]; exact .refl db)
    · exact he ▸ .deleted hh
  | aggregateRawBatch f cutoff now batchSize =>
    exact .columns (aggregateRawBatch_columns f cutoff now batchSize db)
  | deleteAggregatedRawBatch f batchSize =>
    exact .columns (deleteAggregatedRawBatch_columns f batchSize db)
  | deleteExpiredAggregateBatch f cutoff batchSize =>
    exact .columns (deleteExpiredAggregateBatch_columns f cutoff batchSize db)

namespace Change

variable {db db' : Db} {op : Op}

/-- An invite was there with the same identifiers, settled ones unchanged, or the call drew it. -/
theorem invite_origin (h : Change db op db') (v : InstanceInvite) (hv : v ∈ db'.invites) :
    (∃ v₀ ∈ db.invites, v₀.inviteId = v.inviteId ∧ v₀.instanceId = v.instanceId ∧
      v₀.activationCodeHash = v.activationCodeHash ∧ (v₀.status ≠ .pending → v₀ = v)) ∨
    (v.instanceId ∈ op.uuids ∧ v.activationCodeHash ∈ op.codes) := by
  have same (hv : v ∈ db.invites) : ∃ v₀ ∈ db.invites, v₀.inviteId = v.inviteId ∧
      v₀.instanceId = v.instanceId ∧ v₀.activationCodeHash = v.activationCodeHash ∧
      (v₀.status ≠ .pending → v₀ = v) := ⟨v, hv, rfl, rfl, rfl, fun _ => rfl⟩
  cases h with
  | columns h => exact Or.inl (same (h.invites ▸ hv))
  | invited h =>
    obtain hv | rfl := (Table.mem_insert? _ _ _ _ h).mp hv
    · exact Or.inl (same hv)
    · exact Or.inr (by simp [Op.uuids, Op.codes, pendingInvite])
  | cancelled mem id pending h =>
    obtain rfl | ⟨hv, _⟩ := (mem_cancelled _ _ _ _ _ mem id h v).mp hv
    · exact Or.inl ⟨_, mem, rfl, rfl, rfl, fun settled => absurd pending settled⟩
    · exact Or.inl (same hv)
  | cleaned => exact Or.inl (same hv)
  | requested h => exact Or.inl (same hv)
  | activated h =>
    obtain rfl | ⟨hv, _⟩ := (h.mem_invites v).mp hv
    · exact Or.inl ⟨_, h.invite_mem, rfl, rfl, rfl, fun settled => absurd h.invite_pending settled⟩
    · exact Or.inl (same hv)
  | deleted h => exact Or.inl (same ((Table.mem_delete _ _ _).mp hv).1)

/-- A pairing was there under the same identifier, or the call drew it; it names
the instance it named before, none, or that of an invite. -/
theorem pairing_origin (h : Change db op db') (p : PairingRequest) (hp : p ∈ db'.pairings) :
    ((∃ p₀ ∈ db.pairings, p₀.requestId = p.requestId) ∨ p.requestId ∈ op.uuids) ∧
    ∀ i, p.instanceId = some i → (∃ p₀ ∈ db.pairings, p₀.instanceId = some i) ∨
      ∃ v ∈ db.invites, v.instanceId = i := by
  have same (hp : p ∈ db.pairings) : ((∃ p₀ ∈ db.pairings, p₀.requestId = p.requestId) ∨
      p.requestId ∈ op.uuids) ∧ ∀ i, p.instanceId = some i →
        (∃ p₀ ∈ db.pairings, p₀.instanceId = some i) ∨ ∃ v ∈ db.invites, v.instanceId = i :=
    ⟨Or.inl ⟨p, hp, rfl⟩, fun i hi => Or.inl ⟨p, hp, hi⟩⟩
  cases h with
  | columns h => exact same (h.pairings ▸ hp)
  | invited h => exact same hp
  | cancelled mem id pending h => exact same hp
  | cleaned => exact same ((mem_cleanup _ _ _ _).1 hp)
  | requested h =>
    obtain hp | rfl := (Table.mem_insert? _ _ _ _ h).mp hp
    · exact same ((mem_cleanup _ _ _ _).1 hp)
    · refine ⟨Or.inr (by simp [Op.uuids, pendingPairing]), fun i hi => ?_⟩
      cases hi
  | activated h =>
    obtain rfl | ⟨hp, _⟩ := (h.mem_pairings p).mp hp
    · refine ⟨Or.inl ⟨_, h.pairing_mem, rfl⟩, fun i hi => Or.inr ⟨_, h.invite_mem, ?_⟩⟩
      exact Option.some.inj hi
    · exact same hp
  | deleted h => exact same ((Table.mem_delete _ _ _).mp hp).1

/-- A host, and the host of a credential, was a host or is an invited instance. -/
theorem host_origin (h : Change db op db') (i : Uuid)
    (hi : HasHost db' i ∨ ∃ c ∈ db'.credentials, c.hostId = i) :
    HasHost db i ∨ (∃ c ∈ db.credentials, c.hostId = i) ∨ ∃ v ∈ db.invites, v.instanceId = i := by
  have same (hi : HasHost db i ∨ ∃ c ∈ db.credentials, c.hostId = i) : HasHost db i ∨
      (∃ c ∈ db.credentials, c.hostId = i) ∨ ∃ v ∈ db.invites, v.instanceId = i :=
    hi.imp_right Or.inl
  cases h with
  | columns h =>
    obtain hi | ⟨c, hc, rfl⟩ := hi
    · exact Or.inl ((h.hasHost i).mp hi)
    · obtain ⟨c₀, hc₀, he⟩ := Table.mem_of_map_eq _ _ _ h.credentials c hc
      exact Or.inr (Or.inl ⟨c₀, hc₀, congrArg (fun x => x.2.1) he⟩)
  | invited h => exact same hi
  | cancelled mem id pending h => exact same hi
  | cleaned => exact same hi
  | requested h => exact same hi
  | activated h =>
    obtain ⟨host, hm, rfl⟩ | ⟨c, hc, rfl⟩ := hi
    · obtain hm | rfl := (Table.mem_insert? _ _ _ _ h.hosts).mp hm
      · exact Or.inl ⟨host, hm, rfl⟩
      · exact Or.inr (Or.inr ⟨_, h.invite_mem, rfl⟩)
    · obtain hc | rfl := (Table.mem_insert? _ _ _ _ h.credentials).mp hc
      · exact Or.inr (Or.inl ⟨c, hc, rfl⟩)
      · exact Or.inr (Or.inr ⟨_, h.invite_mem, rfl⟩)
  | deleted h =>
    obtain ⟨host, hm, rfl⟩ | ⟨c, hc, rfl⟩ := hi
    · exact Or.inl ⟨host, ((Table.mem_delete _ _ _).mp hm).1, rfl⟩
    · exact Or.inr (Or.inl ⟨c, ((Table.mem_delete _ _ _).mp hc).1, rfl⟩)

/-- The host of a report or an hourly row had one before, or is a host. -/
theorem sample_origin (h : Change db op db') (i : Uuid)
    (hi : (∃ r ∈ db'.reports, r.hostId = i) ∨ ∃ r ∈ db'.hourly, r.hostId = i) :
    (∃ r ∈ db.reports, r.hostId = i) ∨ (∃ r ∈ db.hourly, r.hostId = i) ∨ HasHost db i := by
  have same (hi : (∃ r ∈ db.reports, r.hostId = i) ∨ ∃ r ∈ db.hourly, r.hostId = i) :
      (∃ r ∈ db.reports, r.hostId = i) ∨ (∃ r ∈ db.hourly, r.hostId = i) ∨ HasHost db i :=
    hi.imp_right Or.inl
  cases h with
  | columns h =>
    obtain ⟨r, hr, rfl⟩ | ⟨r, hr, rfl⟩ := hi
    · obtain ho | hh := h.reports r hr
      · exact Or.inl ho
      · exact Or.inr (Or.inr hh)
    · obtain ho | hh := h.hourly r hr
      · exact Or.inr (Or.inl ho)
      · exact Or.inr (Or.inr hh)
  | invited h => exact same hi
  | cancelled mem id pending h => exact same hi
  | cleaned => exact same hi
  | requested h => exact same hi
  | activated h =>
    rw [h.reports, h.hourly] at hi
    exact same hi
  | deleted h =>
    obtain ⟨r, hr, rfl⟩ | ⟨r, hr, rfl⟩ := hi
    · exact Or.inl ⟨r, ((Table.mem_delete _ _ _).mp hr).1, rfl⟩
    · exact Or.inr (Or.inl ⟨r, ((Table.mem_delete _ _ _).mp hr).1, rfl⟩)

/-- A bound pairing and its invite stay as they are, or their host is deleted and
nothing of the two is left. -/
theorem keeps_bound (h : Change db op db') (p : PairingRequest) (v : InstanceInvite)
    (hp : p ∈ db.pairings) (hv : v ∈ db.invites) (hpa : p.status = .active)
    (hva : v.status = .active) (hi : p.instanceId = some v.instanceId) :
    (p ∈ db'.pairings ∧ v ∈ db'.invites) ∨
    ((∃ f actor auditedAt, op = .deleteHost f v.instanceId actor auditedAt) ∧
      (∀ v' ∈ db'.invites, v' ∈ db.invites ∧ v'.instanceId ≠ v.instanceId) ∧
      ∀ p' ∈ db'.pairings, p' ∈ db.pairings ∧ p'.instanceId ≠ some v.instanceId) := by
  cases h with
  | columns h => exact Or.inl ⟨h.pairings.symm ▸ hp, h.invites.symm ▸ hv⟩
  | invited h => exact Or.inl ⟨hp, (Table.mem_insert? _ _ _ _ h).mpr (Or.inl hv)⟩
  | cancelled mem id pending h =>
    refine Or.inl ⟨hp, (mem_cancelled _ _ _ _ _ mem id h v).mpr (Or.inr ⟨hv, ?_⟩)⟩
    intro he
    rw [he, pending] at hva
    cases hva
  | cleaned => exact Or.inl ⟨(mem_cleanup _ _ _ _).2 hp (by simp [PairingRequest.disposable, hpa]), hv⟩
  | requested h =>
    refine Or.inl ⟨(Table.mem_insert? _ _ _ _ h).mpr (Or.inl ?_), hv⟩
    exact (mem_cleanup _ _ _ _).2 hp (by simp [PairingRequest.disposable, hpa])
  | activated h => exact Or.inl ⟨h.keeps_pairing p hp hpa, h.keeps_invite v hv hva⟩
  | @deleted f hostId actor auditedAt audit h =>
    by_cases hid : hostId = v.instanceId
    · subst hid
      refine Or.inr ⟨⟨f, actor, auditedAt, rfl⟩, fun v' hv' => ?_, fun p' hp' => ?_⟩
      · obtain ⟨hv', hne⟩ := (Table.mem_delete _ _ _).mp hv'
        exact ⟨hv', of_decide_eq_false hne⟩
      · obtain ⟨hp', hne⟩ := (Table.mem_delete _ _ _).mp hp'
        refine ⟨hp', fun he => ?_⟩
        simp [PairingRequest.ofHost, he] at hne
    · refine Or.inl ⟨(Table.mem_delete _ _ _).mpr ⟨hp, ?_⟩,
        (Table.mem_delete _ _ _).mpr ⟨hv, decide_eq_false (Ne.symm hid)⟩⟩
      simp [PairingRequest.ofHost, hpa, hi, Ne.symm hid]

end Change
end HostMonitoring.Store
