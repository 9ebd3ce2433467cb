import HostMonitoring.Store.Correspondence
import HostMonitoring.Store.LatestRuns
import HostMonitoring.Store.Replays

namespace HostMonitoring.Store

open HostMonitoring.Framework
open HostMonitoring.Framework.Tx
open HostMonitoring.Protocol
open HostMonitoring.Retention

/-- Two states hold the same rows of a host. -/
structure SameFor (g : Uuid) (db db' : Db) : Prop where
  hosts : ∀ x, x.hostId = g → (x ∈ db'.hosts ↔ x ∈ db.hosts)
  credentials : ∀ x, x.hostId = g → (x ∈ db'.credentials ↔ x ∈ db.credentials)
  reports : ∀ x, x.hostId = g → (x ∈ db'.reports ↔ x ∈ db.reports)
  hourly : ∀ x, x.hostId = g → (x ∈ db'.hourly ↔ x ∈ db.hourly)
  pairing : ∀ x, x.status = .active → x.instanceId = some g →
    (x ∈ db'.pairings ↔ x ∈ db.pairings)
  invites : ∀ x, x.instanceId = g → (x ∈ db'.invites ↔ x ∈ db.invites)

namespace SameFor

variable {past : List Op} {db db' : Db} {g h : Uuid}

theorem refl (g : Uuid) (db : Db) : SameFor g db db :=
  ⟨fun _ _ => Iff.rfl, fun _ _ => Iff.rfl, fun _ _ => Iff.rfl, fun _ _ => Iff.rfl,
    fun _ _ _ => Iff.rfl, fun _ _ => Iff.rfl⟩

/-- The keys an accepted report writes by, its identifier, its token and the
pointer it reads, are all its own host's. -/
theorem of_accepted {noted : List ReportWrite} {write : ReportWrite} {receivedAt : DateTime}
    {reportId : Uuid} {host : MonitoredHost} {inserted : Table MetricReport}
    (auth : Authorized write h reportId host db)
    (acc : Accepted write receivedAt h reportId host inserted db db')
    (owner : LatestHolds noted db host) (hne : g ≠ h) : SameFor g db db' where
  hosts x hx := by
    rw [acc.hosts]
    split_ifs
    · rw [mem_promoteHost]
      constructor
      · rintro (⟨x₀, _, hid, rfl⟩ | ⟨hm, _⟩)
        · exact absurd (hx.symm.trans hid) hne
        · exact hm
      · exact fun hm => Or.inr ⟨hm, hx ▸ hne⟩
    · exact Iff.rfl
  credentials x hx := by
    obtain ⟨c, hc, hch, hct, _⟩ := auth.credential
    have foreign : ∀ y ∈ db.credentials, y.hostId = g → y.tokenHash ≠ write.tokenHash := by
      intro y hy hyg he
      have same : y = c := db.credentials.eq_of_clash y c hy hc (Or.inr (he.trans hct.symm))
      exact hne (hyg.symm.trans ((congrArg ClientCredential.hostId same).trans hch))
    rw [acc.credentials]
    refine (Table.mem_updated db.credentials.rows _ _ x).trans ?_
    constructor
    · rintro (⟨y, hy, ht, rfl⟩ | ⟨hm, _⟩)
      · exact absurd (of_decide_eq_true ht) (foreign y hy hx)
      · exact hm
    · exact fun hm => Or.inr ⟨hm, decide_eq_false (foreign x hm hx)⟩
  reports x hx := by
    constructor
    · intro hm
      obtain rfl | ⟨r₀, hr₀, rfl | ⟨hpointer, rfl⟩⟩ := acc.row_origin x hm
      · exact absurd hx.symm hne
      · exact hr₀
      · have own := owner.pointer_owned _ hpointer r₀ hr₀ rfl
        exact absurd (hx.symm.trans (own.trans auth.is_host)) hne
    · intro hm
      refine acc.keeps_row x hm fun hpointer => ?_
      have own := owner.pointer_owned _ hpointer x hm rfl
      exact hne (hx.symm.trans (own.trans auth.is_host))
  hourly x _ := by rw [acc.hourly]
  pairing x _ _ := by rw [acc.pairings]
  invites x _ := by rw [acc.invites]

theorem of_renamed (remark : String) (audit : List AuditEvent) (hne : g ≠ h) :
    SameFor g db { db with
      hosts := db.hosts.modify (fun x => decide (x.hostId = h))
        (fun x => { x with name := remark }) fun _ _ => id
      audit } where
  hosts x hx := by
    refine (Table.mem_updated db.hosts.rows _ _ x).trans ?_
    constructor
    · rintro (⟨y, hy, hid, rfl⟩ | ⟨hm, _⟩)
      · exact absurd (hx.symm.trans (of_decide_eq_true hid)) hne
      · exact hm
    · exact fun hm => Or.inr ⟨hm, decide_eq_false fun hid => hne (hx.symm.trans hid)⟩
  credentials _ _ := Iff.rfl
  reports _ _ := Iff.rfl
  hourly _ _ := Iff.rfl
  pairing _ _ _ := Iff.rfl
  invites _ _ := Iff.rfl

theorem of_deleted (audit : List AuditEvent) (hne : g ≠ h) :
    SameFor g db (cascadeHost h (removeInvites h (removePairings h { db with audit }))) where
  hosts x hx := by
    refine (Table.mem_delete _ _ x).trans (and_iff_left (decide_eq_false ?_))
    exact hx ▸ hne
  credentials x hx := by
    refine (Table.mem_delete _ _ x).trans (and_iff_left (decide_eq_false ?_))
    exact hx ▸ hne
  reports x hx := by
    refine (Table.mem_delete _ _ x).trans (and_iff_left (decide_eq_false ?_))
    exact hx ▸ hne
  hourly x hx := by
    refine (Table.mem_delete _ _ x).trans (and_iff_left (decide_eq_false ?_))
    exact hx ▸ hne
  pairing x active hx := by
    refine (Table.mem_delete _ _ x).trans (and_iff_left ?_)
    simp [PairingRequest.ofHost, active, hx, hne]
  invites x hx := by
    refine (Table.mem_delete _ _ x).trans (and_iff_left (decide_eq_false ?_))
    exact hx ▸ hne

theorem of_activation {pairing : PairingRequest} {invite : InstanceInvite} {requestId : Uuid}
    {activationHash actor : String} {credentialId : Uuid} {now auditedAt : DateTime}
    (act : Activation pairing invite requestId activationHash actor credentialId now auditedAt
      db db') (hne : g ≠ invite.instanceId) : SameFor g db db' where
  hosts x hx := by
    refine (Table.mem_insert? _ _ _ x act.hosts).trans (or_iff_left ?_)
    rintro rfl
    exact hne hx.symm
  credentials x hx := by
    refine (Table.mem_insert? _ _ _ x act.credentials).trans (or_iff_left ?_)
    rintro rfl
    exact hne hx.symm
  reports x _ := by rw [act.reports]
  hourly x _ := by rw [act.hourly]
  pairing x active hx := by
    rw [act.mem_pairings]
    constructor
    · rintro (rfl | ⟨hm, _⟩)
      · exact absurd (Option.some.inj hx).symm hne
      · exact hm
    · intro hm
      refine Or.inr ⟨hm, ?_⟩
      rintro rfl
      rw [act.pairing_pending] at active
      cases active
  invites x hx := by
    rw [act.mem_invites]
    constructor
    · rintro (rfl | ⟨hm, _⟩)
      · exact absurd hx.symm hne
      · exact hm
    · intro hm
      refine Or.inr ⟨hm, ?_⟩
      rintro rfl
      exact hne hx.symm

end SameFor

/-- The calls made for one host: its reports, its remark, its deletion, and the
activation that makes it. -/
def Op.Concerns (h : Uuid) (db : Db) : Op → Prop
  | .storeReport _ write _ => Uuid.parseStr write.report.host.id = some h
  | .updateRemark _ hostId _ _ _ => hostId = h
  | .deleteHost _ hostId _ _ => hostId = h
  | .activate f requestId activationHash actor credentialId now auditedAt =>
    (Store.activate f requestId activationHash actor credentialId now auditedAt db).1 =
      .ok (.active h)
  | _ => False

/-- What is done for one host leaves every other host's rows alone. -/
theorem sameFor_other {past : List Op} {noted : List ReportWrite} {db : Db}
    (t : Tracked past noted db) (op : Op) (g h : Uuid) (concerns : op.Concerns h db) (hne : g ≠ h) :
    SameFor g db (op.exec db).2 := by
  cases op with
  | storeReport f write receivedAt =>
    change SameFor g db (storeReport f write receivedAt db).2
    obtain ⟨he, _⟩ | ⟨_, hostId, reportId, host, inserted, auth, acc⟩ :=
      storeReport_cases f write receivedAt db _ _ Prod.mk.eta.symm
    · rw [he]
      exact .refl g db
    · have same : h = hostId := Option.some.inj (concerns.symm.trans auth.host_id)
      subst same
      exact .of_accepted auth acc (t.latest host auth.mem) hne
  | updateRemark f hostId remark actor auditedAt =>
    change SameFor g db (updateRemark f hostId remark actor auditedAt db).2
    obtain ⟨he, _⟩ | ⟨_, _, he⟩ := updateRemark_cases f hostId remark actor auditedAt db _ _
      Prod.mk.eta.symm
    · rw [he]
      exact .refl g db
    · rw [he, show hostId = h from concerns]
      exact .of_renamed remark _ hne
  | deleteHost f hostId actor auditedAt =>
    change SameFor g db (deleteHost f hostId actor auditedAt db).2
    obtain ⟨he, _⟩ | ⟨_, _, he⟩ := deleteHost_cases f hostId actor auditedAt db _ _ Prod.mk.eta.symm
    · rw [he]
      exact .refl g db
    · rw [he, show hostId = h from concerns]
      exact .of_deleted _ hne
  | activate f requestId activationHash actor credentialId now auditedAt =>
    change SameFor g db (activate f requestId activationHash actor credentialId now auditedAt db).2
    obtain ⟨he, _⟩ | ⟨pairing, invite, answer, act⟩ := activate_cases f requestId activationHash actor
      credentialId now auditedAt db _ _ Prod.mk.eta.symm
    · rw [he]
      exact .refl g db
    · have made : Except.ok (ActivateResult.active h) = .ok (.active invite.instanceId) :=
        Eq.trans (Eq.symm concerns) answer
      cases made
      exact .of_activation act hne
  | _ => exact absurd concerns id

/-- A raw row was there before, of the same host, or it is that of a report the
call brought with a token of the host. -/
def RowOrigin (db : Db) (op : Op) (r : MetricReport) : Prop :=
  (∃ r₀ ∈ db.reports, r₀.reportId = r.reportId ∧ r₀.hostId = r.hostId) ∨
  ∃ write ∈ op.writes, Uuid.parseStr write.report.host.id = some r.hostId ∧
    Uuid.parseStr write.report.reportId = some r.reportId ∧ OpensHost write.tokenHash r.hostId db

theorem rows_by_token (op : Op) (db : Db) : ∀ r ∈ (op.exec db).2.reports, RowOrigin db op r := by
  by_cases hs : op.Stores
  · have kept := stores_keeps op hs
      (fun _ db' => ColumnsOnly db db' ∧ ∀ r ∈ db'.reports, RowOrigin db op r) ?_ [] db
      ⟨.refl db, fun r hr => Or.inl ⟨r, hr, rfl, rfl⟩⟩
    · exact kept.2
    · intro noted db₁ db₂ write receivedAt hostId reportId host inserted hw ⟨columns, origin⟩ auth acc
      refine ⟨columns.trans (accepted_columns auth acc), fun r hr => ?_⟩
      obtain rfl | ⟨r₀, hr₀, rfl | ⟨_, rfl⟩⟩ := acc.row_origin r hr
      · have token : OpensHost write.tokenHash hostId db₁ := auth.credential
        exact Or.inr ⟨write, hw, auth.host_id, auth.report_id, columns.opensHost.mp token⟩
      · exact origin r hr₀
      · exact origin r₀ hr₀
  · intro r hr
    left
    obtain k | ⟨_, _, _, _, _, _, _, _, act⟩ := exec_keepsLatest op db hs
    · obtain ⟨r₀, hr₀, he⟩ := k.reports r hr
      exact ⟨r₀, hr₀, by rw [he], by rw [he]⟩
    · rw [act.reports] at hr
      exact ⟨r, hr, rfl, rfl⟩

/-- An identifier that another host's row has taken is refused. -/
theorem storeReport_conflict {db : Db} {write : ReportWrite} {hostId : Uuid} {row : MetricReport}
    (housed : Housed db) (hr : row ∈ db.reports) (other : row.hostId ≠ hostId)
    (hasHost : HasHost db hostId) (host_id : Uuid.parseStr write.report.host.id = some hostId)
    (report_id : Uuid.parseStr write.report.reportId = some row.reportId)
    (token : OpensHost write.tokenHash hostId db) (receivedAt : DateTime) :
    storeReport .none write receivedAt db = (.error (.report .reportIdConflict), db) := by
  have body := storeReportInTransaction_known housed hr hasHost host_id report_id token receivedAt
  rw [if_neg other] at body
  change transact (.quiet _) (commitOrRollback _) db = _
  rw [transact_commitOrRollback, show Faults.none.statement = fun _ => none from rfl, body]

/-- The rows of a host are removed, with the open requests for it, and no others. -/
structure OnlyRemoved (h : Uuid) (db db' : Db) : Prop where
  hosts : ∀ x, x ∈ db'.hosts ↔ x ∈ db.hosts ∧ x.hostId ≠ h
  credentials : ∀ x, x ∈ db'.credentials ↔ x ∈ db.credentials ∧ x.hostId ≠ h
  reports : ∀ x, x ∈ db'.reports ↔ x ∈ db.reports ∧ x.hostId ≠ h
  hourly : ∀ x, x ∈ db'.hourly ↔ x ∈ db.hourly ∧ x.hostId ≠ h
  invites : ∀ x, x ∈ db'.invites ↔ x ∈ db.invites ∧ x.instanceId ≠ h
  pairings : ∀ x, x ∈ db'.pairings ↔ x ∈ db.pairings ∧ x.instanceId ≠ some h ∧
    ¬(x.requestedHostId = h ∧ (x.status = .pending ∨ x.status = .denied))

theorem onlyRemoved (h : Uuid) (db : Db) (audit : List AuditEvent) : OnlyRemoved h db
    (cascadeHost h (removeInvites h (removePairings h { db with audit }))) where
  hosts x := (Table.mem_delete _ _ x).trans (and_congr_right fun _ => decide_eq_false_iff_not)
  credentials x := (Table.mem_delete _ _ x).trans (and_congr_right fun _ => decide_eq_false_iff_not)
  reports x := (Table.mem_delete _ _ x).trans (and_congr_right fun _ => decide_eq_false_iff_not)
  hourly x := (Table.mem_delete _ _ x).trans (and_congr_right fun _ => decide_eq_false_iff_not)
  invites x := (Table.mem_delete _ _ x).trans (and_congr_right fun _ => decide_eq_false_iff_not)
  pairings x := by
    refine (Table.mem_delete _ _ x).trans (and_congr_right fun _ => ?_)
    simp [PairingRequest.ofHost]

/-- What is left that names a deleted host: active pairings of other hosts. -/
structure Forgotten (h : Uuid) (db : Db) : Prop where
  gone : Gone h db
  requested : ∀ p ∈ db.pairings, p.requestedHostId = h →
    p.status = .active ∧ ∃ g, g ≠ h ∧ p.instanceId = some g ∧ HasHost db g

theorem forgotten (ops : List Op) (fresh : Fresh ops) (f : Faults) (h : Uuid) (actor : String)
    (auditedAt : DateTime)
    (deleted : (deleteHost f h actor auditedAt (store.after ops)).1 = .ok true) :
    OnlyRemoved h (store.after ops) (deleteHost f h actor auditedAt (store.after ops)).2 ∧
      Forgotten h (deleteHost f h actor auditedAt (store.after ops)).2 := by
  obtain ⟨_, hr⟩ | ⟨_, _, he⟩ :=
    deleteHost_cases f h actor auditedAt (store.after ops) _ _ Prod.mk.eta.symm
  · exact absurd deleted hr
  have fresh' : Fresh (ops ++ [.deleteHost f h actor auditedAt]) := by
    simpa [Fresh, drawn, codes, Op.uuids, Op.codes] using fresh
  have bound := bound_after _ fresh'
  rw [Machine.after_concat] at bound
  change Bound _ (deleteHost f h actor auditedAt (store.after ops)).2 at bound
  have gone : Gone h (deleteHost f h actor auditedAt (store.after ops)).2 := by
    rw [he]
    exact .of_deleted h _
  have removed : OnlyRemoved h (store.after ops)
      (deleteHost f h actor auditedAt (store.after ops)).2 := by
    rw [he]
    exact onlyRemoved h _ _
  refine ⟨removed, gone, fun p hp requested => ?_⟩
  have open_ := ((removed.pairings p).mp hp).2.2
  have active : p.status = .active := by
    cases status : p.status with
    | active => rfl
    | pending => exact absurd ⟨requested, Or.inl status⟩ open_
    | denied => exact absurd ⟨requested, Or.inr status⟩ open_
  obtain ⟨v, hv, hbound⟩ := bound.pairing_active p hp active
  refine ⟨active, v.instanceId, gone.invites v hv, hbound.2.2.2, ?_⟩
  exact (bound.invite_active v hv hbound.2.1).1

/-- In every state the store can reach hosts do not see each other: what is done
for one leaves the rows of every other alone, rows come only with a token of their
host, and deleting a host removes what is its own. -/
theorem host_isolation (ops : List Op) (fresh : Fresh ops) :
    (∀ (op : Op) (g h : Uuid), op.Concerns h (store.after ops) → g ≠ h →
      SameFor g (store.after ops) (op.exec (store.after ops)).2) ∧
    (∀ op : Op, ∀ r ∈ (op.exec (store.after ops)).2.reports, RowOrigin (store.after ops) op r) ∧
    (∀ row ∈ (store.after ops).reports, ∀ write h receivedAt, row.hostId ≠ h →
      Uuid.parseStr write.report.host.id = some h →
      Uuid.parseStr write.report.reportId = some row.reportId →
      OpensHost write.tokenHash h (store.after ops) →
      storeReport .none write receivedAt (store.after ops) =
        (.error (.report .reportIdConflict), store.after ops)) ∧
    ∀ f h actor auditedAt, (deleteHost f h actor auditedAt (store.after ops)).1 = .ok true →
      OnlyRemoved h (store.after ops) (deleteHost f h actor auditedAt (store.after ops)).2 ∧
      Forgotten h (deleteHost f h actor auditedAt (store.after ops)).2 := by
  refine ⟨fun op g h => sameFor_other (tracked_after ops fresh) op g h,
    fun op => rows_by_token op (store.after ops), ?_, forgotten ops fresh⟩
  intro row hr write h receivedAt other host_id report_id token
  have hasHost : HasHost (store.after ops) h := by
    obtain ⟨c, hc, hhost, _⟩ := token
    obtain ⟨p, v, x, link⟩ := (bound_after ops fresh).linked_credential c hc
    exact ⟨x, link.host_mem, link.credential.1.symm.trans hhost⟩
  exact storeReport_conflict (housed_after ops) hr other hasHost host_id report_id token receivedAt

/-- The laptop, host 2, asks again under its own name and is activated as host 11. -/
def laptopMoved : List Op := laptopReported ++
  [.createInvite .none "desk" "admin" ⟨10⟩ ⟨11⟩ "code 2" "code hash 2" noon noon,
    .createPairing .none { laptop with
      host := { laptop.host with id := "00000000-0000-0000-0000-000000000002" }
      tokenHash := "token 2"
      pollingSecretHash := "secret 2" } ⟨12⟩ noon noon,
    .activate .none ⟨12⟩ "code hash 2" "admin" ⟨13⟩ noon noon]

theorem fresh_laptopMoved : Fresh laptopMoved := by
  simp [Fresh, drawn, codes, laptopMoved, laptopReported, laptopActive, laptopPaired, Op.uuids,
    Op.codes]

theorem host_isolation_laptop :
    (deleteHost .none ⟨2⟩ "admin" noon (store.after laptopMoved)).1 = .ok true ∧
    SameFor ⟨11⟩ (store.after laptopMoved)
      (deleteHost .none ⟨2⟩ "admin" noon (store.after laptopMoved)).2 ∧
    Forgotten ⟨2⟩ (deleteHost .none ⟨2⟩ "admin" noon (store.after laptopMoved)).2 := by
  have deleted : (deleteHost .none ⟨2⟩ "admin" noon (store.after laptopMoved)).1 = .ok true := by
    decide +kernel
  obtain ⟨same, _, _, removed⟩ := host_isolation laptopMoved fresh_laptopMoved
  refine ⟨deleted, ?_, (removed .none ⟨2⟩ "admin" noon deleted).2⟩
  exact same (.deleteHost .none ⟨2⟩ "admin" noon) ⟨11⟩ ⟨2⟩ rfl (by decide)

/-- The active pairing of host 11 still names the deleted host 2. -/
theorem host_isolation_reference : ¬∀ ops f h actor auditedAt, Fresh ops →
    (deleteHost f h actor auditedAt (store.after ops)).1 = .ok true →
    ∀ p ∈ (deleteHost f h actor auditedAt (store.after ops)).2.pairings, p.requestedHostId ≠ h := by
  intro claim
  have deleted : (deleteHost .none ⟨2⟩ "admin" noon (store.after laptopMoved)).1 = .ok true := by
    decide +kernel
  obtain ⟨p, hp, requested⟩ : ∃ p ∈ (deleteHost .none ⟨2⟩ "admin" noon
      (store.after laptopMoved)).2.pairings.rows, p.requestedHostId = ⟨2⟩ := by decide +kernel
  exact claim laptopMoved .none ⟨2⟩ "admin" noon fresh_laptopMoved deleted p hp requested

end HostMonitoring.Store
