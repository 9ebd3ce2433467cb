import HostMonitoring.Store.Binding

namespace HostMonitoring.Store

open HostMonitoring.Framework
open HostMonitoring.Framework.Tx
open HostMonitoring.Protocol

/-- After `past`, this call made the request active with the code, as the instance. -/
def Activated (past : List Op) (op : Op) (requestId : Uuid) (activationHash : String)
    (instanceId : Uuid) : Prop :=
  (∃ f actor credentialId now auditedAt,
    op = .activate f requestId activationHash actor credentialId now auditedAt) ∧
  (op.exec (store.after past)).1 = .activate (.ok (.active instanceId))

def Cancelled (past : List Op) (op : Op) (inviteId : Uuid) : Prop :=
  (∃ f actor cancelledAt auditedAt, op = .cancelInvite f inviteId actor cancelledAt auditedAt) ∧
  (op.exec (store.after past)).1 = .cancel (.ok .cancelled)

def Deleted (past : List Op) (op : Op) (hostId : Uuid) : Prop :=
  (∃ f actor auditedAt, op = .deleteHost f hostId actor auditedAt) ∧
  (op.exec (store.after past)).1 = .changed (.ok true)

/-- No row names the host or instance. -/
structure Gone (i : Uuid) (db : Db) : Prop where
  hosts : ∀ h ∈ db.hosts, h.hostId ≠ i
  reports : ∀ r ∈ db.reports, r.hostId ≠ i
  hourly : ∀ r ∈ db.hourly, r.hostId ≠ i
  credentials : ∀ c ∈ db.credentials, c.hostId ≠ i
  invites : ∀ v ∈ db.invites, v.instanceId ≠ i
  pairings : ∀ p ∈ db.pairings, p.instanceId ≠ some i

/-- Neither the request nor the code is known any more. -/
structure Withdrawn (requestId : Uuid) (activationHash : String) (db : Db) : Prop where
  invites : ∀ v ∈ db.invites, v.activationCodeHash ≠ activationHash
  pairings : ∀ p ∈ db.pairings, p.requestId ≠ requestId

def Spent (activationHash : String) (db : Db) : Prop :=
  ∀ v ∈ db.invites, v.activationCodeHash = activationHash → v.status = .cancelled

/-- What every call of a fresh run keeps holds from the moment it first does. -/
theorem lasting_fresh (P : Db → Prop) (past later : List Op) (fresh : Fresh (past ++ later))
    (h : P (store.after past))
    (step : ∀ mid op db', (mid ++ [op]).IsPrefix later → db' = (op.exec (store.after (past ++ mid))).2 →
      Bound (past ++ mid) (store.after (past ++ mid)) → (∀ u ∈ drawn past, u ∉ op.uuids) →
      (∀ c ∈ codes past, c ∉ op.codes) → Change (store.after (past ++ mid)) op db' →
      P (store.after (past ++ mid)) → P db') :
    P (store.after (past ++ later)) := by
  refine store.lasting P past later h fun mid op hp hP => ?_
  obtain ⟨rest, rfl⟩ := hp
  have whole : Fresh (past ++ (mid ++ [op])) := by
    rw [← List.append_assoc] at fresh
    exact (fresh_append _ _ fresh).1
  obtain ⟨_, uuids, codes⟩ := fresh_append past (mid ++ [op]) whole
  have before : Fresh (past ++ mid) := by
    rw [← List.append_assoc] at whole
    exact fresh_closed _ _ whole
  refine step mid op _ (List.prefix_append _ _) rfl (bound_after _ before) ?_ ?_ (exec_change op _) hP
  · exact fun u hu hm => uuids u hu (by simp [drawn, hm])
  · exact fun c hc hm => codes c hc (by simp [Store.codes, hm])

theorem deleteHost_changed (f : Faults) (hostId : Uuid) (actor : String) (auditedAt : DateTime)
    (db : Db) (h : (deleteHost f hostId actor auditedAt db).2 ≠ db) :
    (deleteHost f hostId actor auditedAt db).1 = .ok true := by
  obtain ⟨he, _⟩ | ⟨hr, _⟩ := deleteHost_cases f hostId actor auditedAt db _ _ Prod.mk.eta.symm
  · exact absurd he h
  · exact hr

section
variable {past : List Op} {db : Db} {requestId instanceId : Uuid} {activationHash : String}

/-- The pairing and the invite behind an answer `Active` are bound to each other. -/
theorem Bound.boundBy_iff (b : Bound past db) :
    BoundBy db requestId activationHash instanceId ↔
      ∃ p ∈ db.pairings, ∃ v ∈ db.invites, p.requestId = requestId ∧
        v.activationCodeHash = activationHash ∧ v.instanceId = instanceId ∧ p.BoundTo v := by
  constructor
  · rintro ⟨p, hp, v, hv, hid, ha, hcode, hinst, hinv, hpi, _⟩
    obtain ⟨v', hv', hbound⟩ := b.pairing_active p hp ha
    have same : v' = v := db.invites.eq_of_clash v' v hv' hv
      (Or.inl (Option.some.inj (hbound.2.2.1.symm.trans hinv)))
    exact ⟨p, hp, v, hv, hid, hcode, hinst, same ▸ hbound⟩
  · rintro ⟨p, hp, v, hv, hid, hcode, rfl, hbound⟩
    obtain ⟨_, p', hp', hbound', c, hc, hch, hct⟩ := b.invite_active v hv hbound.2.1
    have same : p' = p := b.pairing_unique p' p hp' hp v.instanceId hbound'.1 hbound.1
      hbound'.2.2.2 hbound.2.2.2
    exact ⟨p, hp, v, hv, hid, hbound.1, hcode, rfl, hbound.2.2.1, hbound.2.2.2, c, hc, hch,
      same ▸ hct, (b.credential_active c hc).1⟩

/-- While a request is bound by a code, and after both are withdrawn, no other
request and no other code go with them. -/
theorem Bound.only_one (b : Bound past db)
    (h : BoundBy db requestId activationHash instanceId ∨ Withdrawn requestId activationHash db)
    (f : Faults) (requestId' : Uuid) (activationHash' actor : String) (credentialId : Uuid)
    (now auditedAt : DateTime) (i : Uuid)
    (ha : (activate f requestId' activationHash' actor credentialId now auditedAt db).1 =
      .ok (.active i)) (shared : requestId' = requestId ∨ activationHash' = activationHash) :
    requestId' = requestId ∧ activationHash' = activationHash ∧ i = instanceId := by
  have answer : (∃ p ∈ db.pairings, ∃ v ∈ db.invites, p.requestId = requestId' ∧
      v.activationCodeHash = activationHash' ∧ v.instanceId = i ∧ p.BoundTo v) ∨
      ∃ p ∈ db.pairings, ∃ v ∈ db.invites, p.requestId = requestId' ∧
        v.activationCodeHash = activationHash' ∧ p.status = .pending ∧ v.status = .pending := by
    obtain ⟨_, hb⟩ | ⟨p, v, _, hact⟩ :=
      activate_cases f requestId' activationHash' actor credentialId now auditedAt db _ _
        Prod.mk.eta.symm
    · exact Or.inl (b.boundBy_iff.mp (hb i ha))
    · exact Or.inr ⟨p, hact.pairing_mem, v, hact.invite_mem, hact.pairing_id, hact.invite_code,
        hact.pairing_pending, hact.invite_pending⟩
  obtain h | h := h
  · obtain ⟨p, hp, v, hv, hid, hcode, hinst, hbound⟩ := b.boundBy_iff.mp h
    obtain ⟨p', hp', v', hv', hid', hcode', hinst', hbound'⟩ | ⟨p', hp', v', hv', hid', hcode',
        pending, invited⟩ :=
      answer
    · have both : p' = p ∧ v' = v := by
        obtain he | he := shared
        · have same : p' = p := db.pairings.eq_of_clash p' p hp' hp
            (Or.inl (hid'.trans (he.trans hid.symm)))
          subst same
          exact ⟨rfl, db.invites.eq_of_clash v' v hv' hv
            (Or.inl (Option.some.inj (hbound'.2.2.1.symm.trans hbound.2.2.1)))⟩
        · have same : v' = v := db.invites.eq_of_clash v' v hv' hv
            (Or.inr (Or.inl (hcode'.trans (he.trans hcode.symm))))
          subst same
          exact ⟨b.pairing_unique p' p hp' hp v'.instanceId hbound'.1 hbound.1 hbound'.2.2.2
            hbound.2.2.2, rfl⟩
      obtain ⟨rfl, rfl⟩ := both
      exact ⟨hid'.symm.trans hid, hcode'.symm.trans hcode, hinst'.symm.trans hinst⟩
    · exfalso
      obtain he | he := shared
      · rw [db.pairings.eq_of_clash p' p hp' hp (Or.inl (hid'.trans (he.trans hid.symm))),
          hbound.1] at pending
        cases pending
      · rw [db.invites.eq_of_clash v' v hv' hv
          (Or.inr (Or.inl (hcode'.trans (he.trans hcode.symm)))), hbound.2.1] at invited
        cases invited
  · exfalso
    have known : (∃ p ∈ db.pairings, p.requestId = requestId') ∧
        ∃ v ∈ db.invites, v.activationCodeHash = activationHash' := by
      obtain ⟨p', hp', v', hv', hid', hcode', _⟩ | ⟨p', hp', v', hv', hid', hcode', _⟩ := answer
      · exact ⟨⟨p', hp', hid'⟩, v', hv', hcode'⟩
      · exact ⟨⟨p', hp', hid'⟩, v', hv', hcode'⟩
    obtain ⟨⟨p', hp', hid'⟩, v', hv', hcode'⟩ := known
    obtain he | he := shared
    · exact h.pairings p' hp' (hid'.trans he)
    · exact h.invites v' hv' (hcode'.trans he)

/-- A cancelled code activates nothing. -/
theorem Bound.spent_inactive (b : Bound past db) (h : Spent activationHash db) (f : Faults)
    (actor : String) (credentialId : Uuid) (now auditedAt : DateTime) (i : Uuid) :
    (activate f requestId activationHash actor credentialId now auditedAt db).1 ≠
      .ok (.active i) := by
  intro ha
  obtain ⟨_, hb⟩ | ⟨p, v, _, hact⟩ :=
    activate_cases f requestId activationHash actor credentialId now auditedAt db _ _
      Prod.mk.eta.symm
  · obtain ⟨p, hp, v, hv, _, hcode, _, hbound⟩ := b.boundBy_iff.mp (hb i ha)
    have active := hbound.2.1
    rw [h v hv hcode] at active
    cases active
  · have pending := hact.invite_pending
    rw [h v hact.invite_mem hact.invite_code] at pending
    cases pending

/-- A request that is bound by the code answers as before and changes nothing, at
any time, and its invite can no longer be cancelled. -/
structure Replayed (requestId : Uuid) (activationHash : String) (instanceId : Uuid) (db : Db) :
    Prop where
  answer : ∀ actor credentialId now auditedAt,
    activate .none requestId activationHash actor credentialId now auditedAt db =
      (.ok (.active instanceId), db)
  unchanged : ∀ f actor credentialId now auditedAt,
    (activate f requestId activationHash actor credentialId now auditedAt db).2 = db
  cancel : ∃ v ∈ db.invites, v.activationCodeHash = activationHash ∧ v.instanceId = instanceId ∧
    ∀ actor cancelledAt auditedAt,
      cancelInvite .none v.inviteId actor cancelledAt auditedAt db = (.ok .notPending, db)

theorem activate_boundBy (h : BoundBy db requestId activationHash instanceId) (actor : String)
    (credentialId : Uuid) (now auditedAt : DateTime) :
    activate .none requestId activationHash actor credentialId now auditedAt db =
      (.ok (.active instanceId), db) := by
  obtain ⟨p, hp, v, hv, hid, ha, hcode, rfl, hinv, hinst, c, hc, hch, hct, hcr⟩ := h
  have findPairing : db.pairings.find? (fun r => decide (r.requestId = requestId)) = some p :=
    Table.find?_eq_some _ _ _ hp (decide_eq_true hid)
      fun r hr hrid => db.pairings.eq_of_clash r p hr hp
        (Or.inl ((of_decide_eq_true hrid).trans hid.symm))
  have findInvite : db.invites.find? (fun r => decide (r.activationCodeHash = activationHash)) =
      some v := Table.find?_eq_some _ _ _ hv (decide_eq_true hcode)
    fun r hr hrc => db.invites.eq_of_clash r v hr hv
      (Or.inr (Or.inl ((of_decide_eq_true hrc).trans hcode.symm)))
  have inForce : (db.credentials.any fun c => decide (c.hostId = v.instanceId) &&
      decide (c.tokenHash = p.tokenHash) && c.revokedAt.isNone) = true :=
    (Table.any_eq_true _ _).mpr ⟨c, hc, by simp [hch, hct, hcr]⟩
  refine transact_rollback _ _ db _ ?_
  simp only [bind_ok, query_ok]
  refine ⟨_, _, ⟨rfl, rfl, rfl⟩, ?_⟩
  rw [findPairing]
  simp only [bind_ok, query_ok]
  refine ⟨_, _, ⟨rfl, rfl, rfl⟩, ?_⟩
  rw [findInvite]
  simp only [ha, if_true, bind_ok, query_ok, pure_ok]
  refine ⟨_, _, ⟨rfl, rfl, rfl⟩, ?_, rfl⟩
  simp [inForce, hinv, hinst]

theorem cancelInvite_settled (v : InstanceInvite) (hv : v ∈ db.invites) (h : v.status ≠ .pending)
    (actor : String) (cancelledAt auditedAt : DateTime) :
    cancelInvite .none v.inviteId actor cancelledAt auditedAt db = (.ok .notPending, db) := by
  have find : db.invites.find? (fun r => decide (r.inviteId = v.inviteId)) = some v :=
    Table.find?_eq_some _ _ _ hv (decide_eq_true rfl)
      fun r hr hid => db.invites.eq_of_clash r v hr hv (Or.inl (of_decide_eq_true hid))
  refine transact_rollback _ _ db _ ?_
  simp only [bind_ok, query_ok]
  refine ⟨_, _, ⟨rfl, rfl, rfl⟩, ?_⟩
  rw [find]
  simp only [if_pos h, pure_ok]
  exact ⟨trivial, trivial⟩

theorem Bound.replayed (b : Bound past db) (h : BoundBy db requestId activationHash instanceId) :
    Replayed requestId activationHash instanceId db where
  answer := activate_boundBy h
  unchanged f actor credentialId now auditedAt := by
    obtain ⟨p, hp, v, hv, hid, hcode, hinst, hbound⟩ := b.boundBy_iff.mp h
    obtain ⟨he, _⟩ | ⟨p', v', _, hact⟩ :=
      activate_cases f requestId activationHash actor credentialId now auditedAt db _ _
        Prod.mk.eta.symm
    · exact he
    · have pending := hact.pairing_pending
      rw [db.pairings.eq_of_clash p' p hact.pairing_mem hp
        (Or.inl (hact.pairing_id.trans hid.symm)), hbound.1] at pending
      cases pending
  cancel := by
    obtain ⟨p, hp, v, hv, hid, hcode, hinst, hbound⟩ := b.boundBy_iff.mp h
    refine ⟨v, hv, hcode, hinst, cancelInvite_settled v hv ?_⟩
    rw [hbound.2.1]
    exact InviteStatus.noConfusion

/-- Every report for the host is turned away, alone or in a batch. -/
structure TurnedAway (i : Uuid) (db : Db) : Prop where
  alone : ∀ write receivedAt reportId, Uuid.parseStr write.report.host.id = some i →
    Uuid.parseStr write.report.reportId = some reportId →
    storeReport .none write receivedAt db = (.error (.report .unauthorized), db)
  batch : ∀ boundary reports results db', storeReportBatch boundary reports db = (.ok results, db') →
    reports.Forall₂ (fun item r => ∀ reportId, Uuid.parseStr item.write.report.host.id = some i →
      Uuid.parseStr item.write.report.reportId = some reportId → item.faults.statement 0 = none →
      r = .error (.report .unauthorized)) results
  never : ∀ f write receivedAt a, Uuid.parseStr write.report.host.id = some i →
    (storeReport f write receivedAt db).1 ≠ .ok a

namespace Gone

variable {i : Uuid}

theorem change (h : Gone i db) {op : Op} {db' : Db} (hc : Change db op db') (hi : i ∉ op.uuids) :
    Gone i db' := by
  have noHost : ¬(HasHost db i ∨ (∃ c ∈ db.credentials, c.hostId = i) ∨
      ∃ v ∈ db.invites, v.instanceId = i) := by
    rintro (⟨x, hx, he⟩ | ⟨x, hx, he⟩ | ⟨x, hx, he⟩)
    · exact h.hosts x hx he
    · exact h.credentials x hx he
    · exact h.invites x hx he
  have noSample : ¬((∃ r ∈ db.reports, r.hostId = i) ∨ (∃ r ∈ db.hourly, r.hostId = i) ∨
      HasHost db i) := by
    rintro (⟨x, hx, he⟩ | ⟨x, hx, he⟩ | hh)
    · exact h.reports x hx he
    · exact h.hourly x hx he
    · exact noHost (Or.inl hh)
  constructor
  · exact fun x hx he => noHost (hc.host_origin i (Or.inl ⟨x, hx, he⟩))
  · exact fun x hx he => noSample (hc.sample_origin i (Or.inl ⟨x, hx, he⟩))
  · exact fun x hx he => noSample (hc.sample_origin i (Or.inr ⟨x, hx, he⟩))
  · exact fun x hx he => noHost (hc.host_origin i (Or.inr ⟨x, hx, he⟩))
  · intro v hv he
    obtain ⟨v₀, hv₀, _, hinst, _⟩ | ⟨hd, _⟩ := hc.invite_origin v hv
    · exact h.invites v₀ hv₀ (hinst.trans he)
    · exact hi (he ▸ hd)
  · intro p hp he
    obtain ⟨p₀, hp₀, he₀⟩ | ⟨v, hv, hinst⟩ := (hc.pairing_origin p hp).2 i he
    · exact h.pairings p₀ hp₀ he₀
    · exact h.invites v hv hinst

theorem of_deleted (hostId : Uuid) (audit : List AuditEvent) :
    Gone hostId (cascadeHost hostId (removeInvites hostId (removePairings hostId
      { db with audit }))) where
  hosts x hx := of_decide_eq_false ((Table.mem_delete _ _ _).mp hx).2
  reports x hx := of_decide_eq_false ((Table.mem_delete _ _ _).mp hx).2
  hourly x hx := of_decide_eq_false ((Table.mem_delete _ _ _).mp hx).2
  credentials x hx := of_decide_eq_false ((Table.mem_delete _ _ _).mp hx).2
  invites x hx := of_decide_eq_false ((Table.mem_delete _ _ _).mp hx).2
  pairings p hp he := by
    have hkeep := ((Table.mem_delete _ _ _).mp hp).2
    simp [PairingRequest.ofHost, he] at hkeep

theorem unauthorized (h : Gone i db) (fault : Nat → Option StoreError) (write : ReportWrite)
    (receivedAt : DateTime) (reportId : Uuid) (hh : Uuid.parseStr write.report.host.id = some i)
    (hr : Uuid.parseStr write.report.reportId = some reportId) (quiet : fault 0 = none) :
    (storeReportInTransaction fault write receivedAt).run db =
      (.error (.report .unauthorized), db) := by
  have none : authorizedHost i write.tokenHash db = none := by
    refine (Table.find?_eq_none _ _).mpr fun x hx => ?_
    simp [h.hosts x hx]
  simp only [storeReportInTransaction, hh, hr, run_bind, query, quiet, none, fail]

theorem never_ok (h : Gone i db) (f : Faults) (write : ReportWrite) (receivedAt : DateTime)
    (a : Bool × DateTime) (hh : Uuid.parseStr write.report.host.id = some i) :
    (storeReport f write receivedAt db).1 ≠ .ok a := by
  have stranger : ∀ hostId reportId host, ¬Authorized write hostId reportId host db := by
    intro hostId reportId host auth
    refine h.hosts host auth.mem (auth.is_host.trans ?_)
    exact Option.some.inj (auth.host_id.symm.trans hh)
  intro ha
  obtain ⟨_, ⟨e, he⟩ | ⟨hostId, reportId, host, _, _, auth, _⟩⟩ | ⟨_, hostId, reportId, host, _,
      auth, _⟩ :=
    storeReport_cases f write receivedAt db _ _ Prod.mk.eta.symm
  · rw [he] at ha
    cases ha
  · exact stranger _ _ _ auth
  · exact stranger _ _ _ auth

theorem storeSeparately (h : Gone i db) (item : BatchItem) :
    Gone i (storeSeparately item db).2 :=
  h.change (exec_change (.storeReport ⟨.quiet _, item.faults.statement, item.faults.ties⟩ item.write item.receivedAt) db)
    List.not_mem_nil

theorem turnedAway (h : Gone i db) : TurnedAway i db where
  alone write receivedAt reportId hh hr := by
    change transact (.quiet _) (commitOrRollback _) db = _
    rw [transact_commitOrRollback, h.unauthorized _ write receivedAt reportId hh hr rfl]
  batch boundary reports results db' hb := by
    obtain ⟨⟨e, he⟩, _⟩ | ⟨rs, hr, _, separate⟩ :=
      storeReportBatch_cases boundary reports db db' _ hb
    · cases he
    · cases hr
      have answers : (oneByOne Store.storeSeparately reports db).1 = results :=
        congrArg Prod.fst separate
      rw [← answers]
      refine oneByOne_results (Gone i) _ Store.storeSeparately (fun item s hs => hs.storeSeparately item)
        ?_ reports db h
      intro item s hs reportId hh hr quiet
      change (transact (.quiet _) (commitOrRollback _) s).1 = _
      rw [transact_commitOrRollback, hs.unauthorized _ item.write item.receivedAt reportId hh hr quiet]
  never f write receivedAt a hh := h.never_ok f write receivedAt a hh

theorem no_token (h : Gone i db) (tokenHash : String) : hostForToken tokenHash db ≠ some i := by
  intro ht
  obtain ⟨c, hc, he⟩ := Option.map_eq_some_iff.mp ht
  exact h.credentials c (Table.mem_of_find? _ _ _ hc).1 he

end Gone
end

theorem boundBy_of_active (f : Faults) (requestId : Uuid) (activationHash actor : String)
    (credentialId : Uuid) (now auditedAt : DateTime) (past : List Op) (i : Uuid)
    (b : Bound past (store.after past))
    (h : (activate f requestId activationHash actor credentialId now auditedAt
      (store.after past)).1 = .ok (.active i)) :
    BoundBy (activate f requestId activationHash actor credentialId now auditedAt
      (store.after past)).2 requestId activationHash i := by
  obtain ⟨he, hb⟩ | ⟨p, v, hr, hact⟩ :=
    activate_cases f requestId activationHash actor credentialId now auditedAt (store.after past) _
      _ Prod.mk.eta.symm
  · rw [he]
    exact hb i h
  · have after : Bound (past ++ [.activate f requestId activationHash actor credentialId now
        auditedAt]) _ := b.activated _ (List.mem_singleton.mpr rfl) hact
    rw [hr] at h
    cases h
    refine after.boundBy_iff.mpr ⟨bindPairing v.inviteId v.instanceId now p, ?_, bindInvite now v, ?_,
      hact.pairing_id, hact.invite_code, rfl, rfl, rfl, rfl, rfl⟩
    · exact (hact.mem_pairings _).mpr (Or.inl rfl)
    · exact (hact.mem_invites _).mpr (Or.inl rfl)

theorem spent_of_cancelled (f : Faults) (v : InstanceInvite) (actor : String)
    (cancelledAt auditedAt : DateTime) (db : Db) (hv : v ∈ db.invites)
    (h : (cancelInvite f v.inviteId actor cancelledAt auditedAt db).1 = .ok .cancelled) :
    Spent v.activationCodeHash (cancelInvite f v.inviteId actor cancelledAt auditedAt db).2 := by
  obtain ⟨_, hne, _⟩ | ⟨row, invites, hm, hid, _, _, hu, he⟩ :=
    cancelInvite_cases f v.inviteId actor cancelledAt auditedAt db _ _ Prod.mk.eta.symm
  · exact absurd h hne
  · rw [he]
    intro x hx hcode
    have row_eq : row = v := db.invites.eq_of_clash row v hm hv (Or.inl hid)
    obtain rfl | ⟨hx, hne⟩ := (mem_cancelled _ _ _ _ row hm hid hu x).mp hx
    · rfl
    · have same : x = v := db.invites.eq_of_clash x v hx hv (Or.inr (Or.inl hcode))
      exact absurd (same.trans row_eq.symm) hne

/-- Once bound, a request stays bound until its host is deleted. -/
theorem boundBy_later (past later : List Op) (fresh : Fresh (past ++ later)) (requestId : Uuid)
    (activationHash : String) (i : Uuid) (h : BoundBy (store.after past) requestId activationHash i)
    (kept : ∀ mid op, (mid ++ [op]).IsPrefix later → ¬Deleted (past ++ mid) op i) :
    BoundBy (store.after (past ++ later)) requestId activationHash i := by
  have bound := bound_after _ fresh
  have lasts : ∃ p ∈ (store.after (past ++ later)).pairings, ∃ v ∈ (store.after (past ++ later)).invites,
      p.requestId = requestId ∧ v.activationCodeHash = activationHash ∧ v.instanceId = i ∧
        p.BoundTo v := by
    refine lasting_fresh (fun db => ∃ p ∈ db.pairings, ∃ v ∈ db.invites, p.requestId = requestId ∧
      v.activationCodeHash = activationHash ∧ v.instanceId = i ∧ p.BoundTo v) past later fresh
      ((bound_after _ (fresh_append _ _ fresh).1).boundBy_iff.mp h) ?_
    rintro mid op db' hp rfl b _ _ change ⟨p, hpm, v, hvm, hid, hcode, rfl, hbound⟩
    obtain ⟨hp', hv'⟩ | ⟨⟨f, actor, auditedAt, rfl⟩, hv', _⟩ :=
      change.keeps_bound p v hpm hvm hbound.1 hbound.2.1 hbound.2.2.2
    · exact ⟨p, hp', v, hv', hid, hcode, rfl, hbound⟩
    · exfalso
      refine kept mid _ hp ⟨⟨f, actor, auditedAt, rfl⟩, ?_⟩
      have changed : (deleteHost f v.instanceId actor auditedAt (store.after (past ++ mid))).2 ≠
          store.after (past ++ mid) := by
        intro same
        have hvm' : v ∈ (deleteHost f v.instanceId actor auditedAt
            (store.after (past ++ mid))).2.invites := same.symm ▸ hvm
        exact (hv' v hvm').2 rfl
      change Reply.changed (deleteHost _ _ _ _ _).1 = _
      rw [deleteHost_changed _ _ _ _ _ changed]
  exact bound.boundBy_iff.mpr lasts

/-- A request and a code that were bound to each other stay bound or are withdrawn. -/
theorem settled_later (past later : List Op) (fresh : Fresh (past ++ later)) (requestId : Uuid)
    (activationHash : String) (i : Uuid)
    (h : BoundBy (store.after past) requestId activationHash i) :
    BoundBy (store.after (past ++ later)) requestId activationHash i ∨
      Withdrawn requestId activationHash (store.after (past ++ later)) := by
  have start := bound_after _ (fresh_append _ _ fresh).1
  obtain ⟨p₀, hp₀, v₀, hv₀, hid₀, hcode₀, _⟩ := start.boundBy_iff.mp h
  have requestDrawn : requestId ∈ drawn past := hid₀ ▸ start.pairing_drawn p₀ hp₀
  have codeDrawn : activationHash ∈ codes past := hcode₀ ▸ start.invite_code v₀ hv₀
  have lasts : (∃ p ∈ (store.after (past ++ later)).pairings, ∃ v ∈ (store.after (past ++ later)).invites,
      p.requestId = requestId ∧ v.activationCodeHash = activationHash ∧ v.instanceId = i ∧
        p.BoundTo v) ∨ Withdrawn requestId activationHash (store.after (past ++ later)) := by
    refine lasting_fresh (fun db => (∃ p ∈ db.pairings, ∃ v ∈ db.invites, p.requestId = requestId ∧
      v.activationCodeHash = activationHash ∧ v.instanceId = i ∧ p.BoundTo v) ∨
        Withdrawn requestId activationHash db) past later fresh
      (Or.inl (start.boundBy_iff.mp h)) ?_
    rintro mid op db' _ rfl b uuids codes change (⟨p, hp, v, hv, hid, hcode, hinst, hbound⟩ | gone)
    · obtain ⟨hp', hv'⟩ | ⟨_, hv', hp'⟩ :=
        change.keeps_bound p v hp hv hbound.1 hbound.2.1 hbound.2.2.2
      · exact Or.inl ⟨p, hp', v, hv', hid, hcode, hinst, hbound⟩
      · refine Or.inr ⟨fun x hx he => ?_, fun x hx he => ?_⟩
        · obtain ⟨hx, hne⟩ := hv' x hx
          rw [Table.eq_of_clash _ x v hx hv (Or.inr (Or.inl (he.trans hcode.symm)))] at hne
          exact hne rfl
        · obtain ⟨hx, hne⟩ := hp' x hx
          rw [Table.eq_of_clash _ x p hx hp (Or.inl (he.trans hid.symm))] at hne
          exact hne hbound.2.2.2
    · refine Or.inr ⟨fun x hx he => ?_, fun x hx he => ?_⟩
      · obtain ⟨x₀, hx₀, _, _, hc, _⟩ | ⟨_, hc⟩ := change.invite_origin x hx
        · exact gone.invites x₀ hx₀ (hc.trans he)
        · exact codes _ codeDrawn (he ▸ hc)
      · obtain ⟨x₀, hx₀, hr⟩ | hr := (change.pairing_origin x hx).1
        · exact gone.pairings x₀ hx₀ (hr.trans he)
        · exact uuids _ requestDrawn (he ▸ hr)
  obtain hb | hw := lasts
  · exact Or.inl ((bound_after _ fresh).boundBy_iff.mpr hb)
  · exact Or.inr hw

theorem spent_later (past later : List Op) (fresh : Fresh (past ++ later)) (activationHash : String)
    (hc : activationHash ∈ codes past) (h : Spent activationHash (store.after past)) :
    Spent activationHash (store.after (past ++ later)) := by
  refine lasting_fresh (Spent activationHash) past later fresh h ?_
  intro mid op db' _ _ _ _ codes change spent v hv he
  obtain ⟨v₀, hv₀, _, _, hcode, hkeep⟩ | ⟨_, hnew⟩ := change.invite_origin v hv
  · have cancelled := spent v₀ hv₀ (hcode.trans he)
    rw [← hkeep (by simp [cancelled])]
    exact cancelled
  · exact absurd (he ▸ hnew) (codes _ hc)

theorem gone_later (past later : List Op) (fresh : Fresh (past ++ later)) (i : Uuid)
    (hd : i ∈ drawn past) (h : Gone i (store.after past)) : Gone i (store.after (past ++ later)) := by
  refine lasting_fresh (Gone i) past later fresh h ?_
  intro mid op db' _ _ _ uuids _ change gone
  exact gone.change change (uuids i hd)

/-- In a run with fresh identifiers and codes an activated request and its code
stay with each other for good, a cancelled code activates nothing, and a deleted
host never comes back. -/
theorem codes_once_deletion_final (past : List Op) (op : Op) (later : List Op)
    (fresh : Fresh (past ++ [op] ++ later)) :
    (∀ requestId activationHash i, Activated past op requestId activationHash i →
      (∀ f requestId' activationHash' actor credentialId now auditedAt i',
        (activate f requestId' activationHash' actor credentialId now auditedAt
          (store.after (past ++ [op] ++ later))).1 = .ok (.active i') →
        requestId' = requestId ∨ activationHash' = activationHash →
        requestId' = requestId ∧ activationHash' = activationHash ∧ i' = i) ∧
      ((∀ mid next, (mid ++ [next]).IsPrefix later → ¬Deleted (past ++ [op] ++ mid) next i) →
        Replayed requestId activationHash i (store.after (past ++ [op] ++ later)))) ∧
    (∀ v ∈ (store.after past).invites, Cancelled past op v.inviteId →
      ∀ f requestId actor credentialId now auditedAt i,
        (activate f requestId v.activationCodeHash actor credentialId now auditedAt
          (store.after (past ++ [op] ++ later))).1 ≠ .ok (.active i)) ∧
    ∀ i, Deleted past op i → Gone i (store.after (past ++ [op] ++ later)) ∧
      (∀ tokenHash, hostForToken tokenHash (store.after (past ++ [op] ++ later)) ≠ some i) ∧
      TurnedAway i (store.after (past ++ [op] ++ later)) := by
  have before := (fresh_append _ _ fresh).1
  have bPast := bound_after past (fresh_closed _ _ before)
  have b := bound_after _ fresh
  refine ⟨?_, ?_, ?_⟩
  · rintro requestId activationHash i ⟨⟨f, actor, credentialId, now, auditedAt, rfl⟩, hr⟩
    have answer : (activate f requestId activationHash actor credentialId now auditedAt
        (store.after past)).1 = .ok (.active i) := Reply.activate.inj hr
    have bound : BoundBy (store.after (past ++ [.activate f requestId activationHash actor
        credentialId now auditedAt])) requestId activationHash i := by
      rw [Machine.after_concat]
      change BoundBy (activate f requestId activationHash actor credentialId now auditedAt
        (store.after past)).2 requestId activationHash i
      exact boundBy_of_active f requestId activationHash actor credentialId now auditedAt _ i bPast
        answer
    refine ⟨?_, fun kept => b.replayed (boundBy_later _ later fresh requestId activationHash i bound kept)⟩
    intro f' requestId' activationHash' actor' credentialId' now' auditedAt' i'
    exact b.only_one (settled_later _ later fresh requestId activationHash i bound) f' requestId'
      activationHash' actor' credentialId' now' auditedAt' i'
  · rintro v hv ⟨⟨f, actor, cancelledAt, auditedAt, rfl⟩, hr⟩ f' requestId actor' credentialId now
      auditedAt' i
    have answer : (cancelInvite f v.inviteId actor cancelledAt auditedAt (store.after past)).1 =
        .ok .cancelled := Reply.cancel.inj hr
    have spent : Spent v.activationCodeHash (store.after (past ++ [.cancelInvite f v.inviteId actor
        cancelledAt auditedAt])) := by
      rw [Machine.after_concat]
      change Spent v.activationCodeHash (cancelInvite f v.inviteId actor cancelledAt auditedAt
        (store.after past)).2
      exact spent_of_cancelled f v actor cancelledAt auditedAt _ hv answer
    refine b.spent_inactive (spent_later _ later fresh _ ?_ spent) f' actor' credentialId now
      auditedAt' i
    exact mem_codes_concat _ _ _ (bPast.invite_code v hv)
  · rintro i ⟨⟨f, actor, auditedAt, rfl⟩, hr⟩
    have answer : (deleteHost f i actor auditedAt (store.after past)).1 = .ok true :=
      Reply.changed.inj hr
    obtain ⟨he, ⟨host, hm, hid⟩⟩ : Gone i (deleteHost f i actor auditedAt (store.after past)).2 ∧
        HasHost (store.after past) i := by
      obtain ⟨_, hne⟩ | ⟨_, hh, he⟩ :=
        deleteHost_cases f i actor auditedAt (store.after past) _ _ Prod.mk.eta.symm
      · exact absurd answer hne
      · exact ⟨he ▸ Gone.of_deleted i _, hh⟩
    have known : i ∈ drawn past := by
      obtain ⟨_, v, hv, _, hi⟩ := bPast.host_active host hm
      rw [← hid, ← hi]
      exact (bPast.invite_drawn v hv).2
    have gone : Gone i (store.after (past ++ [.deleteHost f i actor auditedAt] ++ later)) := by
      refine gone_later _ later fresh i (mem_drawn_concat _ _ _ known) ?_
      rw [Machine.after_concat]
      exact he
    exact ⟨gone, gone.no_token, gone.turnedAway⟩

theorem codes_once_deletion_final_laptop :
    activate .none ⟨3⟩ "code hash" "admin" ⟨5⟩ (noon.plusSeconds 86400) noon
      (store.after laptopActive) = (.ok (.active ⟨2⟩), store.after laptopActive) ∧
    Gone ⟨2⟩ (store.after (laptopActive ++ [.deleteHost .none ⟨2⟩ "admin" noon])) := by
  have activated : Activated laptopPaired (.activate .none ⟨3⟩ "code hash" "admin" ⟨4⟩ noon noon)
      ⟨3⟩ "code hash" ⟨2⟩ := by
    refine ⟨⟨_, _, _, _, _, rfl⟩, congrArg Reply.activate ?_⟩
    decide +kernel
  have deleted : Deleted laptopActive (.deleteHost .none ⟨2⟩ "admin" noon) ⟨2⟩ := by
    refine ⟨⟨_, _, _, rfl⟩, congrArg Reply.changed ?_⟩
    decide +kernel
  have fresh : Fresh (laptopActive ++ [.deleteHost .none ⟨2⟩ "admin" noon] ++ []) := by
    simp [Fresh, drawn, codes, laptopActive, laptopPaired, Op.uuids, Op.codes]
  have final := codes_once_deletion_final laptopActive (.deleteHost .none ⟨2⟩ "admin" noon) [] fresh
  have once := codes_once_deletion_final laptopPaired
    (.activate .none ⟨3⟩ "code hash" "admin" ⟨4⟩ noon noon) []
    (by simpa [laptopActive] using fresh_closed _ _ (fresh_append _ _ fresh).1)
  rw [List.append_nil] at final once
  refine ⟨((once.1 _ _ _ activated).2 ?_).answer _ _ _ _, (final.2.2 _ deleted).1⟩
  intro mid next hp
  simp at hp

end HostMonitoring.Store
