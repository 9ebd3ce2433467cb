import HostMonitoring.Store.Batching
import HostMonitoring.Store.Changes

namespace HostMonitoring.Store

open HostMonitoring.Framework
open HostMonitoring.Framework.Tx
open HostMonitoring.Protocol

/-- Every host is active, and every report row has its host. -/
structure Housed (db : Db) : Prop where
  active : ∀ h ∈ db.hosts, h.lifecycleStatus = .active
  report : ∀ r ∈ db.reports, HasHost db r.hostId

namespace Housed

variable {db db' : Db}

theorem columns (housed : Housed db) (h : ColumnsOnly db db') : Housed db' where
  active host hm := by
    obtain ⟨host₀, hm₀, he⟩ := Table.mem_of_map_eq _ _ _ h.hosts host hm
    have status : host₀.lifecycleStatus = host.lifecycleStatus := congrArg Prod.snd he
    rw [← status]
    exact housed.active host₀ hm₀
  report r hr := by
    rw [h.hasHost]
    obtain ⟨r₀, hr₀, he⟩ | hh := h.reports r hr
    · rw [← he]
      exact housed.report r₀ hr₀
    · exact hh

theorem change (housed : Housed db) {op : Op} (h : Change db op db') : Housed db' := by
  cases h with
  | columns h => exact housed.columns h
  | invited h => exact ⟨housed.active, housed.report⟩
  | cancelled mem id pending h => exact ⟨housed.active, housed.report⟩
  | cleaned => exact ⟨housed.active, housed.report⟩
  | requested h => exact ⟨housed.active, housed.report⟩
  | activated h =>
    have hosts (x : MonitoredHost) := Table.mem_insert? _ _ _ x h.hosts
    refine ⟨fun host hm => ?_, fun r hr => ?_⟩
    · obtain hm | rfl := (hosts host).mp hm
      · exact housed.active host hm
      · rfl
    · rw [h.reports] at hr
      obtain ⟨host, hm, hid⟩ := housed.report r hr
      exact ⟨host, (hosts host).mpr (Or.inl hm), hid⟩
  | @deleted f hostId actor auditedAt audit h =>
    refine ⟨fun host hm => housed.active host ((Table.mem_delete _ _ _).mp hm).1, fun r hr => ?_⟩
    obtain ⟨hr, other⟩ := (Table.mem_delete _ _ _).mp hr
    obtain ⟨host, hm, hid⟩ := housed.report r hr
    refine ⟨host, (Table.mem_delete _ _ _).mpr ⟨hm, ?_⟩, hid⟩
    rw [hid]
    exact other

end Housed

theorem housed_after (ops : List Op) : Housed (store.after ops) :=
  store.invariant (fun _ => True) (fun _ => Housed) (fun _ _ _ => trivial)
    ⟨fun h hm => absurd hm (Table.not_mem_empty h), fun r hr => absurd hr (Table.not_mem_empty r)⟩
    (fun _ op db _ housed => housed.change (exec_change op db)) ops trivial

/-- The token opens the host. -/
def OpensHost (tokenHash : String) (hostId : Uuid) (db : Db) : Prop :=
  ∃ c ∈ db.credentials, c.hostId = hostId ∧ c.tokenHash = tokenHash ∧ c.revokedAt = none

theorem ColumnsOnly.opensHost {tokenHash : String} {hostId : Uuid} {db db' : Db}
    (h : ColumnsOnly db db') : OpensHost tokenHash hostId db' ↔ OpensHost tokenHash hostId db := by
  have carried : ∀ t t' : Table ClientCredential,
      t'.rows.map ClientCredential.identity = t.rows.map ClientCredential.identity →
      (∃ c ∈ t', c.hostId = hostId ∧ c.tokenHash = tokenHash ∧ c.revokedAt = none) →
      ∃ c ∈ t, c.hostId = hostId ∧ c.tokenHash = tokenHash ∧ c.revokedAt = none := by
    rintro t t' he ⟨c, hc, hhost, htoken, hrevoked⟩
    obtain ⟨c', hc', he⟩ := Table.mem_of_map_eq _ _ _ he c hc
    have host : c'.hostId = c.hostId := congrArg (fun x => x.2.1) he
    have token : c'.tokenHash = c.tokenHash := congrArg (fun x => x.2.2.1) he
    have revoked : c'.revokedAt = c.revokedAt := congrArg (fun x => x.2.2.2) he
    exact ⟨c', hc', host.trans hhost, token.trans htoken, revoked.trans hrevoked⟩
  exact ⟨carried _ _ h.credentials, carried _ _ h.credentials.symm⟩

/-- A report under the identifiers of a stored row, whatever else it says, with a
token of that host. -/
structure Repeats (write : ReportWrite) (row : MetricReport) (db : Db) : Prop where
  host_id : Uuid.parseStr write.report.host.id = some row.hostId
  report_id : Uuid.parseStr write.report.reportId = some row.reportId
  token : OpensHost write.tokenHash row.hostId db

/-- An active host whose token it is may report. -/
theorem authorizedHost_of_opens {db : Db} {tokenHash : String} {hostId : Uuid} (housed : Housed db)
    (hasHost : HasHost db hostId) (token : OpensHost tokenHash hostId db) :
    ∃ host, authorizedHost hostId tokenHash db = some host := by
  obtain ⟨host, hm, hid⟩ := hasHost
  obtain ⟨c, hc, hhost, htoken, hrevoked⟩ := token
  have inForce : (db.credentials.any fun c => decide (c.hostId = host.hostId) &&
      decide (c.tokenHash = tokenHash) && c.revokedAt.isNone) = true :=
    (Table.any_eq_true _ _).mpr ⟨c, hc, by simp [hhost, hid, htoken, hrevoked]⟩
  refine ⟨host, Table.find?_eq_some _ _ _ hm ?_ fun h hh hp => ?_⟩
  · rw [inForce]
    simp [hid, housed.active host hm]
  · simp only [Bool.and_eq_true, decide_eq_true_eq] at hp
    exact db.hosts.eq_of_clash h host hh hm (hp.1.1.trans hid.symm)

/-- A report whose identifier is taken finds the row and skips every later
statement, also where it would be the newest. -/
theorem storeReportInTransaction_known {db : Db} {write : ReportWrite} {hostId : Uuid}
    {row : MetricReport} (housed : Housed db) (hr : row ∈ db.reports) (hasHost : HasHost db hostId)
    (host_id : Uuid.parseStr write.report.host.id = some hostId)
    (report_id : Uuid.parseStr write.report.reportId = some row.reportId)
    (token : OpensHost write.tokenHash hostId db) (receivedAt : DateTime) :
    (storeReportInTransaction (fun _ => none) write receivedAt).run db =
      (if row.hostId = hostId then .ok (false, row.receivedAt)
        else .error (.report .reportIdConflict), db) := by
  obtain ⟨host, hhost⟩ := authorizedHost_of_opens housed hasHost token
  have refused : ∀ latest, insertReport (reportRow write row.reportId hostId receivedAt latest)
      db = .ok (none, db) := by
    intro latest
    have clash : db.reports.insert? (reportRow write row.reportId hostId receivedAt latest) =
        none := (Table.insert?_eq_none _ _).mpr ⟨row, hr, rfl⟩
    rw [insertReport, clash]
  have found : (db.reports.find? fun r => decide (r.reportId = row.reportId)) = some row :=
    Table.find?_eq_some _ _ _ hr (decide_eq_true rfl)
      fun r hm hid => db.reports.eq_of_clash r row hm hr (of_decide_eq_true hid)
  unfold storeReportInTransaction
  simp only [host_id, report_id, run_bind, query, execute, hhost, refused, found]
  split_ifs
  · rfl
  · rfl

section
variable {db : Db} {row : MetricReport} {write : ReportWrite}

theorem storeReportInTransaction_repeat (housed : Housed db) (hr : row ∈ db.reports)
    (again : Repeats write row db) (receivedAt : DateTime) :
    (storeReportInTransaction (fun _ => none) write receivedAt).run db =
      (.ok (false, row.receivedAt), db) := by
  rw [storeReportInTransaction_known housed hr (housed.report row hr) again.host_id again.report_id
    again.token, if_pos rfl]

theorem storeReport_repeat (housed : Housed db) (hr : row ∈ db.reports)
    (again : Repeats write row db) (receivedAt : DateTime) :
    storeReport .none write receivedAt db = (.ok (false, row.receivedAt), db) := by
  have body := storeReportInTransaction_repeat housed hr again receivedAt
  have whole := transact_commitOrRollback (storeReportInTransaction (fun _ => none) write receivedAt) db
  rw [body] at whole
  exact whole

theorem savepoint_repeat (housed : Housed db) (hr : row ∈ db.reports) (again : Repeats write row db)
    (receivedAt : DateTime) :
    (savepoint (.quiet _) (storeReportInTransaction (fun _ => none) write receivedAt)).run db =
      (.ok (.ok (false, row.receivedAt)), db) := by
  have body := storeReportInTransaction_repeat housed hr again receivedAt
  simp [savepoint, Boundary.quiet, body]

/-- Whatever the database makes of its statements, a repeated report writes nothing. -/
theorem storeReport_repeat_frame (hr : row ∈ db.reports) (again : Repeats write row db) (f : Faults)
    (receivedAt : DateTime) : (storeReport f write receivedAt db).2 = db := by
  obtain ⟨he, _⟩ | ⟨_, hostId, reportId, host, inserted, auth, acc⟩ :=
    storeReport_cases f write receivedAt db _ _ Prod.mk.eta.symm
  · exact he
  · have same : row.reportId = reportId :=
      Option.some.inj (again.report_id.symm.trans auth.report_id)
    exact absurd same (acc.fresh_report row hr)

theorem storeReport_repeats (housed : Housed db) (hr : row ∈ db.reports)
    (deliveries : List (ReportWrite × DateTime)) (again : ∀ d ∈ deliveries, Repeats d.1 row db) :
    oneByOne (fun d => storeReport .none d.1 d.2) deliveries db =
      (List.replicate deliveries.length (.ok (false, row.receivedAt)), db) := by
  induction deliveries with
  | nil => rfl
  | cons d deliveries ih =>
    have first := storeReport_repeat housed hr (again d List.mem_cons_self) d.2
    have rest := ih fun d hd => again d (List.mem_cons_of_mem _ hd)
    simp only [oneByOne, first, rest, List.length_cons, List.replicate_succ]

end

/-- One report of a batch in its savepoint. -/
def storeItem (item : BatchItem) : Tx Db StoreError (Except StoreError (Bool × DateTime)) :=
  savepoint item.faults.boundary
    (storeReportInTransaction item.faults.statement item.write item.receivedAt)

theorem storeItems_columns (items : List BatchItem) (db db' : Db)
    (results : List (Except StoreError (Bool × DateTime)))
    (h : (items.mapM storeItem).run db = (.ok results, db')) : ColumnsOnly db db' := by
  have committed := storeReportBatch_commit (.quiet _) items db db' results rfl rfl h
  have columns := storeReportBatch_columns (.quiet _) items db
  rwa [committed] at columns

/-- Once a row is stored, the savepoints of its repetitions change nothing. -/
theorem storeItems_repeats {db : Db} {row : MetricReport} (housed : Housed db)
    (hr : row ∈ db.reports) (replays : List BatchItem)
    (again : ∀ item ∈ replays, item.faults = .none ∧ Repeats item.write row db) :
    (replays.mapM storeItem).run db =
      (.ok (List.replicate replays.length (.ok (false, row.receivedAt))), db) := by
  induction replays with
  | nil => rfl
  | cons item replays ih =>
    obtain ⟨quiet, hrepeat⟩ := again item List.mem_cons_self
    have first : (storeItem item).run db = (.ok (.ok (false, row.receivedAt)), db) := by
      rw [storeItem, quiet]
      exact savepoint_repeat housed hr hrepeat item.receivedAt
    have rest := ih fun item hi => again item (List.mem_cons_of_mem _ hi)
    rw [List.mapM_cons, bind_ok]
    refine ⟨_, db, first, ?_⟩
    rw [bind_ok]
    exact ⟨_, db, rest, rfl⟩

/-- Another delivery of a report, whatever else it says, with a token of its host. -/
structure Redelivers (write first : ReportWrite) (db : Db) : Prop where
  host_id : Uuid.parseStr write.report.host.id = Uuid.parseStr first.report.host.id
  report_id : Uuid.parseStr write.report.reportId = Uuid.parseStr first.report.reportId
  token : ∀ hostId, Uuid.parseStr first.report.host.id = some hostId →
    OpensHost write.tokenHash hostId db

/-- After an accepted report, every further delivery of it repeats its row. -/
theorem storeItem_accepted (item : BatchItem) (t : DateTime) (db db' : Db)
    (h : (storeItem item).run db = (.ok (.ok (true, t)), db')) :
    ∃ row ∈ db'.reports, row.receivedAt = t ∧ ∀ write db₀, Redelivers write item.write db₀ →
      ColumnsOnly db₀ db' → Repeats write row db' := by
  have alone : storeSeparately item db = (.ok (true, t), db') := savepoint_ok _ _ _ _ _ h
  obtain ⟨_, he | ⟨_, _, _, _, _, _, _, _, he⟩⟩ | ⟨he, hostId, reportId, host, inserted, auth, acc⟩ :=
    storeReport_cases _ _ _ _ _ _ alone
  · obtain ⟨e, he⟩ := he
    cases he
  · cases he
  · have received : t = item.receivedAt := by simpa using he
    refine ⟨_, acc.new_row, received.symm, fun write db₀ again columns => ?_⟩
    exact ⟨again.host_id.trans auth.host_id, again.report_id.trans auth.report_id,
      columns.opensHost.mpr (again.token hostId auth.host_id)⟩

/-- Further deliveries of a report inside a batch, right after the one that was
accepted, get its receipt and could as well have been left out. -/
theorem storeReportBatch_redelivers {db db' : Db} (housed : Housed db)
    (boundary : Boundary StoreError) (front replays back : List BatchItem) (first : BatchItem)
    (t : DateTime) (frontResults rest : List (Except StoreError (Bool × DateTime)))
    (again : ∀ item ∈ replays, item.faults = .none ∧ Redelivers item.write first.write db)
    (length : front.length = frontResults.length)
    (h : storeReportBatch boundary (front ++ first :: (replays ++ back)) db =
      (.ok (frontResults ++ .ok (true, t) :: rest), db')) :
    ∃ backResults, rest = List.replicate replays.length (.ok (false, t)) ++ backResults ∧
      storeReportBatch boundary (front ++ first :: back) db =
        (.ok (frontResults ++ .ok (true, t) :: backResults), db') := by
  obtain ⟨⟨e, he⟩, _⟩ | ⟨_, hr, body, _⟩ := storeReportBatch_cases _ _ _ _ _ h
  · cases he
  cases hr
  obtain ⟨hb, hc⟩ := boundary_of_ok boundary _ db db' _ _
    ((bind_ok _ _ _ _ _).mpr ⟨_, db', body, rfl⟩) h
  obtain ⟨r₁, r₂, db₁, hresults, hfront, htail⟩ := (mapM_append_ok storeItem _ _ _ _ _).mp body
  obtain ⟨rfl, rfl⟩ := List.append_inj hresults
    (length.symm.trans (mapM_length storeItem _ _ _ _ hfront).symm)
  rw [List.mapM_cons, bind_ok] at htail
  obtain ⟨r, db₂, hfirst, htail⟩ := htail
  rw [bind_ok] at htail
  obtain ⟨rest', db₃, hrest, htail⟩ := htail
  rw [pure_ok] at htail
  obtain ⟨hcons, rfl⟩ := htail
  cases hcons
  obtain ⟨row, hrow, received, repeats⟩ := storeItem_accepted first t db₁ db₂ hfirst
  have before := storeItems_columns front db db₁ _ hfront
  have columns : ColumnsOnly db db₂ := by
    refine before.trans ?_
    have alone : storeSeparately first db₁ = (.ok (true, t), db₂) := savepoint_ok _ _ _ _ _ hfirst
    have kept := storeReport_columns ⟨.quiet _, first.faults.statement, first.faults.ties⟩ first.write first.receivedAt
      db₁
    unfold storeSeparately at alone
    rwa [alone] at kept
  obtain ⟨r₃, backResults, db₄, rfl, hreplays, hback⟩ :=
    (mapM_append_ok storeItem _ _ _ _ _).mp hrest
  have idle := storeItems_repeats (housed.columns columns) hrow replays fun item hi =>
    ⟨(again item hi).1, repeats _ db (again item hi).2 columns⟩
  rw [hreplays, received] at idle
  simp only [Prod.mk.injEq, Except.ok.injEq] at idle
  obtain ⟨rfl, rfl⟩ := idle
  refine ⟨backResults, rfl, storeReportBatch_commit boundary _ db _ _ hb hc ?_⟩
  refine (mapM_append_ok storeItem _ _ _ _ _).mpr ⟨_, _, db₁, rfl, hfront, ?_⟩
  rw [List.mapM_cons, bind_ok]
  refine ⟨_, db₄, hfirst, ?_⟩
  rw [bind_ok]
  exact ⟨_, _, hback, rfl⟩

/-- In every state the store can reach, deliveries of a report whose row is still
there answer with its receipt and change nothing: one, any number of them, and
those that follow the first delivery inside one batch. -/
theorem replay_leaves_store (ops : List Op) :
    (∀ row ∈ (store.after ops).reports, ∀ deliveries : List (ReportWrite × DateTime),
      (∀ d ∈ deliveries, Repeats d.1 row (store.after ops)) →
        oneByOne (fun d => storeReport .none d.1 d.2) deliveries (store.after ops) =
          (List.replicate deliveries.length (.ok (false, row.receivedAt)), store.after ops) ∧
        ∀ d ∈ deliveries, ∀ f, (storeReport f d.1 d.2 (store.after ops)).2 = store.after ops) ∧
    ∀ boundary front first replays back t frontResults rest db',
      (∀ item ∈ replays, item.faults = .none ∧
        Redelivers item.write first.write (store.after ops)) →
      front.length = frontResults.length →
      storeReportBatch boundary (front ++ first :: (replays ++ back)) (store.after ops) =
        (.ok (frontResults ++ .ok (true, t) :: rest), db') →
      ∃ backResults, rest = List.replicate replays.length (.ok (false, t)) ++ backResults ∧
        storeReportBatch boundary (front ++ first :: back) (store.after ops) =
          (.ok (frontResults ++ .ok (true, t) :: backResults), db') := by
  have housed := housed_after ops
  constructor
  · intro row hr deliveries again
    refine ⟨storeReport_repeats housed hr deliveries again, fun d hd f => ?_⟩
    exact storeReport_repeat_frame hr (again d hd) f d.2
  · intro boundary front first replays back t frontResults rest db' again length h
    exact storeReportBatch_redelivers housed boundary front replays back first t frontResults rest
      again length h

/-- A delivery of the laptop's report 7 at some second after noon. -/
def laptopDelivery (second : Int) : BatchItem :=
  ⟨laptopReport "00000000-0000-0000-0000-000000000007" (noon.plusSeconds second),
    noon.plusSeconds second, .none⟩

theorem replay_leaves_store_laptop :
    (∃ row ∈ (store.after laptopReported).reports, row.receivedAt = noon ∧
      oneByOne (fun d => storeReport .none d.1 d.2)
        [(laptopReport "00000000-0000-0000-0000-000000000005" (noon.plusSeconds 60), noon)]
        (store.after laptopReported) = ([.ok (false, noon)], store.after laptopReported)) ∧
    ∃ db', storeReportBatch (.quiet _) [laptopDelivery 20] (store.after laptopReported) =
      (.ok [.ok (true, noon.plusSeconds 20)], db') := by
  obtain ⟨row, hrow, hid, hhost, received⟩ : ∃ row ∈ (store.after laptopReported).reports.rows,
      row.reportId = ⟨5⟩ ∧ row.hostId = ⟨2⟩ ∧ row.receivedAt = noon := by decide +kernel
  have opens : OpensHost "token" ⟨2⟩ (store.after laptopReported) := by
    change ∃ c ∈ (store.after laptopReported).credentials.rows, _
    decide +kernel
  have parsed : Uuid.parseStr "00000000-0000-0000-0000-000000000002" = some ⟨2⟩ ∧
      Uuid.parseStr "00000000-0000-0000-0000-000000000005" = some ⟨5⟩ := by decide +kernel
  obtain ⟨alone, batched⟩ := replay_leaves_store laptopReported
  constructor
  · refine ⟨row, hrow, received, ?_⟩
    have answer := (alone row hrow
      [(laptopReport "00000000-0000-0000-0000-000000000005" (noon.plusSeconds 60), noon)] ?_).1
    · rw [answer, received]
      rfl
    · intro d hd
      rw [List.mem_singleton.mp hd]
      exact ⟨by rw [hhost]; exact parsed.1, by rw [hid]; exact parsed.2, by rw [hhost]; exact opens⟩
  · have results : (storeReportBatch (.quiet _) [laptopDelivery 20, laptopDelivery 40]
        (store.after laptopReported)).1 = .ok [.ok (true, noon.plusSeconds 20),
          .ok (false, noon.plusSeconds 20)] := by decide +kernel
    have again : ∀ item ∈ [laptopDelivery 40], item.faults = .none ∧
        Redelivers item.write (laptopDelivery 20).write (store.after laptopReported) := by
      intro item hi
      rw [List.mem_singleton.mp hi]
      refine ⟨rfl, rfl, rfl, fun hostId hh => ?_⟩
      have same : hostId = ⟨2⟩ := Option.some.inj (hh.symm.trans parsed.1)
      rw [same]
      exact opens
    obtain ⟨backResults, hrest, hbatch⟩ := batched (.quiet _) [] (laptopDelivery 20)
      [laptopDelivery 40] [] (noon.plusSeconds 20) [] _ _ again rfl (Prod.ext results rfl)
    have nothing : backResults = [] := (List.cons.inj hrest).2.symm
    rw [nothing] at hbatch
    exact ⟨_, hbatch⟩

end HostMonitoring.Store
