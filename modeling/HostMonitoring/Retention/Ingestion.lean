import HostMonitoring.Retention.LedgerRuns

namespace HostMonitoring.Retention

open HostMonitoring.Framework
open HostMonitoring.Framework.Tx
open HostMonitoring.Store

/-- The host and the report a write is about. -/
def Names (w : ReportWrite) (hostId reportId : Uuid) : Prop :=
  Uuid.parseStr w.report.host.id = some hostId ∧ Uuid.parseStr w.report.reportId = some reportId

instance (w : ReportWrite) (hostId reportId : Uuid) : Decidable (Names w hostId reportId) :=
  inferInstanceAs (Decidable (_ ∧ _))

def rowOf (hostId reportId : Uuid) (r : MetricReport) : Bool :=
  decide (r.hostId = hostId) && decide (r.reportId = reportId)

theorem rowOf_iff (hostId reportId : Uuid) (r : MetricReport) :
    rowOf hostId reportId r = true ↔ r.hostId = hostId ∧ r.reportId = reportId := by
  simp [rowOf]

/-- How often the store answered that it accepted a report. -/
def acceptances (hostId reportId : Uuid) (noted : List ReportWrite) : Nat :=
  noted.countP fun w => decide (Names w hostId reportId)

def contributes (hostId reportId : Uuid) : Event → Bool
  | .merged row => rowOf hostId reportId row
  | _ => false

/-- How many samples of a report went into hourly rows. -/
def contributions (hostId reportId : Uuid) (history : List Event) : Nat :=
  history.countP (contributes hostId reportId)

/-- Whether a raw row of the report still has to be merged. -/
def waiting (hostId reportId : Uuid) (db : Db) : Nat :=
  if db.reports.any fun r => rowOf hostId reportId r && r.aggregatedAt.isNone then 1 else 0

theorem acceptances_concat (hostId reportId : Uuid) (noted : List ReportWrite) (w : ReportWrite) :
    acceptances hostId reportId (noted ++ [w]) =
      acceptances hostId reportId noted + if Names w hostId reportId then 1 else 0 := by
  simp [acceptances, List.countP_append, List.countP_cons]

theorem contributions_events (hostId reportId : Uuid) (history : List Event) (op : Op) (db : Db) :
    contributions hostId reportId (history ++ events op db) =
      contributions hostId reportId history + (merges op db).countP (rowOf hostId reportId) := by
  have inserted : ∀ ids : List Uuid,
      (ids.map Event.inserted).countP (contributes hostId reportId) = 0 := by
    intro ids
    simp [List.countP_eq_zero, contributes]
  have opened : ∀ keys : List (Uuid × DateTime),
      (keys.map Event.opened).countP (contributes hostId reportId) = 0 := by
    intro keys
    simp [List.countP_eq_zero, contributes]
  have deleted : ∀ keys : List (Uuid × DateTime),
      (keys.map Event.deleted).countP (contributes hostId reportId) = 0 := by
    intro keys
    simp [List.countP_eq_zero, contributes]
  have merged : ∀ rows : List MetricReport,
      (rows.map Event.merged).countP (contributes hostId reportId) =
        rows.countP (rowOf hostId reportId) := by
    intro rows
    rw [List.countP_map]
    rfl
  unfold contributions events
  rw [List.countP_append, List.countP_append, List.countP_append, List.countP_append, inserted,
    opened, merged, deleted]
  omega

theorem waiting_le_one (hostId reportId : Uuid) (db : Db) : waiting hostId reportId db ≤ 1 := by
  unfold waiting
  split_ifs <;> omega

theorem waiting_eq_one (hostId reportId : Uuid) (db : Db) (r : MetricReport) (hr : r ∈ db.reports)
    (hof : rowOf hostId reportId r = true) (unmarked : r.aggregatedAt = none) :
    waiting hostId reportId db = 1 := by
  refine if_pos ((Table.any_eq_true _ _).mpr ⟨r, hr, ?_⟩)
  simp [hof, unmarked]

/-- A row that waits afterwards was waiting before, or it is new. -/
theorem waiting_le (hostId reportId : Uuid) (db db' : Db)
    (origin : ∀ r' ∈ db'.reports, rowOf hostId reportId r' = true → r'.aggregatedAt = none →
      ∃ r ∈ db.reports, rowOf hostId reportId r = true ∧ r.aggregatedAt = none) :
    waiting hostId reportId db' ≤ waiting hostId reportId db := by
  by_cases hw : (db'.reports.any fun r => rowOf hostId reportId r && r.aggregatedAt.isNone) = true
  · obtain ⟨r', hr', hp⟩ := (Table.any_eq_true _ _).mp hw
    simp only [Bool.and_eq_true, Option.isNone_iff_eq_none] at hp
    obtain ⟨r, hr, hof, unmarked⟩ := origin r' hr' hp.1 hp.2
    rw [waiting_eq_one hostId reportId db r hr hof unmarked]
    exact waiting_le_one hostId reportId db'
  · unfold waiting
    rw [if_neg hw]
    exact Nat.zero_le _

theorem waiting_accept (hostId reportId : Uuid) {write : ReportWrite} {receivedAt : DateTime}
    {hostId' reportId' : Uuid} {host : MonitoredHost} {inserted : Table MetricReport} {db db' : Db}
    (auth : Authorized write hostId' reportId' host db)
    (acc : Accepted write receivedAt hostId' reportId' host inserted db db') :
    waiting hostId reportId db' ≤
      waiting hostId reportId db + if Names write hostId reportId then 1 else 0 := by
  by_cases hn : Names write hostId reportId
  · rw [if_pos hn]
    have most := waiting_le_one hostId reportId db'
    omega
  · rw [if_neg hn, Nat.add_zero]
    refine waiting_le hostId reportId db db' fun r' hr' hof unmarked => ?_
    obtain rfl | ⟨r, hr, rfl | ⟨_, rfl⟩⟩ := acc.row_origin r' hr'
    · obtain ⟨hh, hi⟩ := (rowOf_iff _ _ _).mp hof
      exact absurd ⟨auth.host_id.trans (congrArg some hh), auth.report_id.trans (congrArg some hi)⟩ hn
    · exact ⟨_, hr, hof, unmarked⟩
    · exact ⟨r, hr, hof, unmarked⟩

/-- A batch takes at most the one waiting row of a report, which then no longer waits. -/
theorem waiting_aggregate (hostId reportId : Uuid) (f : Faults) (cutoff now : DateTime)
    (batchSize : Nat) (db : Db) :
    ((merges (.aggregateRawBatch f cutoff now batchSize) db).countP (rowOf hostId reportId)) +
      waiting hostId reportId (aggregateRawBatch f cutoff now batchSize db).2 ≤
        waiting hostId reportId db := by
  obtain ⟨same, nothing⟩ | ⟨merged, i, u, db₁, _, he⟩ := aggregate_merges f cutoff now batchSize db
  · rw [same, nothing, List.countP_nil, Nat.zero_add]
  · rw [merged]
    have after : (aggregateRawBatch f cutoff now batchSize db).2.reports = markAggregated now
        ((pendingReports cutoff batchSize db).map MetricReport.reportId) db.reports := by rw [he]
    have origin : ∀ r' ∈ (aggregateRawBatch f cutoff now batchSize db).2.reports,
        r'.aggregatedAt = none → r' ∈ db.reports ∧
          toMark ((pendingReports cutoff batchSize db).map MetricReport.reportId) r' = false := by
      intro r' hr' unmarked
      rw [after] at hr'
      obtain ⟨r, _, _, rfl⟩ | old := (mem_markAggregated _ _ _ _).mp hr'
      · cases unmarked
      · exact old
    by_cases taken : ∃ r ∈ pendingReports cutoff batchSize db, rowOf hostId reportId r = true
    · obtain ⟨r, hr, hof⟩ := taken
      obtain ⟨hm, unmarked⟩ := pending_unmarked cutoff batchSize db r hr
      have mark : toMark ((pendingReports cutoff batchSize db).map MetricReport.reportId) r =
          true := by
        have listed : r.reportId ∈ (pendingReports cutoff batchSize db).map MetricReport.reportId :=
          List.mem_map.mpr ⟨r, hr, rfl⟩
        simp only [toMark, unmarked, Option.isNone_none, Bool.true_and, decide_eq_true_eq]
        exact listed
      have once : ((pendingReports cutoff batchSize db).countP (rowOf hostId reportId)) ≤ 1 := by
        have all := pending_once cutoff batchSize db r hm
        rw [if_pos mark] at all
        rw [← all]
        refine List.countP_mono_left fun x _ hx => decide_eq_true ?_
        exact ((rowOf_iff _ _ _).mp hx).2.trans ((rowOf_iff _ _ _).mp hof).2.symm
      have none_left : waiting hostId reportId (aggregateRawBatch f cutoff now batchSize db).2 =
          0 := by
        refine if_neg fun hw => ?_
        obtain ⟨r', hr', hp⟩ := (Table.any_eq_true _ _).mp hw
        simp only [Bool.and_eq_true, Option.isNone_iff_eq_none] at hp
        obtain ⟨hm', hmark⟩ := origin r' hr' hp.2
        have hid : r'.reportId = r.reportId :=
          ((rowOf_iff _ _ _).mp hp.1).2.trans ((rowOf_iff _ _ _).mp hof).2.symm
        rw [db.reports.eq_of_clash r' r hm' hm hid, mark] at hmark
        cases hmark
      rw [none_left, waiting_eq_one hostId reportId db r hm hof unmarked]
      exact once
    · have zero : ((pendingReports cutoff batchSize db).countP (rowOf hostId reportId)) = 0 :=
        List.countP_eq_zero.mpr fun r hr hof => taken ⟨r, hr, hof⟩
      rw [zero, Nat.zero_add]
      exact waiting_le hostId reportId _ _ fun r' hr' hof unmarked =>
        ⟨r', (origin r' hr' unmarked).1, hof, unmarked⟩

/-- Every sample in the hourly rows, and a row still to be merged, was accepted once for itself. -/
theorem contributions_le (ops : List Op) (hostId reportId : Uuid) :
    contributions hostId reportId (ledger ops) + waiting hostId reportId (store.after ops) ≤
      acceptances hostId reportId (accepted ops) := by
  induction ops using List.reverseRecOn with
  | nil => exact Nat.zero_le _
  | append_singleton past op ih =>
    have history : ledger (past ++ [op]) = ledger past ++ events op (store.after past) :=
      store.observed_concat events past op
    have noted : accepted (past ++ [op]) = accepted past ++ op.accepts (store.after past) :=
      store.observed_concat Op.accepts past op
    have state : store.after (past ++ [op]) = (op.exec (store.after past)).2 :=
      store.after_concat past op
    rw [history, noted, state, contributions_events]
    by_cases hs : op.Stores
    · have nothing : merges op (store.after past) = [] := by
        refine merges_nil op _ fun f cutoff now batchSize he => ?_
        rw [he] at hs
        exact hs
      rw [nothing, List.countP_nil, Nat.add_zero]
      refine stores_keeps op hs (fun noted db => contributions hostId reportId (ledger past) +
        waiting hostId reportId db ≤ acceptances hostId reportId noted) ?_ _ _ ih
      intro noted db db' write receivedAt hostId' reportId' host inserted _ before auth acc
      have grows := waiting_accept hostId reportId auth acc
      rw [acceptances_concat]
      omega
    · rw [accepts_nil op _ hs, List.append_nil]
      have less : (merges op (store.after past)).countP (rowOf hostId reportId) +
          waiting hostId reportId (op.exec (store.after past)).2 ≤
            waiting hostId reportId (store.after past) := by
        by_cases ha : ∀ f cutoff now batchSize, op ≠ .aggregateRawBatch f cutoff now batchSize
        · obtain ⟨reports, _⟩ := exec_subset op (store.after past) hs ha
          rw [merges_nil op _ ha, List.countP_nil, Nat.zero_add]
          exact waiting_le hostId reportId _ _ fun r hr hof unmarked =>
            ⟨r, reports r hr, hof, unmarked⟩
        · push Not at ha
          obtain ⟨f, cutoff, now, batchSize, rfl⟩ := ha
          exact waiting_aggregate hostId reportId f cutoff now batchSize _
      omega

def rowIds (db : Db) : List (Uuid × Uuid) := db.reports.rows.map fun r => (r.hostId, r.reportId)

/-- The raw rows that were stored at some moment of a run, by host and report. -/
def everStored (ops : List Op) : List (Uuid × Uuid) :=
  store.observed (fun op db => rowIds (op.exec db).2) ops

/-- A report that was stored before and whose client may still report finds a
raw row with its identifier. -/
def StillStored (past : List Op) (w : ReportWrite) : Prop :=
  ∀ hostId reportId, Names w hostId reportId → (hostId, reportId) ∈ everStored past →
    (authorizedHost hostId w.tokenHash (store.after past)).isSome = true →
    knownReport (store.after past) reportId = true

/-- A run in which every redelivery comes before the raw row is deleted. -/
def Punctual (ops : List Op) : Prop :=
  ∀ past op, (past ++ [op]).IsPrefix ops → ∀ w ∈ op.writes, StillStored past w

theorem punctual_concat (past : List Op) (op : Op) :
    Punctual (past ++ [op]) ↔ Punctual past ∧ ∀ w ∈ op.writes, StillStored past w := by
  constructor
  · intro h
    refine ⟨fun past' op' hp => h past' op' ?_, h past op (List.prefix_refl _)⟩
    exact hp.trans (List.prefix_append past [op])
  · intro ⟨before, last⟩ past' op' hp
    obtain he | hp := List.prefix_concat_iff.mp hp
    · obtain ⟨hpast, hop⟩ := List.append_inj' he rfl
      rw [hpast, (List.cons.inj hop).1]
      exact last
    · exact before past' op' hp

theorem authorizedHost_isSome (hostId : Uuid) (tokenHash : String) (db : Db) :
    (authorizedHost hostId tokenHash db).isSome = true ↔
      ∃ h ∈ db.hosts, h.hostId = hostId ∧ h.lifecycleStatus = .active ∧
        ∃ c ∈ db.credentials, c.hostId = hostId ∧ c.tokenHash = tokenHash ∧ c.revokedAt = none := by
  constructor
  · intro h
    obtain ⟨host, hh⟩ := Option.isSome_iff_exists.mp h
    exact ⟨host, authorizedHost_eq_some _ _ _ _ hh⟩
  · intro ⟨h, hm, hid, active, c, hc, owner, token, live⟩
    cases hf : authorizedHost hostId tokenHash db with
    | some host => rfl
    | none =>
      have refused := (Table.find?_eq_none _ _).mp hf h hm
      have credential : (db.credentials.any fun c => decide (c.hostId = h.hostId) &&
          decide (c.tokenHash = tokenHash) && c.revokedAt.isNone) = true := by
        refine (Table.any_eq_true _ _).mpr ⟨c, hc, ?_⟩
        simp [owner, hid, token, live]
      simp [hid, active] at refused
      rw [hid, refused] at credential
      cases credential

/-- Storing reports authorizes nobody. -/
theorem authorized_before {write : ReportWrite} {hostId reportId : Uuid} {host : MonitoredHost}
    {db now : Db} (columns : ColumnsOnly db now) (auth : Authorized write hostId reportId host now) :
    (authorizedHost hostId write.tokenHash db).isSome = true := by
  rw [authorizedHost_isSome]
  obtain ⟨h, hm, hsame⟩ := Table.mem_of_map_eq _ _ _ columns.hosts host auth.mem
  obtain ⟨c, hc, owner, token, live⟩ := auth.credential
  obtain ⟨c', hc', csame⟩ := Table.mem_of_map_eq _ _ _ columns.credentials c hc
  simp only [MonitoredHost.identity, Prod.mk.injEq] at hsame
  simp only [ClientCredential.identity, Prod.mk.injEq] at csame
  exact ⟨h, hm, hsame.1.trans auth.is_host, hsame.2.trans auth.active, c', hc',
    csame.2.1.trans owner, csame.2.2.1.trans token, csame.2.2.2.trans live⟩

/-- How far a call has come: each report was accepted once at most, and what
was accepted was stored before the call or is stored now. -/
structure Progress (past : List Op) (noted : List ReportWrite) (now : Db) : Prop where
  once : ∀ hostId reportId, acceptances hostId reportId noted ≤ 1
  stored : ∀ hostId reportId, acceptances hostId reportId noted ≠ 0 →
    (hostId, reportId) ∈ everStored past ∨ (hostId, reportId) ∈ rowIds now
  kept : ∀ reportId, knownReport (store.after past) reportId = true →
    knownReport now reportId = true
  columns : ColumnsOnly (store.after past) now

namespace Progress

variable {past : List Op} {noted : List ReportWrite} {db db' : Db}

theorem accept (p : Progress past noted db) {write : ReportWrite} {receivedAt : DateTime}
    {hostId reportId : Uuid} {host : MonitoredHost} {inserted : Table MetricReport}
    (still : StillStored past write) (auth : Authorized write hostId reportId host db)
    (acc : Accepted write receivedAt hostId reportId host inserted db db') :
    Progress past (noted ++ [write]) db' := by
  have names : Names write hostId reportId := ⟨auth.host_id, auth.report_id⟩
  have only : ∀ hostId' reportId', Names write hostId' reportId' →
      hostId' = hostId ∧ reportId' = reportId := by
    intro hostId' reportId' ⟨hh, hr⟩
    exact ⟨Option.some.inj (hh.symm.trans auth.host_id),
      Option.some.inj (hr.symm.trans auth.report_id)⟩
  have unknown : knownReport db reportId = false :=
    (Table.any_eq_false _ _).mpr fun r hr => decide_eq_false (acc.fresh_report r hr)
  have first : acceptances hostId reportId noted = 0 := by
    by_contra seen
    obtain before | here := p.stored hostId reportId seen
    · have known := p.kept reportId
        (still hostId reportId names before (authorized_before p.columns auth))
      rw [unknown] at known
      cases known
    · obtain ⟨r, hr, he⟩ := List.mem_map.mp here
      exact acc.fresh_report r hr (congrArg Prod.snd he)
  refine ⟨fun hostId' reportId' => ?_, fun hostId' reportId' seen => ?_, fun reportId' known => ?_,
    p.columns.trans (accepted_columns auth acc)⟩
  · rw [acceptances_concat]
    split_ifs with hn
    · obtain ⟨rfl, rfl⟩ := only hostId' reportId' hn
      omega
    · exact p.once hostId' reportId'
  · rw [acceptances_concat] at seen
    split_ifs at seen with hn
    · obtain ⟨rfl, rfl⟩ := only hostId' reportId' hn
      exact Or.inr (List.mem_map.mpr ⟨_, acc.new_row, rfl⟩)
    · obtain before | here := p.stored hostId' reportId' seen
      · exact Or.inl before
      · right
        obtain ⟨r, hr, he⟩ := List.mem_map.mp here
        obtain ⟨r', hr', hid, hhost⟩ := acc.keeps_owner r hr
        exact List.mem_map.mpr ⟨r', hr', by rw [hid, hhost, he]⟩
  · obtain ⟨r, hr, hid⟩ := (Table.any_eq_true _ _).mp (p.kept reportId' known)
    obtain ⟨r', hr', hid'⟩ := acc.keeps_id r hr
    exact (Table.any_eq_true _ _).mpr
      ⟨r', hr', decide_eq_true (hid'.trans (of_decide_eq_true hid))⟩

end Progress

/-- In a run in which every redelivery comes before the raw row is deleted, each
report is accepted once at most. -/
theorem accepted_once (ops : List Op) (punctual : Punctual ops) :
    ∀ hostId reportId, acceptances hostId reportId (accepted ops) ≤ 1 ∧
      (acceptances hostId reportId (accepted ops) ≠ 0 → (hostId, reportId) ∈ everStored ops) := by
  induction ops using List.reverseRecOn with
  | nil => exact fun _ _ => ⟨Nat.zero_le _, fun h => absurd rfl h⟩
  | append_singleton past op ih =>
    obtain ⟨before, still⟩ := (punctual_concat past op).mp punctual
    have known := ih before
    have noted : accepted (past ++ [op]) = accepted past ++ op.accepts (store.after past) :=
      store.observed_concat Op.accepts past op
    have rows : everStored (past ++ [op]) =
        everStored past ++ rowIds (op.exec (store.after past)).2 := store.observed_concat _ past op
    rw [noted, rows]
    by_cases hs : op.Stores
    · have start : Progress past (accepted past) (store.after past) :=
        ⟨fun h r => (known h r).1, fun h r seen => Or.inl ((known h r).2 seen), fun _ => id, .refl _⟩
      have done := stores_keeps op hs (Progress past) (fun noted db db' write receivedAt hostId
        reportId host inserted hw p auth acc => p.accept (still write hw) auth acc) _ _ start
      exact fun h r => ⟨done.once h r, fun seen => List.mem_append.mpr (done.stored h r seen)⟩
    · rw [accepts_nil op _ hs, List.append_nil]
      exact fun h r => ⟨(known h r).1, fun seen => List.mem_append_left _ ((known h r).2 seen)⟩

/-- In such a run every report is accepted once at most, and it contributes one
sample to the hourly rows at most. -/
theorem ingested_once (ops : List Op) (punctual : Punctual ops) (hostId reportId : Uuid) :
    acceptances hostId reportId (accepted ops) ≤ 1 ∧
      contributions hostId reportId (ledger ops) ≤ 1 := by
  have once := (accepted_once ops punctual hostId reportId).1
  have budget := contributions_le ops hostId reportId
  exact ⟨once, by omega⟩

def laptopRedelivers (receivedAt : DateTime) : Op :=
  .storeReport .none (laptopReport "00000000-0000-0000-0000-000000000005" noon) receivedAt

theorem ingested_once_laptop :
    acceptances ⟨2⟩ ⟨5⟩ (accepted (laptopActive ++ [laptopRedelivers noon] ++
        [laptopRedelivers (noon.plusSeconds 10)])) ≤ 1 ∧
      contributions ⟨2⟩ ⟨5⟩ (ledger (laptopActive ++ [laptopRedelivers noon] ++
        [laptopRedelivers (noon.plusSeconds 10)])) ≤ 1 := by
  refine ingested_once _ ?_ ⟨2⟩ ⟨5⟩
  have active : Punctual laptopActive := by
    intro past op hp w hw
    exfalso
    obtain ⟨later, he⟩ := hp
    have silent : ∀ op ∈ laptopActive, op.writes = [] := by
      simp [laptopActive, laptopPaired, Op.writes]
    rw [silent op (by simp [← he])] at hw
    exact List.not_mem_nil hw
  refine (punctual_concat _ _).mpr ⟨(punctual_concat _ _).mpr ⟨active, ?_⟩, ?_⟩
  · intro w _ hostId reportId _ stored
    have none_stored : everStored laptopActive = [] := by decide +kernel
    rw [none_stored] at stored
    exact absurd stored List.not_mem_nil
  · intro w hw hostId reportId names _ _
    rw [List.mem_singleton.mp hw] at names
    have parsed : Uuid.parseStr "00000000-0000-0000-0000-000000000005" = some ⟨5⟩ := by decide +kernel
    have hid : reportId = ⟨5⟩ := Option.some.inj (names.2.symm.trans parsed)
    rw [hid]
    decide +kernel

def sent (ops : List Op) : List ReportWrite := ops.flatMap Op.writes

/-- A client that sends a report again sends the same report. -/
def SameBody (ops : List Op) : Prop :=
  ∀ w ∈ sent ops, ∀ w' ∈ sent ops, w.report.host.id = w'.report.host.id →
    w.report.reportId = w'.report.reportId → w.report = w'.report

/-- A week later the laptop's first report was merged and deleted, and is sent again. -/
def redelivered : List Op := laptopReported ++
  [.aggregateRawBatch .none (noon.plusSeconds 86400) (noon.plusSeconds 691200) 256,
    .deleteAggregatedRawBatch .none 256,
    laptopRedelivers (noon.plusSeconds 691300),
    .aggregateRawBatch .none (noon.plusSeconds 90000) (noon.plusSeconds 694800) 256]

/-- The raw rows are the only memory of what was accepted, and they are deleted. -/
theorem redelivery_ingested_twice : ¬∀ ops : List Op, Fresh ops → SameBody ops →
    ∀ hostId reportId, acceptances hostId reportId (accepted ops) ≤ 1 ∧
      contributions hostId reportId (ledger ops) ≤ 1 := by
  intro h
  have fresh : Fresh redelivered := by
    simp [redelivered, Fresh, drawn, codes, laptopReported, laptopActive, laptopPaired,
      laptopRedelivers, Op.uuids, Op.codes]
  have same : SameBody redelivered := by
    simp [SameBody, sent, redelivered, laptopReported, laptopActive, laptopPaired,
      laptopRedelivers, Op.writes, laptopReport, cpuReport]
  have twice : acceptances ⟨2⟩ ⟨5⟩ (accepted redelivered) = 2 ∧
      contributions ⟨2⟩ ⟨5⟩ (ledger redelivered) = 2 := by decide +kernel
  have once := h redelivered fresh same ⟨2⟩ ⟨5⟩
  omega

end HostMonitoring.Retention
