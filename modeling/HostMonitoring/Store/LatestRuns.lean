import HostMonitoring.Store.Latest

namespace HostMonitoring.Store

open HostMonitoring.Framework
open HostMonitoring.Framework.Tx
open HostMonitoring.Protocol
open HostMonitoring.Retention

/-- A change that brings no host and no report, leaves the latest columns alone
and keeps the unmarked rows they point to. -/
structure KeepsLatest (db db' : Db) : Prop where
  hosts : ∀ h' ∈ db'.hosts, ∃ h ∈ db.hosts, h'.hostId = h.hostId ∧
    h'.latestReportId = h.latestReportId ∧ h'.latestCollectedAt = h.latestCollectedAt ∧
    h'.latestIntervalSeconds = h.latestIntervalSeconds
  reports : ∀ r' ∈ db'.reports, ∃ r ∈ db.reports, r' = { r with aggregatedAt := r'.aggregatedAt }
  pointed : ∀ h' ∈ db'.hosts, ∀ r ∈ db.reports, h'.latestReportId = some r.reportId →
    r.hostId = h'.hostId → r.aggregatedAt = none → r ∈ db'.reports

namespace KeepsLatest

variable {noted : List ReportWrite} {db db' : Db}

theorem of_eq (hosts : db'.hosts = db.hosts) (reports : db'.reports = db.reports) :
    KeepsLatest db db' where
  hosts h' hm := ⟨h', hosts ▸ hm, rfl, rfl, rfl, rfl⟩
  reports r' hr := ⟨r', reports ▸ hr, rfl⟩
  pointed _ _ _ hr _ _ _ := reports.symm ▸ hr

theorem holds (k : KeepsLatest db db') (all : ∀ h ∈ db.hosts, LatestHolds noted db h)
    (h' : MonitoredHost) (hm' : h' ∈ db'.hosts) : LatestHolds noted db' h' := by
  obtain ⟨h, hm, hid, hpointer, hcollected, hinterval⟩ := k.hosts h' hm'
  obtain ⟨hnone, hcol, hrows, hnoted⟩ | ⟨r, row⟩ := all h hm
  · refine Or.inl ⟨hpointer.trans hnone, hcollected.trans hcol, ?_, ?_⟩
    · intro r' hr' hrh
      obtain ⟨r₀, hr₀, he⟩ := k.reports r' hr'
      have sameHost : r'.hostId = r₀.hostId := by rw [he]
      exact hrows r₀ hr₀ (sameHost.symm.trans (hrh.trans hid))
    · rw [hid]
      exact hnoted
  · have kept : r ∈ db'.reports := k.pointed h' hm' r row.mem (hpointer.trans row.pointer)
      (row.host.trans hid.symm) row.unmarked
    refine Or.inr ⟨r, kept, row.host.trans hid.symm, hpointer.trans row.pointer, row.unmarked,
      hcollected.trans row.collected, hinterval.trans row.interval, row.payload, ?_, ?_, ?_⟩
    · intro r' hr' hrh
      obtain ⟨r₀, hr₀, he⟩ := k.reports r' hr'
      have sameHost : r'.hostId = r₀.hostId := by rw [he]
      have sameStamp : r'.stamp = r₀.stamp := by
        rw [he]
        rfl
      rw [sameStamp]
      exact row.newest_row r₀ hr₀ (sameHost.symm.trans (hrh.trans hid))
    · rw [hid]
      exact row.newest_ever
    · intro r' hr' hrh hne
      obtain ⟨r₀, hr₀, he⟩ := k.reports r' hr'
      have sameHost : r'.hostId = r₀.hostId := by rw [he]
      have samePayload : r'.payload = r₀.payload := by rw [he]
      have sameId : r'.reportId = r₀.reportId := by rw [he]
      rw [samePayload]
      refine row.others r₀ hr₀ (sameHost.symm.trans (hrh.trans hid)) ?_
      intro hr
      exact hne (db'.reports.eq_of_clash r' r hr' kept (sameId.trans (congrArg _ hr)))

/-- The latest rows are found as before. -/
theorem latestReport_eq (k : KeepsLatest db db') (hosts : db'.hosts = db.hosts) (h : MonitoredHost)
    (hm : h ∈ db.hosts) (hold : LatestHolds noted db h) :
    latestReport h db' = latestReport h db := by
  obtain ⟨hnone, _⟩ | ⟨r, row⟩ := hold
  · have nothing : ∀ db : Db, latestReport h db = none := by
      intro db
      refine (Table.find?_eq_none _ _).mpr fun r _ => ?_
      simp [hnone]
    rw [nothing, nothing]
  · have found : ∀ db : Db, r ∈ db.reports → latestReport h db = some r := by
      intro db hr
      refine Table.find?_eq_some _ _ _ hr (decide_eq_true row.pointer) fun r' hr' hid => ?_
      have same : r'.reportId = r.reportId :=
        Option.some.inj ((of_decide_eq_true hid).symm.trans row.pointer)
      exact db.reports.eq_of_clash r' r hr' hr same
    have kept : r ∈ db'.reports := k.pointed h (hosts.symm ▸ hm) r row.mem row.pointer row.host
      row.unmarked
    rw [found db row.mem, found db' kept]

end KeepsLatest

theorem isLatest_of_pointer (db : Db) (h : MonitoredHost) (hm : h ∈ db.hosts) (r : MetricReport)
    (hpointer : h.latestReportId = some r.reportId) : isLatest db r = true :=
  (Table.any_eq_true _ _).mpr ⟨h, hm, decide_eq_true hpointer⟩

theorem aggregateRawBatch_keepsLatest (f : Faults) (cutoff now : DateTime) (batchSize : Nat)
    (db : Db) : (aggregateRawBatch f cutoff now batchSize db).2.hosts = db.hosts ∧
      KeepsLatest db (aggregateRawBatch f cutoff now batchSize db).2 := by
  obtain ⟨he, _⟩ | ⟨reports, hourly, hpending, _, _, _, he⟩ :=
    aggregateRawBatch_cases f cutoff now batchSize db _ _ Prod.mk.eta.symm
  · rw [he]
    exact ⟨rfl, .of_eq rfl rfl⟩
  · rw [he]
    refine ⟨rfl, fun h hm => ⟨h, hm, rfl, rfl, rfl, rfl⟩, fun r' hr' => ?_, fun h hm r hr hp _ _ => ?_⟩
    · obtain ⟨r, hr, _, rfl⟩ | ⟨hr, _⟩ := (mem_markAggregated _ _ _ _).mp hr'
      · exact ⟨r, hr, rfl⟩
      · exact ⟨r', hr, rfl⟩
    · refine (mem_markAggregated _ _ _ _).mpr (Or.inr ⟨hr, ?_⟩)
      have chosen : r.reportId ∉ reports.map MetricReport.reportId := by
        intro hid
        obtain ⟨x, hx, hxid⟩ := List.mem_map.mp hid
        rw [hpending] at hx
        obtain ⟨hxm, hxp⟩ := Table.mem_of_mem_select _ _ _ _ _ hx
        rw [db.reports.eq_of_clash x r hxm hr hxid, isLatest_of_pointer db h hm r hp] at hxp
        simp at hxp
      simp [toMark, chosen]

theorem deleteAggregatedRawBatch_keepsLatest (f : Faults) (batchSize : Nat) (db : Db) :
    (deleteAggregatedRawBatch f batchSize db).2.hosts = db.hosts ∧
      KeepsLatest db (deleteAggregatedRawBatch f batchSize db).2 := by
  obtain he | he := deleteAggregatedRawBatch_cases f batchSize db _ _ Prod.mk.eta.symm
  · rw [he]
    exact ⟨rfl, .of_eq rfl rfl⟩
  · rw [he]
    refine ⟨rfl, fun h hm => ⟨h, hm, rfl, rfl, rfl, rfl⟩, fun r' hr' => ?_, fun h hm r hr hp _ _ => ?_⟩
    · exact ⟨r', ((Table.mem_delete _ _ _).mp hr').1, rfl⟩
    · refine (Table.mem_delete _ _ _).mpr ⟨hr, ?_⟩
      simp [rawVictim, isLatest_of_pointer db h hm r hp]

theorem deleteExpiredAggregateBatch_keepsLatest (f : Faults) (cutoff : DateTime) (batchSize : Nat)
    (db : Db) : (deleteExpiredAggregateBatch f cutoff batchSize db).2.hosts = db.hosts ∧
      KeepsLatest db (deleteExpiredAggregateBatch f cutoff batchSize db).2 := by
  obtain he | he := deleteExpiredAggregateBatch_cases f cutoff batchSize db _ _ Prod.mk.eta.symm
  · rw [he]
    exact ⟨rfl, .of_eq rfl rfl⟩
  · rw [he]
    exact ⟨rfl, .of_eq rfl rfl⟩

/-- A call that stores no report keeps the latest columns, or registers a host. -/
theorem exec_keepsLatest (op : Op) (db : Db) (h : ¬op.Stores) :
    KeepsLatest db (op.exec db).2 ∨
    ∃ pairing invite requestId activationHash actor credentialId now auditedAt,
      Activation pairing invite requestId activationHash actor credentialId now auditedAt db
        (op.exec db).2 := by
  by_cases he : op.Enrolls
  · obtain ⟨hosts, reports, _⟩ := enrolls_frame op he db
    exact Or.inl (.of_eq hosts reports)
  cases op with
  | activate f requestId activationHash actor credentialId now auditedAt =>
    obtain ⟨he, _⟩ | ⟨pairing, invite, _, act⟩ := activate_cases f requestId activationHash actor
      credentialId now auditedAt db _ _ Prod.mk.eta.symm
    · exact Or.inl (.of_eq (congrArg Db.hosts he :) (congrArg Db.reports he :))
    · exact Or.inr ⟨pairing, invite, _, _, _, _, _, _, act⟩
  | storeReport f write receivedAt => exact absurd trivial h
  | storeReportBatch boundary reports => exact absurd trivial h
  | updateRemark f hostId remark actor auditedAt =>
    left
    obtain ⟨he, _⟩ | ⟨_, _, he⟩ := updateRemark_cases f hostId remark actor auditedAt db _ _
      Prod.mk.eta.symm
    · exact .of_eq (congrArg Db.hosts he :) (congrArg Db.reports he :)
    · change KeepsLatest db (updateRemark f hostId remark actor auditedAt db).2
      rw [he]
      refine ⟨fun h' hm' => ?_, fun r hr => ⟨r, hr, rfl⟩, fun _ _ _ hr _ _ _ => hr⟩
      obtain ⟨h₀, hm₀, _, rfl⟩ | ⟨hm', _⟩ := (Table.mem_updated db.hosts.rows _ _ h').mp hm'
      · exact ⟨h₀, hm₀, rfl, rfl, rfl, rfl⟩
      · exact ⟨h', hm', rfl, rfl, rfl, rfl⟩
  | deleteHost f hostId actor auditedAt =>
    left
    obtain ⟨he, _⟩ | ⟨_, _, he⟩ := deleteHost_cases f hostId actor auditedAt db _ _ Prod.mk.eta.symm
    · exact .of_eq (congrArg Db.hosts he :) (congrArg Db.reports he :)
    · change KeepsLatest db (deleteHost f hostId actor auditedAt db).2
      rw [he]
      refine ⟨fun h' hm' => ?_, fun r hr => ?_, fun h' hm' r hr _ hrh _ => ?_⟩
      · exact ⟨h', ((Table.mem_delete _ _ _).mp hm').1, rfl, rfl, rfl, rfl⟩
      · exact ⟨r, ((Table.mem_delete _ _ _).mp hr).1, rfl⟩
      · have other := of_decide_eq_false ((Table.mem_delete _ _ _).mp hm').2
        exact (Table.mem_delete _ _ _).mpr ⟨hr, decide_eq_false (hrh ▸ other)⟩
  | aggregateRawBatch f cutoff now batchSize =>
    exact Or.inl (aggregateRawBatch_keepsLatest f cutoff now batchSize db).2
  | deleteAggregatedRawBatch f batchSize =>
    exact Or.inl (deleteAggregatedRawBatch_keepsLatest f batchSize db).2
  | deleteExpiredAggregateBatch f cutoff batchSize =>
    exact Or.inl (deleteExpiredAggregateBatch_keepsLatest f cutoff batchSize db).2
  | _ => exact absurd trivial he

/-- The latest columns are right, and a report was only ever accepted for a host
that still exists or is gone for good. -/
structure Tracked (past : List Op) (noted : List ReportWrite) (db : Db) : Prop where
  latest : ∀ h ∈ db.hosts, LatestHolds noted db h
  known : ∀ w ∈ noted, ∀ i, Uuid.parseStr w.report.host.id = some i →
    i ∈ drawn past ∧ (HasHost db i ∨ Gone i db)
  host_drawn : ∀ i, HasHost db i → i ∈ drawn past

theorem Bound.host_drawn {past : List Op} {db : Db} (b : Bound past db) (i : Uuid)
    (h : HasHost db i) : i ∈ drawn past := by
  obtain ⟨host, hm, rfl⟩ := h
  obtain ⟨_, v, hv, _, hi⟩ := b.host_active host hm
  rw [← hi]
  exact (b.invite_drawn v hv).2

theorem Change.host_or_gone {db db' : Db} {op : Op} (h : Change db op db') (i : Uuid)
    (hi : HasHost db i) : HasHost db' i ∨ Gone i db' := by
  cases h with
  | columns h => exact Or.inl ((h.hasHost i).mpr hi)
  | invited h => exact Or.inl hi
  | cancelled mem id pending h => exact Or.inl hi
  | cleaned => exact Or.inl hi
  | requested h => exact Or.inl hi
  | activated h =>
    obtain ⟨host, hm, hid⟩ := hi
    exact Or.inl ⟨host, (Table.mem_insert? _ _ _ _ h.hosts).mpr (Or.inl hm), hid⟩
  | @deleted f hostId actor auditedAt audit h =>
    by_cases he : hostId = i
    · rw [← he]
      exact Or.inr (Gone.of_deleted hostId audit)
    · obtain ⟨host, hm, hid⟩ := hi
      refine Or.inl ⟨host, (Table.mem_delete _ _ _).mpr ⟨hm, decide_eq_false ?_⟩, hid⟩
      rw [hid]
      exact Ne.symm he

namespace Tracked

variable {past : List Op} {noted : List ReportWrite} {db db' : Db}

theorem accept (t : Tracked past noted db) (write : ReportWrite) (receivedAt : DateTime)
    (hostId reportId : Uuid) (host : MonitoredHost) (inserted : Table MetricReport)
    (auth : Authorized write hostId reportId host db)
    (acc : Accepted write receivedAt hostId reportId host inserted db db') :
    Tracked past (noted ++ [write]) db' := by
  have columns := accepted_columns auth acc
  have owner := t.latest host auth.mem
  refine ⟨fun h hm => ?_, fun w hw i hi => ?_, fun i hi => ?_⟩
  · have others : ∀ h ∈ db.hosts, h.hostId ≠ hostId → LatestHolds (noted ++ [write]) db' h :=
      fun h hm hne => LatestHolds.accept_other auth acc owner h hne (t.latest h hm)
    rw [acc.hosts] at hm
    split_ifs at hm with newest
    · obtain ⟨h₀, hm₀, hid, rfl⟩ | ⟨hm, hne⟩ := (mem_promoteHost _ _ _ _ _ _).mp hm
      · rw [db.hosts.eq_of_clash h₀ host hm₀ auth.mem (hid.trans auth.is_host.symm)]
        exact owner.accept_newest auth acc newest
      · exact others h hm hne
    · by_cases he : h.hostId = hostId
      · rw [db.hosts.eq_of_clash h host hm auth.mem (he.trans auth.is_host.symm)]
        exact owner.accept_older auth acc (Bool.eq_false_iff.mpr newest)
      · exact others h hm he
  · obtain hw | hw := List.mem_append.mp hw
    · obtain ⟨hd, hh | gone⟩ := t.known w hw i hi
      · exact ⟨hd, Or.inl ((columns.hasHost i).mpr hh)⟩
      · have stays : Change db (.storeReport .none write receivedAt) db' := .columns columns
        exact ⟨hd, Or.inr (gone.change stays List.not_mem_nil)⟩
    · rw [List.mem_singleton.mp hw, auth.host_id] at hi
      have here : HasHost db i := ⟨host, auth.mem, auth.is_host.trans (Option.some.inj hi)⟩
      exact ⟨t.host_drawn i here, Or.inl ((columns.hasHost i).mpr here)⟩
  · exact t.host_drawn i ((columns.hasHost i).mp hi)

theorem activated (t : Tracked past noted db) (b : Bound past db) {pairing : PairingRequest}
    {invite : InstanceInvite} {requestId : Uuid} {activationHash actor : String}
    {credentialId : Uuid} {now auditedAt : DateTime}
    (act : Activation pairing invite requestId activationHash actor credentialId now auditedAt
      db db') (h : MonitoredHost) (hm : h ∈ db'.hosts) : LatestHolds noted db' h := by
  have new := ((db.hosts.insert?_eq_some _ _).mp act.hosts).1
  obtain hm | rfl := (Table.mem_insert? _ _ _ _ act.hosts).mp hm
  · obtain ⟨hnone, hcol, hrows, hnoted⟩ | ⟨r, row⟩ := t.latest h hm
    · exact Or.inl ⟨hnone, hcol, act.reports.symm ▸ hrows, hnoted⟩
    · exact Or.inr ⟨r, act.reports.symm ▸ row.mem, row.host, row.pointer, row.unmarked, row.collected,
        row.interval, row.payload, act.reports.symm ▸ row.newest_row, row.newest_ever,
        act.reports.symm ▸ row.others⟩
  · refine Or.inl ⟨rfl, rfl, fun r hr hrh => ?_, fun w hw hwh => ?_⟩
    · rw [act.reports] at hr
      obtain ⟨host, hhost, hid⟩ := b.report_host r hr
      exact new host hhost (hid.trans hrh)
    · obtain ⟨_, ⟨host, hhost, hid⟩ | gone⟩ := t.known w hw _ hwh
      · exact new host hhost hid
      · exact gone.invites invite act.invite_mem rfl

theorem step (t : Tracked past noted db) (b : Bound past db) (op : Op)
    (fresh : Fresh (past ++ [op])) :
    Tracked (past ++ [op]) (noted ++ op.accepts db) (op.exec db).2 := by
  by_cases hs : op.Stores
  · have kept := stores_keeps op hs (Tracked past) (fun noted db db' write receivedAt hostId reportId
      host inserted _ h auth acc => h.accept write receivedAt hostId reportId host inserted auth acc)
      noted db t
    refine ⟨kept.latest, fun w hw i hi => ?_, fun i hi => ?_⟩
    · exact (kept.known w hw i hi).imp_left (mem_drawn_concat _ _ _)
    · exact mem_drawn_concat _ _ _ (kept.host_drawn i hi)
  · rw [accepts_nil op db hs, List.append_nil]
    have change := exec_change op db
    refine ⟨?_, fun w hw i hi => ?_, (b.step op fresh).host_drawn⟩
    · obtain k | ⟨_, _, _, _, _, _, _, _, act⟩ := exec_keepsLatest op db hs
      · exact k.holds t.latest
      · exact t.activated b act
    · obtain ⟨hd, hh | gone⟩ := t.known w hw i hi
      · exact ⟨mem_drawn_concat _ _ _ hd, change.host_or_gone i hh⟩
      · refine ⟨mem_drawn_concat _ _ _ hd, Or.inr (gone.change change fun hu => ?_)⟩
        exact (fresh_append past [op] fresh).2.1 i hd (by simpa [drawn] using hu)

end Tracked

theorem tracked_after (ops : List Op) (fresh : Fresh ops) :
    Tracked ops (accepted ops) (store.after ops) := by
  have both := store.observed_invariant Op.accepts Fresh
    (fun past noted db => Bound past db ∧ Tracked past noted db) fresh_closed
    ⟨bound_empty, fun h hm => absurd hm (Table.not_mem_empty h), fun w hw => absurd hw List.not_mem_nil,
      fun i ⟨h, hm, _⟩ => absurd hm (Table.not_mem_empty h)⟩
    (fun past noted op db hf ⟨b, t⟩ => ⟨b.step op hf, t.step b op hf⟩) ops fresh
  exact both.2

def Op.Retains : Op → Prop
  | .aggregateRawBatch _ _ _ _ => True
  | .deleteAggregatedRawBatch _ _ => True
  | .deleteExpiredAggregateBatch _ _ _ => True
  | _ => False

theorem retains_keepsLatest (op : Op) (h : op.Retains) (db : Db) :
    (op.exec db).2.hosts = db.hosts ∧ KeepsLatest db (op.exec db).2 := by
  cases op with
  | aggregateRawBatch f cutoff now batchSize =>
    exact aggregateRawBatch_keepsLatest f cutoff now batchSize db
  | deleteAggregatedRawBatch f batchSize => exact deleteAggregatedRawBatch_keepsLatest f batchSize db
  | deleteExpiredAggregateBatch f cutoff batchSize =>
    exact deleteExpiredAggregateBatch_keepsLatest f cutoff batchSize db
  | _ => exact absurd h id

/-- What the readers show depends on the hosts and on their latest rows only. -/
theorem views_eq (db db' : Db) (hosts : db'.hosts = db.hosts)
    (rows : ∀ h ∈ db.hosts, latestReport h db' = latestReport h db) :
    (∀ limit offset now, listHosts limit offset now db' = listHosts limit offset now db) ∧
    ∀ hostId now, getHost hostId now db' = getHost hostId now db := by
  have row : ∀ h ∈ db.hosts, hostRow db' h = hostRow db h := by
    intro h hm
    simp only [hostRow, rows h hm]
  refine ⟨fun limit offset now => ?_, fun hostId now => ?_⟩
  · have listed : listedHosts limit offset db' = listedHosts limit offset db := by
      simp only [listedHosts, hosts]
    have shown : ((listedHosts limit offset db).map fun h => summarize now (hostRow db' h)) =
        (listedHosts limit offset db).map fun h => summarize now (hostRow db h) := by
      refine List.map_congr_left fun h hm => ?_
      rw [row h (mem_of_listed limit offset db h hm)]
    simp only [listHosts, listed, shown, hosts]
  · have one : getHostRow hostId db' = getHostRow hostId db := by
      unfold getHostRow
      rw [hosts]
      refine Option.map_congr fun h hm => row h (Table.mem_of_find? _ _ _ hm).1
    have payload : getHostPayload hostId db' = getHostPayload hostId db := by
      unfold getHostPayload
      rw [hosts]
      refine Option.map_congr fun h hm => ?_
      rw [rows h (Table.mem_of_find? _ _ _ hm).1]
    simp only [getHost, one, payload]

theorem LatestRow.stamp_eq {noted : List ReportWrite} {db : Db} {h : MonitoredHost}
    {r : MetricReport} (row : LatestRow noted db h r) : latestStamp h = r.stamp := by
  simp [latestStamp, row.pointer, row.collected, MetricReport.stamp]

/-- In a run with fresh identifiers every host's latest columns and payload are
those of the newest report accepted for it, they only move forward, and no
retention call changes what is shown of a host. -/
theorem latest_report_invariant (ops : List Op) (fresh : Fresh ops) :
    (∀ h ∈ (store.after ops).hosts, LatestHolds (accepted ops) (store.after ops) h) ∧
    (∀ past later, ops = past ++ later → ∀ h ∈ (store.after past).hosts,
      ∀ h' ∈ (store.after ops).hosts, h'.hostId = h.hostId → latestStamp h ≤ latestStamp h') ∧
    ∀ op : Op, op.Retains →
      (∀ limit offset now, listHosts limit offset now (op.exec (store.after ops)).2 =
        listHosts limit offset now (store.after ops)) ∧
      ∀ hostId now, getHost hostId now (op.exec (store.after ops)).2 =
        getHost hostId now (store.after ops) := by
  have now := (tracked_after ops fresh).latest
  refine ⟨now, ?_, ?_⟩
  · intro past later he h hm h' hm' hid
    have before := (tracked_after past (fresh_append past later (he ▸ fresh)).1).latest h hm
    obtain ⟨_, hcol, _⟩ | ⟨r, row⟩ := before
    · have bottom : latestStamp h = ⊥ := by simp [latestStamp, hcol]
      rw [bottom]
      exact bot_le
    · obtain ⟨w, hw, written, _⟩ := row.payload
      have still : w ∈ accepted ops := by
        obtain ⟨rest, hrest⟩ := store.observed_prefix Op.accepts past later
        rw [accepted, he, hrest]
        exact List.mem_append_left _ hw
      have forHost : Uuid.parseStr w.report.host.id = some h'.hostId := by
        rw [hid, ← row.host]
        exact written.host
      obtain ⟨_, _, _, hnoted⟩ | ⟨r', row'⟩ := now h' hm'
      · exact absurd forHost (hnoted w still)
      · have ahead := row'.newest_ever w still forHost r.reportId written.report
        rw [← written.collected] at ahead
        rw [row.stamp_eq, row'.stamp_eq]
        exact WithBot.coe_le_coe.mpr ahead
  · intro op hr
    obtain ⟨hosts, k⟩ := retains_keepsLatest op hr (store.after ops)
    exact views_eq _ _ hosts fun h hm => k.latestReport_eq hosts h hm (now h hm)

theorem latest_report_invariant_laptop :
    ∃ h ∈ (store.after laptopReported).hosts.rows, h.latestReportId = some ⟨6⟩ ∧
      LatestHolds (accepted laptopReported) (store.after laptopReported) h := by
  obtain ⟨h, hm, hpointer⟩ : ∃ h ∈ (store.after laptopReported).hosts.rows,
      h.latestReportId = some ⟨6⟩ := by decide +kernel
  exact ⟨h, hm, hpointer, (latest_report_invariant laptopReported fresh_laptopReported).1 h hm⟩

end HostMonitoring.Store
