import HostMonitoring.Store.Points
import HostMonitoring.Store.Presentable
import HostMonitoring.Store.Retries

namespace HostMonitoring.Store

open HostMonitoring.Framework
open HostMonitoring.Framework.Tx
open HostMonitoring.Protocol
open HostMonitoring.Model

/-- The Server clock readings a call may leave in `last_seen_at`. -/
def Op.contacts : Op → List DateTime
  | .activate _ _ _ _ _ now _ => [now]
  | .storeReport _ _ receivedAt => [receivedAt]
  | .storeReportBatch _ reports => reports.map BatchItem.receivedAt
  | _ => []

def contacts (ops : List Op) : List DateTime := ops.flatMap Op.contacts

/-- A Server clock that never goes back; the system's clock knows no leap second. -/
structure ServerClock (ops : List Op) : Prop where
  forward : (contacts ops).Pairwise (· ≤ ·)
  ordinary : ∀ t ∈ contacts ops, t.nanos < 1000000000

/-- Where the last contact of a host comes from: the host had it before, or the
Server read it since. -/
def SeenSince (read : List DateTime) (db db' : Db) : Prop :=
  ∀ h' ∈ db'.hosts, h'.lastSeenAt ∈ read ∨
    ∃ h ∈ db.hosts, h.hostId = h'.hostId ∧ h.lastSeenAt = h'.lastSeenAt

namespace SeenSince

variable {read : List DateTime} {db db' db'' : Db}

theorem of_hosts (hosts : db'.hosts = db.hosts) : SeenSince read db db' :=
  fun h' hm => Or.inr ⟨h', hosts ▸ hm, rfl, rfl⟩

theorem trans {later : List DateTime} (h : SeenSince read db db')
    (h' : SeenSince later db' db'') : SeenSince (read ++ later) db db'' := by
  intro host hm
  obtain seen | ⟨host', hm', hid', seen'⟩ := h' host hm
  · exact Or.inl (List.mem_append_right _ seen)
  · obtain seen | ⟨host₀, hm₀, hid, seen⟩ := h host' hm'
    · rw [← seen']
      exact Or.inl (List.mem_append_left _ seen)
    · exact Or.inr ⟨host₀, hm₀, hid.trans hid', seen.trans seen'⟩

end SeenSince

theorem storeReport_seen (f : Faults) (write : ReportWrite) (receivedAt : DateTime) (db : Db) :
    SeenSince [receivedAt] db (storeReport f write receivedAt db).2 := by
  obtain ⟨same, _⟩ | ⟨_, hostId, reportId, host, inserted, auth, acc⟩ :=
    storeReport_cases f write receivedAt db _ _ Prod.mk.eta.symm
  · rw [same]
    exact .of_hosts rfl
  · intro h hm
    rw [acc.hosts] at hm
    split_ifs at hm
    · obtain ⟨h₀, hm₀, _, rfl⟩ | ⟨hm, _⟩ := (mem_promoteHost _ _ _ _ _ _).mp hm
      · by_cases later : DateTime.sqlLt receivedAt h₀.lastSeenAt = true
        · exact Or.inr ⟨h₀, hm₀, rfl, by simp [promote, later]⟩
        · exact Or.inl (by simp [promote, later])
      · exact Or.inr ⟨h, hm, rfl, rfl⟩
    · exact Or.inr ⟨h, hm, rfl, rfl⟩

theorem storeReportBatch_seen (boundary : Boundary StoreError) (reports : List BatchItem)
    (db : Db) :
    SeenSince (reports.map BatchItem.receivedAt) db (storeReportBatch boundary reports db).2 := by
  obtain ⟨_, same⟩ | ⟨results, _, _, separate⟩ :=
    storeReportBatch_cases boundary reports db _ _ Prod.mk.eta.symm
  · rw [same]
    exact .of_hosts rfl
  · rw [← congrArg Prod.snd separate]
    refine oneByOne_preserves_mem (SeenSince (reports.map BatchItem.receivedAt) db) _ _ ?_ db
      (.of_hosts rfl)
    intro item hi s seen h hm
    obtain here | there := seen.trans (storeReport_seen _ item.write item.receivedAt s) h hm
    · left
      obtain before | now := List.mem_append.mp here
      · exact before
      · rw [List.mem_singleton.mp now]
        exact List.mem_map_of_mem hi
    · exact Or.inr there

/-- What one call does to the last contacts. -/
theorem exec_seen (op : Op) (db : Db) : SeenSince op.contacts db (op.exec db).2 := by
  by_cases he : op.Enrolls
  · exact .of_hosts (enrolls_frame op he db).1
  by_cases hr : op.Retains
  · exact .of_hosts (retains_keepsLatest op hr db).1
  cases op with
  | activate f requestId activationHash actor credentialId now auditedAt =>
    obtain ⟨same, _⟩ | ⟨pairing, invite, _, act⟩ := activate_cases f requestId activationHash actor
      credentialId now auditedAt db _ _ Prod.mk.eta.symm
    · exact .of_hosts (congrArg Db.hosts same :)
    · intro h hm
      obtain hm | rfl := (Table.mem_insert? _ _ _ _ act.hosts).mp hm
      · exact Or.inr ⟨h, hm, rfl, rfl⟩
      · exact Or.inl (by simp [registeredHost, Op.contacts])
  | storeReport f write receivedAt => exact storeReport_seen f write receivedAt db
  | storeReportBatch boundary reports => exact storeReportBatch_seen boundary reports db
  | updateRemark f hostId remark actor auditedAt =>
    change SeenSince [] db (updateRemark f hostId remark actor auditedAt db).2
    obtain ⟨same, _⟩ | ⟨_, _, changed⟩ := updateRemark_cases f hostId remark actor auditedAt db _ _
      Prod.mk.eta.symm
    · rw [same]
      exact .of_hosts rfl
    · rw [changed]
      intro h hm
      obtain ⟨h₀, hm₀, _, rfl⟩ | ⟨hm, _⟩ := (Table.mem_updated db.hosts.rows _ _ h).mp hm
      · exact Or.inr ⟨h₀, hm₀, rfl, rfl⟩
      · exact Or.inr ⟨h, hm, rfl, rfl⟩
  | deleteHost f hostId actor auditedAt =>
    change SeenSince [] db (deleteHost f hostId actor auditedAt db).2
    obtain ⟨same, _⟩ | ⟨_, _, changed⟩ := deleteHost_cases f hostId actor auditedAt db _ _
      Prod.mk.eta.symm
    · rw [same]
      exact .of_hosts rfl
    · rw [changed]
      exact fun h hm => Or.inr ⟨h, ((Table.mem_delete _ _ _).mp hm).1, rfl, rfl⟩
  | createInvite => exact absurd trivial he
  | cancelInvite => exact absurd trivial he
  | createPairing => exact absurd trivial he
  | aggregateRawBatch => exact absurd trivial hr
  | deleteAggregatedRawBatch => exact absurd trivial hr
  | deleteExpiredAggregateBatch => exact absurd trivial hr

theorem seen_since (past later : List Op) :
    SeenSince (contacts later) (store.after past) (store.after (past ++ later)) := by
  induction later using List.reverseRecOn with
  | nil =>
    rw [List.append_nil]
    exact .of_hosts rfl
  | append_singleton mid op ih =>
    have read : contacts (mid ++ [op]) = contacts mid ++ op.contacts := by simp [contacts]
    rw [← List.append_assoc, store.after_concat, read]
    exact ih.trans (exec_seen op _)

/-- Every last contact is a reading of the run's clock. -/
theorem seen_read (ops : List Op) (h : MonitoredHost) (hm : h ∈ (store.after ops).hosts) :
    h.lastSeenAt ∈ contacts ops := by
  obtain read | ⟨h₀, hm₀, _⟩ := seen_since [] ops h hm
  · exact read
  · exact absurd hm₀ (Table.not_mem_empty h₀)

theorem last_seen_mono (past later : List Op) (clock : ServerClock (past ++ later))
    (h h' : MonitoredHost) (hm : h ∈ (store.after past).hosts)
    (hm' : h' ∈ (store.after (past ++ later)).hosts) (hid : h'.hostId = h.hostId) :
    h.lastSeenAt ≤ h'.lastSeenAt := by
  have forward := clock.forward
  rw [contacts, List.flatMap_append, List.pairwise_append] at forward
  obtain read | ⟨h₀, hm₀, hid₀, seen⟩ := seen_since past later h' hm'
  · exact forward.2.2 _ (seen_read past h hm) _ read
  · rw [(store.after past).hosts.eq_of_clash h₀ h hm₀ hm (hid₀.trans hid)] at seen
    exact seen.le

/-- A report moves the last contact of its host when it becomes the host's latest
one, and the text of its receive time does not sort before that of the last contact. -/
def MovesContact (write : ReportWrite) (receivedAt : DateTime) (h : MonitoredHost) : Prop :=
  receivedAt ≤ h.lastSeenAt ∨
    ((∃ reportId, Uuid.parseStr write.report.reportId = some reportId ∧
      becomesLatest write.report.collectedAt reportId h.latestReportId h.latestCollectedAt = true) ∧
      DateTime.sqlLt receivedAt h.lastSeenAt = false)

/-- An accepted report was of a host, and how that host is afterwards. -/
theorem contact_after (f : Faults) (write : ReportWrite) (receivedAt t : DateTime) (db : Db)
    (answer : (storeReport f write receivedAt db).1 = .ok (true, t)) :
    t = receivedAt ∧ ∃ h ∈ db.hosts, Uuid.parseStr write.report.host.id = some h.hostId ∧
      ∃ h' ∈ (storeReport f write receivedAt db).2.hosts, h'.hostId = h.hostId ∧
        (t ≤ h'.lastSeenAt ↔ MovesContact write t h) := by
  obtain ⟨_, refused⟩ | ⟨accepted, hostId, reportId, host, inserted, auth, acc⟩ :=
    storeReport_cases f write receivedAt db _ _ Prod.mk.eta.symm
  · rw [answer] at refused
    obtain ⟨_, he⟩ | ⟨_, _, _, _, _, _, _, _, he⟩ := refused
    · cases he
    · cases he
  rw [answer] at accepted
  cases accepted
  have hosts := acc.hosts
  refine ⟨rfl, host, auth.mem, by rw [auth.is_host]; exact auth.host_id, ?_⟩
  have reported (id : Uuid) (h : Uuid.parseStr write.report.reportId = some id) : id = reportId :=
    Option.some.inj (h.symm.trans auth.report_id)
  split_ifs at hosts with newest
  · refine ⟨promote write.report reportId receivedAt host, ?_, rfl, ?_⟩
    · rw [hosts]
      exact (mem_promoteHost _ _ _ _ _ _).mpr (Or.inl ⟨host, auth.mem, auth.is_host, rfl⟩)
    · by_cases later : DateTime.sqlLt receivedAt host.lastSeenAt = true
      · simp [promote, MovesContact, later]
      · have moves : MovesContact write receivedAt host :=
          Or.inr ⟨⟨reportId, auth.report_id, newest⟩, Bool.eq_false_iff.mpr later⟩
        simp [promote, later, moves]
  · refine ⟨host, hosts ▸ auth.mem, rfl, Or.inl, ?_⟩
    rintro (seen | ⟨⟨id, hid, becomes⟩, _⟩)
    · exact seen
    · rw [reported id hid] at becomes
      exact absurd becomes newest

theorem age_mono (seen seen' now : DateTime) (h : seen ≤ seen') (ordinary : seen.nanos < 1000000000)
    (ordinary' : seen'.nanos < 1000000000) :
    Int.tdiv ((now.secs - seen'.secs) * 1000000000 + ((now.nanos : Int) - seen'.nanos)) 1000000000 ≤
      Int.tdiv ((now.secs - seen.secs) * 1000000000 + ((now.nanos : Int) - seen.nanos))
        1000000000 := by
  have order : seen.secs < seen'.secs ∨ (seen.secs = seen'.secs ∧ seen.nanos ≤ seen'.nanos) := by
    obtain rfl | hlt := eq_or_lt_of_le h
    · exact Or.inr ⟨rfl, le_refl _⟩
    · rw [DateTime.lt_def] at hlt
      exact hlt.imp_right fun ⟨secs, nanos⟩ => ⟨secs, nanos.le⟩
  apply Int.tdiv_le_tdiv (by decide)
  omega

/-- A later contact never makes a host look less alive. -/
theorem online_mono (seen seen' now : DateTime) (interval : Option ℚ) (h : seen ≤ seen')
    (ordinary : seen.nanos < 1000000000) (ordinary' : seen'.nanos < 1000000000)
    (online : hostStatus seen interval now = "online") :
    hostStatus seen' interval now = "online" := by
  have age := age_mono seen seen' now h ordinary ordinary'
  unfold hostStatus at online ⊢
  simp only at online ⊢
  split_ifs at online with young old
  rotate_left
  · exact absurd online (by decide)
  · exact absurd online (by decide)
  have younger : (Int.tdiv ((now.secs - seen'.secs) * 1000000000 +
      ((now.nanos : Int) - seen'.nanos)) 1000000000 : ℚ) ≤
      Int.tdiv ((now.secs - seen.secs) * 1000000000 + ((now.nanos : Int) - seen.nanos))
        1000000000 := Int.cast_le.mpr age
  exact if_pos ((max_le_max_right 0 younger).trans young)

/-- In a run, the last contact of a host never goes back, and from an accepted
report on it is at least its receive time, so that the host looks online as long
as it would for a contact at that time. -/
structure LastContact (ops : List Op) : Prop where
  never_back : ∀ past later, (past ++ later).IsPrefix ops → ∀ h ∈ (store.after past).hosts,
    ∀ h' ∈ (store.after (past ++ later)).hosts, h'.hostId = h.hostId →
      h.lastSeenAt ≤ h'.lastSeenAt
  follows : ∀ past f write receivedAt t later,
    (past ++ .storeReport f write receivedAt :: later).IsPrefix ops →
    (storeReport f write receivedAt (store.after past)).1 = .ok (true, t) →
    ∀ h ∈ (store.after (past ++ .storeReport f write receivedAt :: later)).hosts,
      Uuid.parseStr write.report.host.id = some h.hostId → t ≤ h.lastSeenAt
  online : ∀ past f write receivedAt t later,
    (past ++ .storeReport f write receivedAt :: later).IsPrefix ops →
    (storeReport f write receivedAt (store.after past)).1 = .ok (true, t) →
    ∀ h ∈ (store.after (past ++ .storeReport f write receivedAt :: later)).hosts,
      Uuid.parseStr write.report.host.id = some h.hostId → ∀ now,
        hostStatus t h.latestIntervalSeconds now = "online" →
          hostStatus h.lastSeenAt h.latestIntervalSeconds now = "online"

/-- The law holds of a run exactly when every report accepted in it moves the last
contact of its host. -/
theorem last_contact_iff (ops : List Op) (clock : ServerClock ops) :
    LastContact ops ↔ ∀ past f write receivedAt t,
      (past ++ [.storeReport f write receivedAt]).IsPrefix ops →
      (storeReport f write receivedAt (store.after past)).1 = .ok (true, t) →
      ∀ h ∈ (store.after past).hosts, Uuid.parseStr write.report.host.id = some h.hostId →
        MovesContact write t h := by
  have closed (front : List Op) (hp : front.IsPrefix ops) : ServerClock front := by
    obtain ⟨back, rfl⟩ := hp
    have forward := clock.forward
    rw [contacts, List.flatMap_append, List.pairwise_append] at forward
    refine ⟨forward.1, fun t ht => clock.ordinary t ?_⟩
    rw [contacts, List.flatMap_append]
    exact List.mem_append_left _ ht
  constructor
  · intro law past f write receivedAt t hp answer h hm hid
    obtain ⟨_, host, hhost, hid₀, h', hm', hid', moved⟩ :=
      contact_after f write receivedAt t (store.after past) answer
    have same : host = h := (store.after past).hosts.eq_of_clash host h hhost hm
      (Option.some.inj (hid₀.symm.trans hid))
    rw [← same]
    refine moved.mp (law.follows past f write receivedAt t [] hp answer h' ?_ ?_)
    · rw [store.after_concat]
      exact hm'
    · rw [hid', same]
      exact hid
  · intro moves
    have follows : ∀ past f write receivedAt t later,
        (past ++ .storeReport f write receivedAt :: later).IsPrefix ops →
        (storeReport f write receivedAt (store.after past)).1 = .ok (true, t) →
        ∀ h ∈ (store.after (past ++ .storeReport f write receivedAt :: later)).hosts,
          Uuid.parseStr write.report.host.id = some h.hostId → t ≤ h.lastSeenAt := by
      intro past f write receivedAt t later hp answer h hm hid
      have split : past ++ Op.storeReport f write receivedAt :: later =
          past ++ [.storeReport f write receivedAt] ++ later := by simp
      rw [split] at hp hm
      obtain ⟨_, host, hhost, hid₀, h', hm', hid', moved⟩ :=
        contact_after f write receivedAt t (store.after past) answer
      have reached : t ≤ h'.lastSeenAt := moved.mpr
        (moves past f write receivedAt t ((List.prefix_append _ _).trans hp) answer host hhost hid₀)
      have there : h' ∈ (store.after (past ++ [.storeReport f write receivedAt])).hosts := by
        rw [store.after_concat]
        exact hm'
      refine reached.trans (last_seen_mono _ later (closed _ hp) h' h there hm ?_)
      rw [hid']
      exact Option.some.inj (hid.symm.trans hid₀)
    refine ⟨fun past later hp h hm h' hm' hid => ?_, follows, ?_⟩
    · exact last_seen_mono past later (closed _ hp) h h' hm hm' hid
    · intro past f write receivedAt t later hp answer h hm hid now online
      have clocked := closed _ hp
      obtain ⟨rfl, _⟩ := contact_after f write receivedAt t (store.after past) answer
      refine online_mono t h.lastSeenAt now _ (follows past f write t t later hp answer h hm hid)
        (clocked.ordinary t ?_) (clocked.ordinary _ (seen_read _ h hm)) online
      simp [contacts, Op.contacts]

/-- A report of the tablet, which is instance 2. -/
def tabletReport (reportId : String) (collectedAt : DateTime) : ReportWrite where
  report := { datedReport collectedAt with
    reportId
    host := ⟨"00000000-0000-0000-0000-000000000002", "linux", none, none, "x86_64", "0.9.10"⟩ }
  tokenHash := tablet.tokenHash
  metrics := metricSummary (datedReport collectedAt)

/-- The active tablet reports at some times by its own clock, a quarter of an hour
apart by the Server's. -/
def tabletReporting (first second : DateTime) : List Op :=
  tabletInvited ++ [.createPairing .none tablet ⟨3⟩ noon noon, tabletActivation,
    .storeReport .none (tabletReport "00000000-0000-0000-0000-000000000005" first) noon,
    .storeReport .none (tabletReport "00000000-0000-0000-0000-000000000006" second)
      (noon.plusSeconds 900)]

theorem clock_tabletReporting (first second : DateTime) :
    ServerClock (tabletReporting first second) := by
  have readings : contacts (tabletReporting first second) = [noon, noon, noon.plusSeconds 900] :=
    rfl
  constructor
  · rw [readings]
    decide +kernel
  · rw [readings]
    decide +kernel

/-- The two reports of the run, and what the tablet did before each. -/
theorem reports_of_tablet (first second : DateTime) (past : List Op) (f : Faults)
    (write : ReportWrite) (receivedAt : DateTime)
    (h : (past ++ [Op.storeReport f write receivedAt]).IsPrefix (tabletReporting first second)) :
    (past = (tabletReporting first second).take 3 ∧ receivedAt = noon ∧
      write = tabletReport "00000000-0000-0000-0000-000000000005" first) ∨
    (past = (tabletReporting first second).take 4 ∧ receivedAt = noon.plusSeconds 900 ∧
      write = tabletReport "00000000-0000-0000-0000-000000000006" second) := by
  obtain ⟨rest, h⟩ := h
  simp only [tabletReporting, tabletInvited, tabletActivation, List.cons_append, List.nil_append]
    at h ⊢
  rcases past with _ | ⟨a, _ | ⟨b, _ | ⟨c, _ | ⟨d, _ | ⟨e, past⟩⟩⟩⟩⟩ <;> simp at h ⊢
  · obtain ⟨rfl, rfl, rfl, ⟨_, rfl, rfl⟩, _⟩ := h
    simp
  · obtain ⟨rfl, rfl, rfl, rfl, ⟨_, rfl, rfl⟩, _⟩ := h
    simp

/-- The tablet's clock runs with the Server's. -/
theorem last_contact_iff_tablet : LastContact (tabletReporting noon (noon.plusSeconds 900)) := by
  refine (last_contact_iff _ (clock_tabletReporting _ _)).mpr ?_
  intro past f write receivedAt t hp answer h hm _
  obtain ⟨rfl, _⟩ := contact_after f write receivedAt t _ answer
  obtain ⟨rfl, rfl, rfl⟩ | ⟨rfl, rfl, rfl⟩ := reports_of_tablet _ _ past f write t hp
  · have moves : ∀ h ∈ (store.after ((tabletReporting noon (noon.plusSeconds 900)).take 3)).hosts.rows,
        becomesLatest noon ⟨5⟩ h.latestReportId h.latestCollectedAt = true ∧
          DateTime.sqlLt noon h.lastSeenAt = false := by decide +kernel
    exact Or.inr ⟨⟨⟨5⟩, by decide +kernel, (moves h hm).1⟩, (moves h hm).2⟩
  · have moves : ∀ h ∈ (store.after ((tabletReporting noon (noon.plusSeconds 900)).take 4)).hosts.rows,
        becomesLatest (noon.plusSeconds 900) ⟨6⟩ h.latestReportId h.latestCollectedAt = true ∧
          DateTime.sqlLt (noon.plusSeconds 900) h.lastSeenAt = false := by decide +kernel
    exact Or.inr ⟨⟨⟨6⟩, by decide +kernel, (moves h hm).1⟩, (moves h hm).2⟩

/-- The tablet's clock is set back by an hour. -/
def tabletDrifted : List Op := tabletReporting noon (noon.plusSeconds (-3600))

theorem fresh_tabletDrifted : Fresh tabletDrifted := by
  simp [Fresh, drawn, codes, tabletDrifted, tabletReporting, tabletInvited, tabletActivation,
    Op.uuids, Op.codes]

theorem valid_tabletDrifted : ∀ op ∈ tabletDrifted, op.Validated := by
  have named : createClientInstanceRequestValidated (some "tablet") = .ok "tablet" := by
    decide +kernel
  have paired : validatePairing tablet = .ok () := by decide +kernel
  intro op hop
  simp only [tabletDrifted, tabletReporting, tabletInvited, tabletActivation, List.cons_append,
    List.nil_append, List.mem_cons, List.not_mem_nil, or_false] at hop
  obtain rfl | rfl | rfl | rfl | rfl := hop
  · exact ⟨some "tablet", named⟩
  · exact paired
  · trivial
  · exact ⟨noon, by decide +kernel⟩
  · exact ⟨noon, by decide +kernel⟩

/-- Its second report is accepted a quarter of an hour after the last contact, and
it is shown offline. -/
theorem last_contact_fails :
    ¬∀ ops, Fresh ops → (∀ op ∈ ops, op.Validated) → ServerClock ops → LastContact ops := by
  intro claim
  have answer : (storeReport .none (tabletReport "00000000-0000-0000-0000-000000000006"
      (noon.plusSeconds (-3600))) (noon.plusSeconds 900) (store.after (tabletDrifted.take 4))).1 =
      .ok (true, noon.plusSeconds 900) := by decide +kernel
  have whole : tabletDrifted.take 4 ++ [Op.storeReport .none
      (tabletReport "00000000-0000-0000-0000-000000000006" (noon.plusSeconds (-3600)))
      (noon.plusSeconds 900)] = tabletDrifted := rfl
  have law := (claim tabletDrifted fresh_tabletDrifted valid_tabletDrifted
    (clock_tabletReporting _ _)).follows (tabletDrifted.take 4) .none
    (tabletReport "00000000-0000-0000-0000-000000000006" (noon.plusSeconds (-3600)))
    (noon.plusSeconds 900) (noon.plusSeconds 900) []
  rw [whole] at law
  have unseen : ∃ h ∈ (store.after tabletDrifted).hosts.rows, h.hostId = ⟨2⟩ ∧
      h.lastSeenAt < noon.plusSeconds 900 ∧
        hostStatus h.lastSeenAt h.latestIntervalSeconds (noon.plusSeconds 900) = "offline" := by
    decide +kernel
  have named : Uuid.parseStr "00000000-0000-0000-0000-000000000002" = some ⟨2⟩ := by
    decide +kernel
  obtain ⟨h, hm, hid, behind, _⟩ := unseen
  refine absurd (law (List.prefix_refl _) answer h hm ?_) (not_le.mpr behind)
  rw [hid]
  exact named

end HostMonitoring.Store
