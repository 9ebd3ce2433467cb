import HostMonitoring.Server.Outcomes

namespace HostMonitoring.Server

open HostMonitoring.Framework
open HostMonitoring.Framework.World (Turn)
open HostMonitoring.Admission
open HostMonitoring.Model
open HostMonitoring.Protocol
open HostMonitoring.Store
open HostMonitoring.Telemetry (TelemetryWriterConfig OwnResult)

section
variable {D : Type} [DecidableEq D] {config : TelemetryWriterConfig} {digests : Digests D}
  {before : List Op} {clock : Instant} {P : Pool Connection Call Answer (Recorded D)}

/-- A call of the store with what lies behind it. -/
structure Admitted (tokenHash : String → String) (s : Recorded D) (who : Option Connection)
    (op : Op) : Prop where
  validated : op.Validated
  permitted : ∀ c, who = some c → ∃ request m luck, (s.2 c).Got .receive request ∧
    op = m.op tokenHash luck ∧ request.Permits tokenHash (s.2 c) m
  background : who = none → isRetention op = true ∨ ∃ boundary items,
    op = .storeReportBatch boundary items ∧ ∀ item ∈ items, ∃ c call,
      (s.2 c).Got (.submit item.write) call ∧ Submits tokenHash (s.2 c) item.write

theorem Request.Permits.validated {tokenHash : String → String} {luck : Luck} {h : Past}
    {request : Request} {m : Mutation} (permits : request.Permits tokenHash h m) :
    (m.op tokenHash luck).Validated := by
  cases m with
  | createInvite displayName actor =>
    cases request with
    | console headers request =>
      obtain ⟨principal, _, permits⟩ := permits
      cases request with
      | createInstance requested => exact ⟨requested, permits.2.1⟩
      | _ => exact permits.elim
    | _ => exact permits.elim
  | createPairing asked =>
    cases request with
    | createPairing peer request =>
      obtain ⟨rfl, valid, _⟩ := permits
      exact valid
    | console headers request =>
      obtain ⟨principal, _, permits⟩ := permits
      cases request <;> exact permits.elim
    | _ => exact permits.elim
  | updateRemark hostId remark actor =>
    cases request with
    | console headers request =>
      obtain ⟨principal, _, permits⟩ := permits
      cases request with
      | updateRemark id requested => exact ⟨requested, permits.2.2⟩
      | _ => exact permits.elim
    | _ => exact permits.elim
  | cancelInvite inviteId actor => trivial
  | activate requestId activationHash actor => trivial
  | deleteHost hostId actor => trivial

omit [DecidableEq D] in
theorem Sound.admitted {tokenHash : String → String} {s : Recorded D}
    (sound : Sound tokenHash config before s) {who : Option Connection} {op : Op}
    (hop : (who, op) ∈ s.1.ops) : Admitted tokenHash s who op := by
  cases who with
  | none =>
    rcases sound.reports.background op hop with retention | ⟨boundary, items, rfl, queued⟩
    · refine ⟨?_, fun c hc => (by cases hc), fun _ => Or.inl retention⟩
      cases op <;> trivial
    · have submits : ∀ item ∈ items, ∃ c call, (s.2 c).Got (.submit item.write) call ∧
          Submits tokenHash (s.2 c) item.write := by
        intro item hi
        obtain ⟨c, call, got⟩ := queued item hi
        exact ⟨c, call, got, submitted_validly (sound.allowed c) got⟩
      refine ⟨fun item hi => ?_, fun c hc => (by cases hc),
        fun _ => Or.inr ⟨boundary, items, rfl, submits⟩⟩
      obtain ⟨c, call, _, submits⟩ := submits item hi
      obtain ⟨now, _, valid⟩ := submits.valid
      exact ⟨now, valid⟩
  | some c =>
    obtain ⟨past, later, split⟩ := List.append_of_mem hop
    obtain ⟨m, luck, rfl, got⟩ := sound.journal.made past c op later split
    obtain ⟨request, received, permits⟩ := mutated_rightly (sound.allowed c) got
    refine ⟨permits.validated, ?_, fun hc => (by cases hc)⟩
    intro c' hc'
    cases hc'
    exact ⟨request, m, luck, received, rfl, permits⟩

/-- Every call of the store was validated. One of a connection is what its request permits, and
what a batch stores was queued by connections that were let in by a credential of the host. A
connection makes one call or queues one report at most. -/
theorem store_admitted (h : Reachable config digests before clock P) :
    P.shared.1.db = dbAfter before P.shared.1.ops ∧
    (∀ who op, (who, op) ∈ P.shared.1.ops → Admitted digests.tokenHash P.shared who op) ∧
    ∀ c, P.shared.1.writes c + submissions (P.shared.2 c) ≤ 1 := by
  have sound := h.sound
  refine ⟨sound.journal.db, fun who op hop => sound.admitted hop, ?_⟩
  intro c
  rw [sound.journal.count]
  exact writes_le_one (sound.allowed c)

/-- Rows can be shown whoever wrote them, where the server starts on rows that can. -/
theorem store_presentable (h : Reachable config digests before clock P)
    (valid : ∀ op ∈ before, op.Validated) : Presentable P.shared.1.db := by
  have sound := h.sound
  rw [sound.journal.db]
  apply presentable_after
  intro op hop
  rcases List.mem_append.mp hop with hop | hop
  · exact valid op hop
  · obtain ⟨⟨who, op⟩, hw, rfl⟩ := List.mem_map.mp hop
    exact (sound.admitted hw).validated

/-- What a client may count on once its report is acknowledged: it was let in by a credential of
the host it reports for, the report was valid, and a transaction has stored it. -/
structure Acknowledged (tokenHash : String → String) (before : List Op) (s : Recorded D)
    (c : Connection) (headers : HeaderMap) (report : ClientReport) (body : Body) : Prop where
  received : (s.2 c).Got .receive (.report headers report)
  valid : ∃ now metrics, (s.2 c).Got .now now ∧ validateReport now report = .ok metrics
  credential : ∃ credential hostId past later, authorization headers "bearer" = some credential ∧
    s.1.ops = past ++ later ∧
    hostForToken (tokenHash credential) (dbAfter before past) = some hostId ∧
    hostId.toText = report.host.id
  stored : ∃ accepted receivedAt columns past batch later,
    body = .ack report.host.id report.reportId accepted receivedAt ∧
    s.1.ops = past ++ (none, batch) :: later ∧
    Holds columns (dbAfter before (past ++ [(none, batch)])) ∧
    columns.reportId.toText = report.reportId ∧ columns.hostId.toText = report.host.id ∧
    columns.receivedAt = receivedAt ∧ (accepted = true → columns.collectedAt = report.collectedAt ∧
      columns.intervalSeconds = report.intervalSeconds ∧ columns.metrics = metricSummary report)

omit [DecidableEq D] in
/-- A positive answer of the telemetry writer was written by the transaction of a batch. -/
theorem stored_of_own_result {s : Recorded D} (sound : Sound digests.tokenHash config before s)
    {i : Nat} {write : ReportWrite} {accepted : Bool} {receivedAt : DateTime}
    (own : OwnResult s.1.telemetry.outcomes i write (accepted, receivedAt)) :
    ∃ columns past batch later, Confirmed write accepted receivedAt columns ∧
      s.1.ops = past ++ (none, batch) :: later ∧
      Holds columns (dbAfter before (past ++ [(none, batch)])) := by
  obtain ⟨o, ho, results, k, committed, _, hb, hr⟩ := own
  obtain ⟨past, later, split, started⟩ := sound.reports.outcomes o ho
  have item : o.items[k]? = some ⟨write, o.receivedAt ⟨write, i⟩, o.faults ⟨write, i⟩⟩ := by
    rw [Telemetry.Outcome.items, List.getElem?_map, hb]
    rfl
  obtain ⟨columns, confirmed, holds⟩ :=
    storeReportBatch_confirmed o.boundary o.items o.before results committed k _ _ _ item hr
  refine ⟨columns, past, _, later, confirmed, split, ?_⟩
  rw [dbAfter_concat, ← started]
  exact holds

theorem columns_of_confirmed {write : ReportWrite} {accepted : Bool} {receivedAt : DateTime}
    {columns : MetricReport} (confirmed : Confirmed write accepted receivedAt columns)
    {now : DateTime} (valid : validateReport now write.report = .ok write.metrics) :
    columns.reportId.toText = write.report.reportId ∧ columns.hostId.toText = write.report.host.id ∧
    columns.receivedAt = receivedAt ∧ (accepted = true →
      columns.collectedAt = write.report.collectedAt ∧
      columns.intervalSeconds = write.report.intervalSeconds ∧
      columns.metrics = metricSummary write.report) := by
  obtain ⟨report, metrics⟩ := (validateReport_ok _ _ _).mp valid
  obtain ⟨reportId, canonicalReport⟩ := report.report_id
  obtain ⟨hostId, canonicalHost⟩ := report.host.id
  refine ⟨?_, ?_, confirmed.received_at, fun own => ?_⟩
  · have parsed := confirmed.report_id
    rw [← canonicalReport, Uuid.parseStr_toText] at parsed
    rw [← Option.some.inj parsed, canonicalReport]
  · have parsed := confirmed.host_id
    rw [← canonicalHost, Uuid.parseStr_toText] at parsed
    rw [← Option.some.inj parsed, canonicalHost]
  · rw [confirmed.own own, ← metrics]
    exact ⟨rfl, rfl, rfl⟩

/-- Whatever else goes on, an acknowledged report is a stored one. -/
theorem report_acknowledged (h : Reachable config digests before clock P) (c : Connection)
    (r : Response) (responded : (P.shared.2 c).Got (.respond r) ()) (is202 : r.status = 202) :
    ∃ headers report,
      Acknowledged digests.tokenHash before P.shared c headers report r.body := by
  have sound := h.sound
  obtain ⟨past, keeps, request, _, answered⟩ := owed (sound.allowed c) responded
  obtain ⟨_, write, i, result, _, submitted, returned, told⟩ := answered.accepted is202
  have submits := submitted_validly (sound.allowed c) (keeps _ _ submitted)
  obtain ⟨headers, credential, received, bearer, hashed⟩ := submits.credential
  obtain ⟨hostId, found, same⟩ := submits.host
  obtain ⟨now, read, valid⟩ := submits.valid
  refine ⟨headers, write.report, received, ⟨now, _, read, valid⟩, ?_, ?_⟩
  · obtain ⟨first, later, _, split, reads⟩ := sound.journal.read c _ _ found
    rw [hashed] at reads
    exact ⟨credential, hostId, first, later, bearer, split, reads.symm, same⟩
  · obtain ⟨_, call, hc, hw⟩ := (sound.reports.submitted c write i).mp (keeps _ _ submitted)
    obtain ⟨call', hc', hp⟩ := sound.reports.answered c i _ (keeps _ _ returned)
    cases hc.symm.trans hc'
    have own := sound.reports.writer.own_result i call result hc hp
    rw [hw] at own
    obtain ⟨columns, first, batch, later, confirmed, split, holds⟩ := stored_of_own_result sound own
    exact ⟨result.1, result.2, columns, first, batch, later, told, split, holds,
      columns_of_confirmed confirmed valid⟩

/-- What a connection asked for was done, by its one call of the store, as its response says. -/
def Done (tokenHash : String → String) (before : List Op) (s : Recorded D) (c : Connection)
    (body : Body) : Prop :=
  ∃ request m luck past later, (s.2 c).Got .receive request ∧ request.Permits tokenHash (s.2 c) m ∧
    s.1.ops = past ++ (some c, m.op tokenHash luck) :: later ∧
    m.Effect tokenHash body (dbAfter before past)
      (dbAfter before (past ++ [(some c, m.op tokenHash luck)]))

omit [DecidableEq D] in
/-- A response that tells of a success is right. -/
theorem done_of_answered {s : Recorded D} (sound : Sound digests.tokenHash config before s)
    {c : Connection} {r : Response} (responded : (s.2 c).Got (.respond r) ()) {request : Request}
    (received : (s.2 c).Got .receive request) (mutates : request.mutates = true)
    (success : r.status < 300) : Done digests.tokenHash before s c r.body := by
  obtain ⟨past, keeps, answered⟩ := response_answers (sound.allowed c) received responded
  obtain ⟨m, a, got, confirms⟩ := answered.done success mutates
  obtain ⟨luck, first, later, split, result⟩ := sound.journal.mutated c m _ (keeps _ _ got)
  obtain ⟨asked, receivedIt, permits⟩ := mutated_rightly (sound.allowed c) (keeps _ _ got)
  refine ⟨asked, m, luck, first, later, receivedIt, permits, split, ?_⟩
  rw [dbAfter_concat, m.exec_op]
  exact confirms.effect result.symm

end

/-- One connection reports for the laptop, another names it anew. -/
def laptopTurns : List (Turn Connection Meeting Telemetry.Move) :=
  let luck : Luck := ⟨.none, (⟨7⟩, ⟨8⟩), "", noon, noon⟩
  let reports : Meeting :=
    { request := .report [("authorization", "Bearer token".toUTF8.toList)] (datedReport noon)
      time := noon
      instant := 0
      luck }
  let renames : Meeting :=
    { request := .console [] (.updateRemark "00000000-0000-0000-0000-000000000002" "the laptop")
      time := noon
      instant := 0
      luck }
  [.spawn 0, .go 0 reports, .go 0 reports, .go 0 reports, .spawn 1, .go 1 renames, .go 1 renames,
    .go 0 reports, .go 0 reports, .outside (.caller 0 .reserve), .outside (.caller 0 .send),
    .outside (.writer .proceed), .outside (.writer .receive), .go 1 renames,
    .outside (.writer .proceed), .outside (.writer .flush),
    .outside (.writer (.transact (.quiet _) (fun _ => noon) fun _ => .none)), .go 1 renames,
    .outside (.writer .proceed), .outside (.caller 0 .respond), .go 0 reports, .go 0 reports]

/-- Both connections are told that it worked. -/
theorem laptop_played : ∃ P, Reachable .production (⟨id, id⟩ : Digests String) laptopActive 0 P ∧
    (∃ r, (P.shared.2 0).Got (.respond r) () ∧ r.status = 202) ∧
    ∃ r, (P.shared.2 1).Got (.respond r) () ∧ r.status = 204 ∧
      ∃ request, (P.shared.2 1).Got .receive request ∧ request.mutates = true := by
  have ends : (played .production (⟨id, id⟩ : Digests String) laptopActive 0 laptopTurns).any
      (fun P => (P.shared.2 0).response.any (fun r => decide (r.status = 202)) &&
        ((P.shared.2 1).response.any (fun r => decide (r.status = 204)) &&
        (P.shared.2 1).request.any Request.mutates)) = true := by
    decide +kernel
  obtain ⟨P, played, told⟩ := (Option.any_eq_true _ _).mp ends
  simp only [Bool.and_eq_true, Option.any_eq_true, decide_eq_true_eq] at told
  obtain ⟨⟨r, responded, status⟩, ⟨r', responded', status'⟩, request, received, mutates⟩ := told
  exact ⟨P, reachable_played played, ⟨r, Past.got_response responded, status⟩, r',
    Past.got_response responded', status', request, Past.got_request received, mutates⟩

/-- Whether a call stored some reports for the telemetry writer. -/
def storesBatch : Option Connection × Op → Bool
  | (none, .storeReportBatch _ items) => !items.isEmpty
  | _ => false

theorem laptop_admitted : ∃ P, Reachable .production (⟨id, id⟩ : Digests String) laptopActive 0 P ∧
    P.shared.1.db = dbAfter laptopActive P.shared.1.ops ∧
    P.shared.1.writes 1 = 1 ∧ submissions (P.shared.2 1) = 0 ∧
    ∃ boundary items, items ≠ [] ∧ (none, .storeReportBatch boundary items) ∈ P.shared.1.ops ∧
      ∀ item ∈ items, ∃ c call, (P.shared.2 c).Got (.submit item.write) call ∧
        Submits id (P.shared.2 c) item.write := by
  have ends : (played .production (⟨id, id⟩ : Digests String) laptopActive 0 laptopTurns).any
      (fun P => decide (P.shared.1.writes 1 = 1) && P.shared.1.ops.any storesBatch) = true := by
    decide +kernel
  obtain ⟨P, played, told⟩ := (Option.any_eq_true _ _).mp ends
  simp only [Bool.and_eq_true, List.any_eq_true, decide_eq_true_eq] at told
  obtain ⟨wrote, ⟨who, op⟩, made, batch⟩ := told
  have reachable := reachable_played played
  obtain ⟨db, admitted, writes⟩ := store_admitted reachable
  have once := writes 1
  refine ⟨P, reachable, db, wrote, by omega, ?_⟩
  cases who with
  | some c => cases batch
  | none =>
    cases op with
    | storeReportBatch boundary items =>
      rcases (admitted _ _ made).background rfl with retention | ⟨_, _, same, queued⟩
      · cases retention
      · cases same
        refine ⟨boundary, items, ?_, made, queued⟩
        intro empty
        rw [empty] at batch
        cases batch
    | _ => cases batch

theorem laptop_acknowledged :
    ∃ P, Reachable .production (⟨id, id⟩ : Digests String) laptopActive 0 P ∧
    ∃ (r : Response) (headers : HeaderMap) (report : ClientReport),
      Acknowledged id laptopActive P.shared 0 headers report r.body := by
  obtain ⟨P, reachable, ⟨r, responded, status⟩, _⟩ := laptop_played
  obtain ⟨headers, report, acknowledged⟩ := report_acknowledged reachable 0 r responded status
  exact ⟨P, reachable, r, headers, report, acknowledged⟩

def deskAsking : ClientPairingRequest where
  host := ⟨"00000000-0000-0000-0000-000000000009", "linux", none, none, "x86_64", "0.9.14"⟩
  tokenHash := String.ofList (List.replicate 64 'a')
  pollingSecretHash := String.ofList (List.replicate 64 'b')

/-- A desk computer was paired with the server before. -/
def deskEnrolled : List Op :=
  [.createInvite .none "desk" "admin" ⟨1⟩ ⟨2⟩ "code" "code hash" noon noon,
    .createPairing .none deskAsking ⟨3⟩ noon noon,
    .activate .none ⟨3⟩ "code hash" "admin" ⟨4⟩ noon noon]

theorem deskEnrolled_validated : ∀ op ∈ deskEnrolled, op.Validated := by
  have named : createClientInstanceRequestValidated (some "desk") = .ok "desk" := by
    decide +kernel
  have asked : validatePairing deskAsking = .ok () := by
    decide +kernel
  intro op hop
  simp only [deskEnrolled, List.mem_cons, List.not_mem_nil, or_false] at hop
  rcases hop with rfl | rfl | rfl
  · exact ⟨some "desk", named⟩
  · exact asked
  · trivial

/-- An administrator invites a laptop, and another device asks to be paired. -/
def inviteTurns : List (Turn Connection Meeting Telemetry.Move) :=
  let meets (request : Request) (drawn : Uuid × Uuid) (code : String) : Meeting :=
    { request, time := noon, instant := 0, luck := ⟨.none, drawn, code, noon, noon⟩ }
  let invites := meets (.console [] (.createInstance (some "laptop"))) (⟨5⟩, ⟨6⟩) "other code"
  let asks := meets (.createPairing (.v4 0) { deskAsking with
    tokenHash := String.ofList (List.replicate 64 'c')
    pollingSecretHash := String.ofList (List.replicate 64 'd') }) (⟨7⟩, ⟨8⟩) ""
  .spawn 0 :: List.replicate 5 (.go 0 invites) ++ .spawn 1 :: List.replicate 5 (.go 1 asks)

theorem invited_presentable : ∃ P,
    Reachable .production (⟨id, id⟩ : Digests String) deskEnrolled 0 P ∧
    P.shared.1.db.invites.rows.length = 2 ∧ P.shared.1.db.pairings.rows.length = 2 ∧
    P.shared.1.db.hosts.rows.length = 1 ∧ Presentable P.shared.1.db := by
  have ends : (played .production (⟨id, id⟩ : Digests String) deskEnrolled 0 inviteTurns).any
      (fun P => decide (P.shared.1.db.invites.rows.length = 2) &&
        (decide (P.shared.1.db.pairings.rows.length = 2) &&
        decide (P.shared.1.db.hosts.rows.length = 1))) = true := by
    decide +kernel
  obtain ⟨P, played, rows⟩ := (Option.any_eq_true _ _).mp ends
  simp only [Bool.and_eq_true, decide_eq_true_eq] at rows
  have reachable := reachable_played played
  exact ⟨P, reachable, rows.1, rows.2.1, rows.2.2,
    store_presentable reachable deskEnrolled_validated⟩

end HostMonitoring.Server
