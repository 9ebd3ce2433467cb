import HostMonitoring.Telemetry.Moves

namespace HostMonitoring.Telemetry

open HostMonitoring.Framework
open HostMonitoring.Store

/-- What batch transactions, in their order, and other calls of the store make of
a store: each starts from what the one before it left. -/
inductive StoredBy (db : Db) : List Outcome → Db → Prop where
  | start : StoredBy db [] db
  | elsewhere (outcomes : List Outcome) (now : Db) (op : Op) (h : StoredBy db outcomes now) :
      StoredBy db outcomes (op.exec now).2
  | transacted (outcomes : List Outcome) (o : Outcome) (h : StoredBy db outcomes o.before) :
      StoredBy db (outcomes ++ [o]) o.after

section
variable {config : TelemetryWriterConfig} {s : State}

/-- Nothing but the transactions and the other calls of the store changes it. -/
theorem stored_by (db : Db) (h : Reachable config db s) : StoredBy db s.outcomes s.db := by
  induction h with
  | start => exact .start
  | step s s' move _ hs ih =>
    by_cases own : ∀ write, move ≠ .submit write
    · by_cases other : ∀ op, move ≠ .elsewhere op
      · rcases step_cases own other hs with ⟨_, same⟩ | ⟨boundary, receivedAt, faults, batch, _, _, he⟩
        · rw [same.db, same.outcomes]
          exact ih
        · obtain ⟨_, _, db', outcomes⟩ :=
            transacted_store s ⟨batch, boundary, receivedAt, faults, s.db⟩
          rw [he, db', outcomes]
          exact .transacted s.outcomes ⟨batch, boundary, receivedAt, faults, s.db⟩ ih
      · push Not at other
        obtain ⟨op, rfl⟩ := other
        cases hs
        exact .elsewhere s.outcomes s.db op ih
    · push Not at own
      obtain ⟨write, rfl⟩ := own
      simp only [step] at hs
      split_ifs at hs
      cases hs
      exact ih

/-- A transaction that failed left the store as it was. -/
theorem Outcome.failed_after (o : Outcome) (e : StoreError) (failed : o.result = .error e) :
    o.after = o.before := by
  obtain ⟨_, same⟩ | ⟨results, ok, _⟩ :=
    storeReportBatch_cases o.boundary o.items o.before _ _ Prod.mk.eta.symm
  · exact same
  · rw [Outcome.result, ok] at failed
    cases failed

/-- What the telemetry writer promises of a run from a store `db`, at every moment. -/
structure WriterProtocol (config : TelemetryWriterConfig) (db : Db) (s : State) : Prop where
  sizes : ∀ batch ∈ s.batches, 1 ≤ batch.length ∧ batch.length ≤ config.batchSize
  order : s.sent = s.batches.flatten ++ s.writer.inHand ++ s.queue
  once : (s.sent.map QueuedReport.call).Nodup
  stored : StoredBy db s.outcomes s.db
  own_result : ∀ (i : Nat) (call : Call) (result : Bool × DateTime), s.calls[i]? = some call →
    call.phase = .returned (.ok result) → OwnResult s.outcomes i call.write result
  queue_full : ∀ (i : Nat) (call : Call), s.calls[i]? = some call →
    call.phase = .returned (.error .queueFull) →
      (∀ q ∈ s.sent, q.call ≠ i) ∧ ∀ o ∈ s.outcomes, ∀ q ∈ o.batch, q.call ≠ i
  failed_batch : ∀ o ∈ s.outcomes, ∀ e, o.result = .error e → o.after = o.before ∧ ∀ q ∈ o.batch,
    (q.call, batchNotCommitted) ∈ s.answers ++ s.writer.todo ∧
    (∀ answer, (q.call, answer) ∈ s.answers → answer = batchNotCommitted) ∧
    ∀ call, s.calls[q.call]? = some call → ∀ result, call.phase ≠ .returned (.ok result)
  counts : s.counters.completed + s.counters.failed + s.writer.uncounted + s.queue.length =
    s.sent.length
  returned : s.writer = .returned → s.queue = [] ∧ s.sent = s.batches.flatten ∧
    s.answers.map Prod.fst = s.sent.map QueuedReport.call ∧
    ∀ (i : Nat) (call : Call), s.calls[i]? = some call → call.phase ≠ .permitted ∧
      ∀ answer, (i, answer) ∈ s.answers → call.phase = .awaiting → call.completion = .filled answer

/-- In every run of callers, shutdown and writer, in any interleaving, the writer
batches what was sent in order, the store is what the batches' transactions made
of it, each report is answered once and with its own result, and the writer
returns only when nothing is left. -/
theorem writer_protocol (db : Db) (h : Reachable config db s) : WriterProtocol config db s := by
  have inv := inv_reachable db h
  have failed := inv.failed_batch
  refine ⟨inv.flow.sizes, inv.flow.order, inv.calls.once, stored_by db h, inv.own_result,
    fun i call hc full => ?_, fun o ho e he => ⟨o.failed_after e he, fun q hq =>
      ⟨(failed o ho e he q hq).1, (failed o ho e he q hq).2, ?_⟩⟩, inv.counts, fun hw => ?_⟩
  · have unsent := (inv.calls.each i call hc).unsent (Or.inr (Or.inr full))
    exact ⟨unsent, fun o ho q hq => unsent q (inv.batched.1 o ho q hq)⟩
  · intro call hc result ok
    have answered := (inv.calls.each q.call call hc).ok result ok
    have refused := (failed o ho e he q hq).2 _ answered
    cases refused
  · have queue := (inv.stopped hw).2.1
    have order := inv.flow.order
    have ended := inv.ledger.ended
    have given := inv.ledger.given
    rw [hw] at order ended given
    simp only [Writer.inHand, queue, List.append_nil] at order
    simp only [Writer.current, List.append_nil] at ended
    simp only [Writer.todo, List.append_nil] at given
    refine ⟨queue, order, ?_, fun i call hc => ⟨fun permitted => ?_, (inv.calls.each i call hc).heard⟩⟩
    · rw [← given, answers_calls, ← ended, order]
    · have free := (inv.stopped hw).2.2 i call hc
      simp [Call.holdsPermit, permitted] at free

end

/-- Some steps, one after another. -/
def run (config : TelemetryWriterConfig) (s : State) (moves : List Move) : Option State :=
  moves.foldlM (step config) s

theorem reachable_run (config : TelemetryWriterConfig) (db : Db) (moves : List Move) (s s' : State)
    (hr : Reachable config db s) (h : run config s moves = some s') : Reachable config db s' := by
  induction moves generalizing s with
  | nil =>
    cases h
    exact hr
  | cons move moves ih =>
    simp only [run, List.foldlM_cons, Option.bind_eq_bind, Option.bind_eq_some_iff] at h
    obtain ⟨t, ht, h⟩ := h
    exact ih t (.step s t move hr ht) h

/-- The writer waits for more after the laptop's first report when it is told to
shut down. It still takes the second, stores both in one batch and returns; the
first caller is gone, the second hears of its report. -/
def laptopMoves : List Move :=
  [.submit (laptopReport "00000000-0000-0000-0000-000000000005" noon),
    .submit (laptopReport "00000000-0000-0000-0000-000000000006" (noon.plusSeconds 10)),
    .caller 0 .reserve, .caller 1 .reserve, .caller 0 .send, .caller 1 .send, .writer .proceed,
    .writer .receive, .writer .proceed, .request, .notify, .caller 0 .cancel, .writer .wake,
    .writer .proceed, .writer .receive, .writer .proceed, .writer .receive,
    .writer (.transact (.quiet _) (fun _ => noon) fun _ => .none), .writer .proceed,
    .writer .proceed, .caller 1 .respond, .writer .proceed, .writer .proceed, .writer .end]

/-- Whether a call returned with this result. -/
def State.answered (s : State) (i : Nat) (result : Bool × DateTime) : Bool :=
  match s.calls[i]? with
  | some ⟨_, .returned (.ok own), _⟩ => decide (own = result)
  | _ => false

theorem writer_protocol_laptop :
    ∃ s, run .production { db := store.after laptopActive } laptopMoves = some s ∧
      s.answered 1 (true, noon) = true ∧
      s.db.reports.rows.map MetricReport.reportId = [⟨5⟩, ⟨6⟩] ∧
      WriterProtocol .production (store.after laptopActive) s := by
  have some : (run .production { db := store.after laptopActive } laptopMoves).any (fun s =>
      s.answered 1 (true, noon) && decide (s.db.reports.rows.map MetricReport.reportId = [⟨5⟩, ⟨6⟩])) =
      true := by
    decide +kernel
  obtain ⟨s, hs, held⟩ := (Option.any_eq_true _ _).mp some
  simp only [Bool.and_eq_true, decide_eq_true_eq] at held
  exact ⟨s, hs, held.1, held.2, writer_protocol _ (reachable_run _ _ _ _ _ .start hs)⟩

end HostMonitoring.Telemetry
