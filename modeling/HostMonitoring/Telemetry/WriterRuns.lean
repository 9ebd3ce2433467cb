import HostMonitoring.Telemetry.WriterInvariant

namespace HostMonitoring.Telemetry

open HostMonitoring.Framework
open HostMonitoring.Framework.Tx
open HostMonitoring.Store

section
variable {config : TelemetryWriterConfig} {s : State}

theorem observeShutdown_writer (s : State) : s.observeShutdown.writer = s.writer := by
  unfold State.observeShutdown
  split_ifs <;> rfl

theorem wake_writer (s : State) : s.wake.writer = s.writer := by
  unfold State.wake
  dsimp only
  split_ifs <;> rfl

/-- The next statement of the writer. -/
theorem Inv.proceed (inv : Inv config s) (s' : State)
    (h : writerStep config s .proceed = some s') : Inv config s' := by
  simp only [writerStep] at h
  have room := inv.flow.room
  have seen := inv.observeShutdown
  have same := observeShutdown_writer s
  have counted := inv.ledger.counted
  split at h
  · rename_i hw
    rw [hw] at same
    cases h
    have holds : s.observeShutdown.writer.Holds [] := by
      rw [same]
      exact .top
    split_ifs
    · exact seen.goto .recvFirst [] holds .recvFirst trivial Writer.noConfusion
    · exact seen.goto .selectFirst [] holds .selectFirst trivial Writer.noConfusion
  · rename_i batch hw
    rw [hw] at room same
    have holds : s.observeShutdown.writer.Holds batch := by
      rw [same]
      exact .collecting batch
    split_ifs at h with more
    · cases h
      exact seen.goto (.tryRecv batch) batch holds (.tryRecv batch) ⟨room.1, more⟩
        Writer.noConfusion
    · cases h
      exact seen.goto (.selectMore batch) batch holds (.selectMore batch) ⟨room.1, more⟩
        Writer.noConfusion
    · cases h
      exact inv.handOver batch (by rw [hw]; exact .collecting batch) room
  · rename_i answer q todo hw
    cases h
    rw [hw] at counted
    refine inv.complete (s.count answer) q.call answer (.answering todo)
      ⟨rfl, rfl, rfl, rfl, rfl, rfl⟩ (by rw [hw]; rfl) (by rw [hw]; rfl) (by rw [hw]; rfl) trivial
      Writer.noConfusion ?_
    simp only [Writer.refused] at counted ⊢
    cases answer with
    | ok result =>
      change s.counters.completed + 1 + s.counters.failed = _
      omega
    | error e =>
      change s.counters.completed + (s.counters.failed + 1) = _
      omega
  · rename_i hw
    cases h
    exact inv.goto .top [] (by rw [hw]; exact .answered) .top trivial
      Writer.noConfusion
  · rename_i q todo hw
    cases h
    rw [hw] at counted
    refine inv.complete s q.call batchNotCommitted (.refusing todo) ⟨rfl, rfl, rfl, rfl, rfl, rfl⟩
      (by rw [hw]; rfl) (by rw [hw]; rfl) (by rw [hw]; rfl) trivial Writer.noConfusion ?_
    simp only [Writer.refused, List.length_cons] at counted ⊢
    omega
  · rename_i hw
    cases h
    exact inv.goto .top [] (by rw [hw]; exact .refused_all) .top trivial
      Writer.noConfusion
  · cases h

theorem Inv.writerStep (inv : Inv config s) (move : WriterMove) (s' : State)
    (h : writerStep config s move = some s') : Inv config s' := by
  have room := inv.flow.room
  have size := config.batchSize_bounds
  cases move with
  | proceed => exact inv.proceed s' h
  | receive =>
    simp only [Telemetry.writerStep] at h
    split at h
    · rename_i q queue hw hq
      cases h
      exact inv.receive q queue [] hq (by rw [hw]; exact .selectFirst)
        (by simp only [List.length_nil]; omega)
    · rename_i q queue hw hq
      cases h
      exact inv.receive q queue [] hq (by rw [hw]; exact .recvFirst)
        (by simp only [List.length_nil]; omega)
    · rename_i batch q queue hw hq
      cases h
      rw [hw] at room
      exact inv.receive q queue batch hq (by rw [hw]; exact .selectMore batch) room.2
    · rename_i batch q queue hw hq
      cases h
      rw [hw] at room
      exact inv.receive q queue batch hq (by rw [hw]; exact .tryRecv batch) room.2
    · rename_i batch hw hq
      cases h
      rw [hw] at room
      exact inv.handOver batch (by rw [hw]; exact .tryRecv batch) ⟨room.1, room.2.le⟩
    · cases h
  | «end» =>
    simp only [Telemetry.writerStep] at h
    split at h
    · rename_i hw
      split_ifs at h with ended
      cases h
      exact inv.stop ended (by rw [hw]; exact .selectFirst)
    · rename_i hw
      split_ifs at h with ended
      cases h
      exact inv.stop ended (by rw [hw]; exact .recvFirst)
    · rename_i batch hw
      split_ifs at h
      cases h
      rw [hw] at room
      exact inv.handOver batch (by rw [hw]; exact .selectMore batch) ⟨room.1, room.2.le⟩
    · cases h
  | flush =>
    simp only [Telemetry.writerStep] at h
    split at h
    · rename_i batch hw
      cases h
      rw [hw] at room
      exact inv.handOver batch (by rw [hw]; exact .selectMore batch) ⟨room.1, room.2.le⟩
    · cases h
  | wake =>
    simp only [Telemetry.writerStep] at h
    have woken := inv.wake
    have same := wake_writer s
    split at h
    · rename_i hw
      split_ifs at h
      cases h
      exact woken.goto .recvFirst [] (by rw [same, hw]; exact .selectFirst)
        .recvFirst trivial Writer.noConfusion
    · rename_i batch hw
      split_ifs at h
      cases h
      rw [hw] at room
      exact woken.goto (.collecting batch) batch (by rw [same, hw]; exact .selectMore batch)
        (.collecting batch) ⟨room.1, room.2.le⟩ Writer.noConfusion
    · cases h
  | transact boundary receivedAt faults =>
    simp only [Telemetry.writerStep] at h
    split at h
    · rename_i batch hw
      cases h
      exact inv.transacted ⟨batch, boundary, receivedAt, faults, s.db⟩ hw
    · cases h

/-- Every step of anybody keeps the protocol in order. -/
theorem Inv.step (inv : Inv config s) (move : Move) (s' : State)
    (h : step config s move = some s') : Inv config s' := by
  cases move with
  | submit write =>
    simp only [Telemetry.step] at h
    split_ifs at h
    cases h
    refine ⟨inv.flow, inv.ledger, inv.calls.submitted write, fun hw => ?_⟩
    obtain ⟨closed, queue, none⟩ := inv.stopped hw
    refine ⟨closed, queue, fun i call hc => ?_⟩
    obtain hc | hc := List.mem_append.mp (List.mem_of_getElem? hc)
    · obtain ⟨j, hj⟩ := List.mem_iff_getElem?.mp hc
      exact none j call hj
    · rw [List.mem_singleton.mp hc]
      rfl
  | caller i move =>
    simp only [Telemetry.step] at h
    split at h
    · rename_i call hc
      exact inv.callStep i call hc move s' h
    · cases h
  | dropHandles =>
    simp only [Telemetry.step] at h
    split_ifs at h
    cases h
    exact ⟨inv.flow, inv.ledger, inv.calls, inv.stopped⟩
  | request =>
    cases h
    exact ⟨inv.flow, inv.ledger, inv.calls, inv.stopped⟩
  | notify =>
    simp only [Telemetry.step] at h
    split_ifs at h
    cases h
    exact ⟨inv.flow, inv.ledger, inv.calls, inv.stopped⟩
  | writer move => exact inv.writerStep move s' h
  | elsewhere op =>
    cases h
    exact ⟨inv.flow, inv.ledger, inv.calls, inv.stopped⟩

theorem inv_reachable (db : Db) (h : Reachable config db s) : Inv config s := by
  induction h with
  | start =>
    refine ⟨⟨rfl, fun _ hb => absurd hb List.not_mem_nil, trivial⟩, ⟨rfl, rfl, rfl⟩,
      ⟨fun i call hc => ?_, fun _ hq => absurd hq List.not_mem_nil,
        fun _ _ ha => absurd ha List.not_mem_nil, List.nodup_nil⟩, fun hw => (by cases hw)⟩
    simp at hc
  | step s s' move _ hs ih => exact ih.step move s' hs

/-- The reports that were taken from the queue and are not counted yet. -/
def Writer.uncounted : Writer → Nat
  | .collecting batch => batch.length
  | .selectMore batch => batch.length
  | .tryRecv batch => batch.length
  | .persisting batch => batch.length
  | .answering todo => todo.length
  | _ => 0

theorem Writer.uncounted_eq (w : Writer) :
    w.uncounted + w.refused = w.inHand.length + w.current.flatten.length + w.todo.length := by
  cases w <;> simp [uncounted, refused, inHand, current, todo]

/-- A transaction committed with this result for the call's own report. -/
def OwnResult (outcomes : List Outcome) (i : Nat) (write : ReportWrite)
    (result : Bool × DateTime) : Prop :=
  ∃ o ∈ outcomes, ∃ (results : List Answer) (k : Nat), o.result = .ok results ∧
    oneByOne storeSeparately o.items o.before = (results, o.after) ∧
    o.batch[k]? = some ⟨write, i⟩ ∧ results[k]? = some (.ok result)

theorem Inv.own_result (inv : Inv config s) (i : Nat) (call : Call) (result : Bool × DateTime)
    (hc : s.calls[i]? = some call) (ok : call.phase = .returned (.ok result)) :
    OwnResult s.outcomes i call.write result := by
  have given : (i, .ok result) ∈ s.outcomes.flatMap Outcome.answers := by
    rw [inv.ledger.given]
    exact List.mem_append_left _ ((inv.calls.each i call hc).ok result ok)
  obtain ⟨o, ho, ha⟩ := List.mem_flatMap.mp given
  unfold Outcome.answers at ha
  cases h : o.result with
  | error e =>
    rw [h] at ha
    obtain ⟨q, _, he⟩ := List.mem_map.mp ha
    have impossible := (Prod.mk.inj he).2
    cases impossible
  | ok results =>
    rw [h] at ha
    obtain ⟨⟨answer, q⟩, hz, he⟩ := List.mem_map.mp ha
    obtain ⟨hcall, hanswer⟩ := Prod.mk.inj he
    obtain ⟨k, hk⟩ := List.mem_iff_getElem?.mp hz
    obtain ⟨hresult, hbatch⟩ := List.getElem?_zip_eq_some.mp hk
    have committed : oneByOne storeSeparately o.items o.before = (results, o.after) := by
      obtain ⟨⟨e, failed⟩, _⟩ | ⟨results', hr, _, separate⟩ :=
        storeReportBatch_cases o.boundary o.items o.before _ _ Prod.mk.eta.symm
      · rw [Outcome.result, failed] at h
        cases h
      · rw [Outcome.result, hr] at h
        cases h
        exact separate
    obtain ⟨write, j⟩ := q
    obtain ⟨call', hc', hw⟩ := inv.calls.known ⟨write, j⟩
      (inv.batched.1 o ho _ (List.mem_of_getElem? hbatch))
    change j = i at hcall
    change s.calls[j]? = some call' at hc'
    change call'.write = write at hw
    rw [hcall, hc] at hc'
    cases hc'
    rw [hcall, ← hw] at hbatch
    rw [hanswer] at hresult
    exact ⟨o, ho, results, k, h, committed, hbatch, hresult⟩

/-- Nobody in a batch that did not commit is answered `Ok`. -/
theorem Inv.failed_batch (inv : Inv config s) (o : Outcome) (ho : o ∈ s.outcomes) (e : StoreError)
    (failed : o.result = .error e) (q : QueuedReport) (hq : q ∈ o.batch) :
    (q.call, batchNotCommitted) ∈ s.answers ++ s.writer.todo ∧
    ∀ answer, (q.call, answer) ∈ s.answers → answer = batchNotCommitted := by
  have refused : (q.call, batchNotCommitted) ∈ s.outcomes.flatMap Outcome.answers := by
    refine List.mem_flatMap.mpr ⟨o, ho, ?_⟩
    simp only [Outcome.answers, failed]
    exact List.mem_map.mpr ⟨q, hq, rfl⟩
  constructor
  · rw [← inv.ledger.given]
    exact refused
  · intro answer ha
    have given : (q.call, answer) ∈ s.outcomes.flatMap Outcome.answers := by
      rw [inv.ledger.given]
      exact List.mem_append_left _ ha
    exact (Prod.mk.inj (List.inj_on_of_nodup_map inv.batched.2 given refused rfl)).2

theorem Inv.counts (inv : Inv config s) : s.counters.completed + s.counters.failed +
    s.writer.uncounted + s.queue.length = s.sent.length := by
  have counted := inv.ledger.counted
  have given := congrArg List.length inv.ledger.given
  have calls := congrArg List.length (answers_calls s.outcomes)
  have ended := congrArg (fun batches => (List.flatten batches).length) inv.ledger.ended
  have order := congrArg List.length inv.flow.order
  have writer := s.writer.uncounted_eq
  simp only [List.length_map, List.length_append, List.flatten_append] at given calls ended order
  omega

end
end HostMonitoring.Telemetry
