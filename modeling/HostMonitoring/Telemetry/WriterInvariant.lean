import HostMonitoring.Telemetry.Writer

namespace HostMonitoring.Telemetry

open HostMonitoring.Framework
open HostMonitoring.Framework.Tx
open HostMonitoring.Store

/-- The batch that is being collected. -/
def Writer.inHand : Writer → List QueuedReport
  | .collecting batch => batch
  | .selectMore batch => batch
  | .tryRecv batch => batch
  | _ => []

/-- The batch whose transaction has not ended. -/
def Writer.current : Writer → List (List QueuedReport)
  | .persisting batch => [batch]
  | _ => []

/-- The answers still to be given to the last batch. -/
def Writer.todo : Writer → List (Nat × Answer)
  | .answering todo => todo.map fun (answer, q) => (q.call, answer)
  | .refusing todo => todo.map fun q => (q.call, batchNotCommitted)
  | _ => []

/-- Failures are counted before they are answered. -/
def Writer.refused : Writer → Nat
  | .refusing todo => todo.length
  | _ => 0

/-- The writer holds a batch and owes no answer. -/
structure Writer.Holds (writer : Writer) (batch : List QueuedReport) : Prop where
  inHand : writer.inHand = batch
  current : writer.current = []
  todo : writer.todo = []
  refused : writer.refused = 0

namespace Writer.Holds

theorem top : Writer.top.Holds [] := ⟨rfl, rfl, rfl, rfl⟩

theorem selectFirst : Writer.selectFirst.Holds [] := ⟨rfl, rfl, rfl, rfl⟩

theorem recvFirst : Writer.recvFirst.Holds [] := ⟨rfl, rfl, rfl, rfl⟩

theorem collecting (batch : List QueuedReport) : (Writer.collecting batch).Holds batch :=
  ⟨rfl, rfl, rfl, rfl⟩

theorem selectMore (batch : List QueuedReport) : (Writer.selectMore batch).Holds batch :=
  ⟨rfl, rfl, rfl, rfl⟩

theorem tryRecv (batch : List QueuedReport) : (Writer.tryRecv batch).Holds batch :=
  ⟨rfl, rfl, rfl, rfl⟩

theorem answered : (Writer.answering []).Holds [] := ⟨rfl, rfl, rfl, rfl⟩

theorem refused_all : (Writer.refusing []).Holds [] := ⟨rfl, rfl, rfl, rfl⟩

end Writer.Holds

def Writer.Room (config : TelemetryWriterConfig) : Writer → Prop
  | .collecting batch => 1 ≤ batch.length ∧ batch.length ≤ config.batchSize
  | .selectMore batch => 1 ≤ batch.length ∧ batch.length < config.batchSize
  | .tryRecv batch => 1 ≤ batch.length ∧ batch.length < config.batchSize
  | _ => True

/-- The answers a transaction leads to: each report's own result, or a refusal for all. -/
def Outcome.answers (o : Outcome) : List (Nat × Answer) :=
  match o.result with
  | .ok results => (results.zip o.batch).map fun (answer, q) => (q.call, answer)
  | .error _ => o.batch.map fun q => (q.call, batchNotCommitted)

theorem Outcome.length_of_ok (o : Outcome) (results : List Answer) (h : o.result = .ok results) :
    results.length = o.batch.length := by
  obtain ⟨⟨e, he⟩, _⟩ | ⟨results', hr, _, separate⟩ :=
    storeReportBatch_cases o.boundary o.items o.before _ _ Prod.mk.eta.symm
  · rw [Outcome.result, he] at h
    cases h
  · rw [Outcome.result, hr] at h
    cases h
    have matched := oneByOne_results (fun _ => True) (fun _ _ => True) storeSeparately
      (fun _ _ _ => trivial) (fun _ _ _ => trivial) o.items o.before trivial
    rw [separate] at matched
    rw [← matched.length_eq, Outcome.items, List.length_map]

theorem Outcome.answers_calls (o : Outcome) : o.answers.map Prod.fst = o.batch.map QueuedReport.call := by
  unfold Outcome.answers
  cases h : o.result with
  | error e =>
    simp only [List.map_map]
    rfl
  | ok results =>
    have length := o.length_of_ok results h
    have completions : (results.zip o.batch).map Prod.snd = o.batch :=
      List.map_snd_zip (by omega)
    rw [List.map_map]
    change (results.zip o.batch).map (QueuedReport.call ∘ Prod.snd) = _
    rw [← List.map_map, completions]

/-- Every sent report is in one batch, in the batch being collected or in the
queue, in the order of sending. -/
structure Flow (config : TelemetryWriterConfig) (sent : List QueuedReport)
    (batches : List (List QueuedReport)) (writer : Writer) (queue : List QueuedReport) : Prop where
  order : sent = batches.flatten ++ writer.inHand ++ queue
  sizes : ∀ batch ∈ batches, 1 ≤ batch.length ∧ batch.length ≤ config.batchSize
  room : writer.Room config

/-- Every batch but the current one had its transaction, whose answers were given
and counted or still are to be. -/
structure Ledger (outcomes : List Outcome) (batches : List (List QueuedReport))
    (answers : List (Nat × Answer)) (writer : Writer) (count : Nat) : Prop where
  ended : batches = outcomes.map Outcome.batch ++ writer.current
  given : outcomes.flatMap Outcome.answers = answers ++ writer.todo
  counted : count = answers.length + writer.refused

structure CallOk (sent : List QueuedReport) (answers : List (Nat × Answer)) (i : Nat) (call : Call) :
    Prop where
  unsent : call.phase = .reserving ∨ call.phase = .permitted ∨
    call.phase = .returned (.error .queueFull) → ∀ q ∈ sent, q.call ≠ i
  filled : ∀ answer, call.completion = .filled answer → (i, answer) ∈ answers
  ok : ∀ result, call.phase = .returned (.ok result) → (i, .ok result) ∈ answers
  heard : ∀ answer, (i, answer) ∈ answers → call.phase = .awaiting → call.completion = .filled answer
  used : call.completion ≠ .closed

/-- What a call knows is what was sent for it and answered to it. -/
structure Calls (calls : List Call) (sent : List QueuedReport) (answers : List (Nat × Answer)) :
    Prop where
  each : ∀ i call, calls[i]? = some call → CallOk sent answers i call
  known : ∀ q ∈ sent, ∃ call, calls[q.call]? = some call ∧ call.write = q.write
  asked : ∀ i answer, (i, answer) ∈ answers → ∃ q ∈ sent, q.call = i
  once : (sent.map QueuedReport.call).Nodup

def NoPermit (calls : List Call) : Prop :=
  ∀ (i : Nat) (call : Call), calls[i]? = some call → call.holdsPermit = false

structure Inv (config : TelemetryWriterConfig) (s : State) : Prop where
  flow : Flow config s.sent s.batches s.writer s.queue
  ledger : Ledger s.outcomes s.batches s.answers s.writer (s.counters.completed + s.counters.failed)
  calls : Calls s.calls s.sent s.answers
  stopped : s.writer = .returned → s.closed = true ∧ s.queue = [] ∧ NoPermit s.calls

theorem NoPermit.modify {calls : List Call} (h : NoPermit calls) (i : Nat) (f : Call → Call)
    (hf : ∀ call, call.holdsPermit = false → (f call).holdsPermit = false) :
    NoPermit (calls.modify i f) := by
  intro j call hj
  rw [List.getElem?_modify] at hj
  obtain ⟨call₀, hc, rfl⟩ := Option.map_eq_some_iff.mp hj
  split_ifs
  · exact hf call₀ (h j call₀ hc)
  · exact h j call₀ hc

namespace Calls

variable {calls : List Call} {sent : List QueuedReport} {answers : List (Nat × Answer)}

/-- A step of one call. -/
theorem modify (c : Calls calls sent answers) (i : Nat) (f : Call → Call)
    (write : ∀ call, (f call).write = call.write)
    (kept : ∀ call, calls[i]? = some call → CallOk sent answers i call →
      CallOk sent answers i (f call)) : Calls (calls.modify i f) sent answers where
  each j call hj := by
    rw [List.getElem?_modify] at hj
    obtain ⟨call₀, hc, rfl⟩ := Option.map_eq_some_iff.mp hj
    by_cases he : i = j
    · subst he
      rw [if_pos rfl]
      exact kept call₀ hc (c.each i call₀ hc)
    · rw [if_neg he]
      exact c.each j call₀ hc
  known q hq := by
    obtain ⟨call, hc, hw⟩ := c.known q hq
    rw [List.getElem?_modify, hc]
    by_cases he : i = q.call
    · exact ⟨f call, by simp [he], (write call).trans hw⟩
    · exact ⟨call, by simp [he], hw⟩
  asked := c.asked
  once := c.once

theorem submitted (c : Calls calls sent answers) (write : ReportWrite) :
    Calls (calls ++ [{ write := write }]) sent answers where
  each i call hc := by
    rw [List.getElem?_append] at hc
    split_ifs at hc with hi
    · exact c.each i call hc
    · rw [List.getElem?_singleton] at hc
      split_ifs at hc with hz
      cases hc
      refine ⟨fun _ q hq he => ?_, fun _ h => (by cases h), fun _ h => (by cases h),
        fun _ _ h => (by cases h), Completion.noConfusion⟩
      obtain ⟨call, hc, _⟩ := c.known q hq
      have known := (List.getElem?_eq_some_iff.mp hc).1
      omega
  known q hq := by
    obtain ⟨call, hc, hw⟩ := c.known q hq
    refine ⟨call, ?_, hw⟩
    rw [List.getElem?_append_left (List.getElem?_eq_some_iff.mp hc).1]
    exact hc
  asked := c.asked
  once := c.once

/-- A report is sent for a call that held a permit. -/
theorem sending (c : Calls calls sent answers) (i : Nat) (call : Call) (hc : calls[i]? = some call)
    (permitted : call.phase = .permitted) :
    Calls (calls.modify i fun call => { call with phase := .awaiting })
      (sent ++ [⟨call.write, i⟩]) answers where
  each j call' hj := by
    rw [List.getElem?_modify] at hj
    obtain ⟨call₀, hc₀, rfl⟩ := Option.map_eq_some_iff.mp hj
    have old := c.each j call₀ hc₀
    by_cases he : i = j
    · rw [if_pos he]
      refine ⟨fun h => by simp at h, old.filled, fun _ h => (by cases h), fun answer given => ?_,
        old.used⟩
      obtain ⟨q, hq, hcall⟩ := c.asked j answer given
      exact absurd (hcall.trans he.symm)
        ((c.each i call hc).unsent (Or.inr (Or.inl permitted)) q hq)
    · rw [if_neg he]
      refine ⟨fun h q hq => ?_, old.filled, old.ok, old.heard, old.used⟩
      obtain hq | hq := List.mem_append.mp hq
      · exact old.unsent h q hq
      · rw [List.mem_singleton.mp hq]
        exact he
  known q hq := by
    rw [List.getElem?_modify]
    obtain hq | hq := List.mem_append.mp hq
    · obtain ⟨call₀, hc₀, hw⟩ := c.known q hq
      rw [hc₀]
      by_cases he : i = q.call
      · exact ⟨{ call₀ with phase := .awaiting }, by simp [he], hw⟩
      · exact ⟨call₀, by simp [he], hw⟩
    · rw [List.mem_singleton.mp hq, hc]
      exact ⟨{ call with phase := .awaiting }, by simp, rfl⟩
  asked j answer given := by
    obtain ⟨q, hq, hcall⟩ := c.asked j answer given
    exact ⟨q, List.mem_append_left _ hq, hcall⟩
  once := by
    have new := (c.each i call hc).unsent (Or.inr (Or.inl permitted))
    rw [List.map_append, List.nodup_append]
    refine ⟨c.once, List.nodup_singleton _, fun a ha b hb => ?_⟩
    obtain ⟨q, hq, rfl⟩ := List.mem_map.mp ha
    rw [List.mem_singleton.mp hb]
    exact new q hq

end Calls

section
variable {config : TelemetryWriterConfig} {s : State}

/-- A step of one call that sends nothing. -/
theorem Inv.setPhase (inv : Inv config s) (i : Nat) (call : Call) (phase : Phase)
    (hc : s.calls[i]? = some call)
    (unsent : phase = .reserving ∨ phase = .permitted ∨ phase = .returned (.error .queueFull) →
      call.phase = .reserving)
    (ok : ∀ result, phase = .returned (.ok result) → call.completion = .filled (.ok result))
    (moved : phase ≠ .awaiting) (free : phase ≠ .permitted ∨ s.closed = false) : Inv config (s.setPhase i phase) where
  flow := inv.flow
  ledger := inv.ledger
  calls := by
    refine inv.calls.modify i _ (fun _ => rfl) fun call' hc' old => ?_
    rw [hc] at hc'
    cases hc'
    exact ⟨fun h => old.unsent (Or.inl (unsent h)), old.filled,
      fun result h => old.filled _ (ok result h), fun _ _ h => absurd h moved, old.used⟩
  stopped hw := by
    obtain ⟨closed, queue, none⟩ := inv.stopped hw
    obtain free | opened := free
    · refine ⟨closed, queue, none.modify i _ fun call _ => ?_⟩
      cases phase <;> first | rfl | exact absurd rfl free
    · rw [closed] at opened
      cases opened

theorem Inv.callStep (inv : Inv config s) (i : Nat) (call : Call) (hc : s.calls[i]? = some call)
    (move : CallMove) (s' : State) (h : callStep config s i call move = some s') : Inv config s' := by
  cases move with
  | reserve =>
    simp only [Telemetry.callStep] at h
    split at h
    · rename_i phase
      split_ifs at h with room
      cases h
      exact inv.setPhase i call _ hc (fun _ => phase) (by simp) (by simp) (Or.inr room.1)
    · cases h
  | refuse =>
    simp only [Telemetry.callStep] at h
    split at h
    · split_ifs at h
      cases h
      exact inv.setPhase i call _ hc (by simp) (by simp) (by simp) (by simp)
    · cases h
  | enqueueTimeout =>
    simp only [Telemetry.callStep] at h
    split at h
    · rename_i phase
      cases h
      exact inv.setPhase i call _ hc (fun _ => phase) (by simp) (by simp) (by simp)
    · cases h
  | send =>
    simp only [Telemetry.callStep] at h
    split at h
    · rename_i permitted
      cases h
      refine ⟨⟨?_, inv.flow.sizes, inv.flow.room⟩, inv.ledger,
        inv.calls.sending i call hc permitted, fun hw => ?_⟩
      · change s.sent ++ [_] = s.batches.flatten ++ s.writer.inHand ++ (s.queue ++ [_])
        rw [inv.flow.order, List.append_assoc _ s.queue]
      · have none := (inv.stopped hw).2.2 i call hc
        simp [Call.holdsPermit, permitted] at none
    · cases h
  | respond =>
    simp only [Telemetry.callStep] at h
    split at h
    · rename_i filled
      cases h
      exact inv.setPhase i call _ hc (by simp) (fun result he => by simp_all) (by simp) (by simp)
    · cases h
      exact inv.setPhase i call _ hc (by simp) (by simp) (by simp) (by simp)
    · cases h
      exact inv.setPhase i call _ hc (by simp) (by simp) (by simp) (by simp)
    · cases h
  | deadline =>
    simp only [Telemetry.callStep] at h
    split at h
    · cases h
      exact inv.setPhase i call _ hc (by simp) (by simp) (by simp) (by simp)
    · cases h
  | cancel =>
    simp only [Telemetry.callStep] at h
    split_ifs at h
    cases h
    exact inv.setPhase i call _ hc (by simp) (by simp) (by simp) (by simp)

theorem Inv.closeReceiver (inv : Inv config s) : Inv config s.closeReceiver :=
  ⟨inv.flow, inv.ledger, inv.calls, fun hw => ⟨rfl, (inv.stopped hw).2⟩⟩

theorem Inv.observeShutdown (inv : Inv config s) : Inv config s.observeShutdown := by
  unfold State.observeShutdown
  split_ifs
  · exact inv.closeReceiver
  · exact inv

theorem Inv.wake (inv : Inv config s) : Inv config s.wake := by
  have consumed : Inv config { s with notified := false } :=
    ⟨inv.flow, inv.ledger, inv.calls, inv.stopped⟩
  unfold State.wake
  dsimp only
  split_ifs
  · exact consumed.closeReceiver
  · exact consumed

/-- The writer goes on with the reports it holds. -/
theorem Inv.goto (inv : Inv config s) (writer : Writer) (batch : List QueuedReport)
    (before : s.writer.Holds batch) (after : writer.Holds batch) (room : writer.Room config)
    (running : writer ≠ .returned) : Inv config { s with writer } where
  flow := ⟨by rw [after.inHand, ← before.inHand]; exact inv.flow.order, inv.flow.sizes, room⟩
  ledger := ⟨by rw [after.current, ← before.current]; exact inv.ledger.ended,
    by rw [after.todo, ← before.todo]; exact inv.ledger.given,
    by rw [after.refused, ← before.refused]; exact inv.ledger.counted⟩
  calls := inv.calls
  stopped hw := absurd hw running

/-- The writer takes the oldest report of the queue. -/
theorem Inv.receive (inv : Inv config s) (q : QueuedReport) (queue : List QueuedReport)
    (batch : List QueuedReport) (hq : s.queue = q :: queue) (holds : s.writer.Holds batch)
    (room : batch.length < config.batchSize) :
    Inv config { s with queue, writer := .collecting (batch ++ [q]) } where
  flow := by
    refine ⟨?_, inv.flow.sizes, ?_⟩
    · change s.sent = s.batches.flatten ++ (batch ++ [q]) ++ queue
      rw [inv.flow.order, holds.inHand, hq]
      simp
    · simp only [Writer.Room, List.length_append, List.length_singleton]
      omega
  ledger := by
    have ended := inv.ledger.ended
    have given := inv.ledger.given
    have counted := inv.ledger.counted
    rw [holds.current] at ended
    rw [holds.todo] at given
    rw [holds.refused] at counted
    exact ⟨ended, given, counted⟩
  calls := inv.calls
  stopped hw := by cases hw

theorem Inv.handOver (inv : Inv config s) (batch : List QueuedReport) (holds : s.writer.Holds batch)
    (size : 1 ≤ batch.length ∧ batch.length ≤ config.batchSize) :
    Inv config (s.handOver batch) where
  flow := by
    refine ⟨?_, fun b hb => ?_, trivial⟩
    · change s.sent = (s.batches ++ [batch]).flatten ++ [] ++ s.queue
      rw [inv.flow.order, holds.inHand]
      simp
    · obtain hb | hb := List.mem_append.mp hb
      · exact inv.flow.sizes b hb
      · rw [List.mem_singleton.mp hb]
        exact size
  ledger := by
    have ended := inv.ledger.ended
    have given := inv.ledger.given
    have counted := inv.ledger.counted
    rw [holds.current, List.append_nil] at ended
    rw [holds.todo] at given
    rw [holds.refused] at counted
    refine ⟨?_, given, counted⟩
    change s.batches ++ [batch] = s.outcomes.map Outcome.batch ++ [batch]
    rw [ended]
  calls := inv.calls
  stopped hw := by cases hw

/-- No completion is dropped: there is a result for every report of a committed batch. -/
theorem Inv.transacted (inv : Inv config s) (o : Outcome) (hw : s.writer = .persisting o.batch) :
    Inv config (s.transacted o) := by
  have ended := inv.ledger.ended
  have given := inv.ledger.given
  have counted := inv.ledger.counted
  have order := inv.flow.order
  rw [hw] at ended given counted order
  have outcomes : s.batches = (s.outcomes ++ [o]).map Outcome.batch := by
    rw [ended, List.map_append]
    rfl
  have answers : (s.outcomes ++ [o]).flatMap Outcome.answers = s.answers ++ o.answers := by
    rw [List.flatMap_append, given]
    simp [Writer.todo]
  unfold State.transacted
  dsimp only
  cases h : o.result with
  | error e =>
    have refusals : o.answers = o.batch.map fun q => (q.call, batchNotCommitted) := by
      simp only [Outcome.answers, h]
    refine ⟨⟨order, inv.flow.sizes, trivial⟩, ⟨?_, ?_, ?_⟩, inv.calls, fun hw => (by cases hw)⟩
    · simpa [Writer.current] using outcomes
    · rw [answers, refusals]
      rfl
    · change s.counters.completed + (s.counters.failed + o.batch.length) =
        s.answers.length + o.batch.length
      rw [← Nat.add_assoc, counted]
      rfl
  | ok results =>
    have length := o.length_of_ok results h
    have none_left : o.batch.drop results.length = [] := by
      rw [length, List.drop_length]
    have own : o.answers = (results.zip o.batch).map fun (answer, q) => (q.call, answer) := by
      simp only [Outcome.answers, h]
    simp only [none_left, List.foldl_nil]
    refine ⟨⟨order, inv.flow.sizes, trivial⟩, ⟨?_, ?_, ?_⟩, inv.calls, fun hw => (by cases hw)⟩
    · simpa [Writer.current] using outcomes
    · rw [answers, own]
      rfl
    · exact counted

theorem answers_calls (outcomes : List Outcome) :
    (outcomes.flatMap Outcome.answers).map Prod.fst =
      (outcomes.map Outcome.batch).flatten.map QueuedReport.call := by
  induction outcomes with
  | nil => rfl
  | cons o outcomes ih =>
    rw [List.flatMap_cons, List.map_append, ih, o.answers_calls, List.map_cons, List.flatten_cons,
      List.map_append]

/-- The reports of all ended transactions were sent, each once. -/
theorem Inv.batched (inv : Inv config s) :
    (∀ o ∈ s.outcomes, ∀ q ∈ o.batch, q ∈ s.sent) ∧
      ((s.outcomes.flatMap Outcome.answers).map Prod.fst).Nodup := by
  have shape : s.sent = (s.outcomes.map Outcome.batch).flatten ++
      (s.writer.current.flatten ++ s.writer.inHand ++ s.queue) := by
    rw [inv.flow.order, inv.ledger.ended]
    simp
  constructor
  · intro o ho q hq
    rw [shape]
    exact List.mem_append_left _ (List.mem_flatten.mpr ⟨o.batch, List.mem_map.mpr ⟨o, ho, rfl⟩, hq⟩)
  · rw [answers_calls]
    have once := inv.calls.once
    rw [shape, List.map_append, List.nodup_append] at once
    exact once.1

/-- A first answer reaches its caller, if the caller still waits. -/
theorem complete_calls (c : Calls s.calls s.sent s.answers) (i : Nat) (answer : Answer)
    (first : ∀ answer, (i, answer) ∉ s.answers) (asked : ∃ q ∈ s.sent, q.call = i) :
    Calls (s.complete i answer).calls s.sent (s.answers ++ [(i, answer)]) := by
  have asked_all : ∀ j given, (j, given) ∈ s.answers ++ [(i, answer)] → ∃ q ∈ s.sent, q.call = j := by
    intro j given hg
    obtain hg | hg := List.mem_append.mp hg
    · exact c.asked j given hg
    · cases List.mem_singleton.mp hg
      exact asked
  have grown : ∀ j call, CallOk s.sent s.answers j call → (call.phase = .awaiting → j ≠ i) →
      CallOk s.sent (s.answers ++ [(i, answer)]) j call := by
    intro j call old other
    refine ⟨old.unsent, fun given h => List.mem_append_left _ (old.filled given h),
      fun result h => List.mem_append_left _ (old.ok result h), fun given hg waiting => ?_, old.used⟩
    obtain hg | hg := List.mem_append.mp hg
    · exact old.heard given hg waiting
    · exact absurd (congrArg Prod.fst (List.mem_singleton.mp hg)) (other waiting)
  unfold State.complete
  dsimp only
  split
  · rename_i write completion hc
    refine ⟨fun j call hj => ?_, fun q hq => ?_, asked_all, c.once⟩
    · rw [List.getElem?_modify] at hj
      obtain ⟨call₀, hc₀, rfl⟩ := Option.map_eq_some_iff.mp hj
      have old := c.each j call₀ hc₀
      by_cases he : i = j
      · rw [if_pos he]
        refine ⟨old.unsent, fun given h => ?_, fun result h => List.mem_append_left _ (old.ok result h),
          fun given hg _ => ?_, Completion.noConfusion⟩
        · cases h
          rw [he]
          exact List.mem_append_right _ List.mem_cons_self
        · obtain hg | hg := List.mem_append.mp hg
          · exact absurd (he ▸ hg) (first given)
          · rw [(Prod.mk.inj (List.mem_singleton.mp hg)).2]
      · rw [if_neg he]
        exact grown j call₀ old fun _ hji => he hji.symm
    · obtain ⟨call₀, hc₀, hw⟩ := c.known q hq
      rw [List.getElem?_modify, hc₀]
      by_cases he : i = q.call
      · exact ⟨{ call₀ with completion := .filled answer }, by simp [he], hw⟩
      · exact ⟨call₀, by simp [he], hw⟩
  · rename_i gone
    refine ⟨fun j call hj => grown j call (c.each j call hj) fun waiting hji => ?_, c.known, asked_all,
      c.once⟩
    obtain ⟨write, phase, completion⟩ := call
    change phase = .awaiting at waiting
    rw [hji, waiting] at hj
    exact gone write completion hj

theorem complete_rest (s : State) (i : Nat) (answer : Answer) :
    (s.complete i answer).sent = s.sent ∧ (s.complete i answer).batches = s.batches ∧
    (s.complete i answer).queue = s.queue ∧ (s.complete i answer).outcomes = s.outcomes ∧
    (s.complete i answer).answers = s.answers ++ [(i, answer)] ∧
    (s.complete i answer).counters.completed = s.counters.completed ∧
    (s.complete i answer).counters.failed = s.counters.failed := by
  unfold State.complete
  dsimp only
  split <;> exact ⟨rfl, rfl, rfl, rfl, rfl, rfl, rfl⟩

/-- One more answer is given and counted. -/
theorem Inv.complete (inv : Inv config s) (t : State) (i : Nat) (answer : Answer) (writer : Writer)
    (same : t.sent = s.sent ∧ t.batches = s.batches ∧ t.queue = s.queue ∧
      t.outcomes = s.outcomes ∧ t.answers = s.answers ∧ t.calls = s.calls)
    (inHand : writer.inHand = s.writer.inHand) (current : writer.current = s.writer.current)
    (todo : s.writer.todo = (i, answer) :: writer.todo) (room : writer.Room config)
    (running : writer ≠ .returned)
    (counted : t.counters.completed + t.counters.failed = s.answers.length + 1 + writer.refused) :
    Inv config { t.complete i answer with writer } := by
  obtain ⟨hsent, hbatches, hqueue, houtcomes, hanswers, hcalls⟩ := same
  obtain ⟨csent, cbatches, cqueue, coutcomes, canswers, ccompleted, cfailed⟩ :=
    complete_rest t i answer
  refine ⟨⟨?_, ?_, room⟩, ⟨?_, ?_, ?_⟩, ?_, fun hw => absurd hw running⟩
  · change (t.complete i answer).sent = (t.complete i answer).batches.flatten ++ writer.inHand ++
      (t.complete i answer).queue
    rw [csent, cbatches, cqueue, hsent, hbatches, hqueue, inHand]
    exact inv.flow.order
  · change ∀ batch ∈ (t.complete i answer).batches, _
    rw [cbatches, hbatches]
    exact inv.flow.sizes
  · change (t.complete i answer).batches = (t.complete i answer).outcomes.map Outcome.batch ++
      writer.current
    rw [cbatches, coutcomes, hbatches, houtcomes, current]
    exact inv.ledger.ended
  · change (t.complete i answer).outcomes.flatMap Outcome.answers =
      (t.complete i answer).answers ++ writer.todo
    rw [coutcomes, canswers, houtcomes, hanswers, inv.ledger.given, todo]
    simp
  · change (t.complete i answer).counters.completed + (t.complete i answer).counters.failed =
      (t.complete i answer).answers.length + writer.refused
    rw [ccompleted, cfailed, canswers, hanswers, counted, List.length_append,
      List.length_singleton]
  · change Calls (t.complete i answer).calls (t.complete i answer).sent
      (t.complete i answer).answers
    rw [csent, canswers]
    have given := inv.ledger.given
    obtain ⟨batched, once⟩ := inv.batched
    rw [todo] at given
    have first : ∀ other, (i, other) ∉ t.answers := by
      intro other ho
      rw [given, List.map_append, List.nodup_append] at once
      rw [hanswers] at ho
      exact once.2.2 i (List.mem_map.mpr ⟨_, ho, rfl⟩) i (by simp) rfl
    have asked : ∃ q ∈ t.sent, q.call = i := by
      have mine : i ∈ (s.outcomes.flatMap Outcome.answers).map Prod.fst := by simp [given]
      rw [answers_calls] at mine
      obtain ⟨q, hq, hcall⟩ := List.mem_map.mp mine
      obtain ⟨batch, hb, hq⟩ := List.mem_flatten.mp hq
      obtain ⟨o, ho, rfl⟩ := List.mem_map.mp hb
      rw [hsent]
      exact ⟨q, batched o ho q hq, hcall⟩
    refine complete_calls ?_ i answer first asked
    rw [hcalls, hsent, hanswers]
    exact inv.calls

theorem Inv.stop (inv : Inv config s) (ended : s.ended = true) (holds : s.writer.Holds []) :
    Inv config s.stop := by
  simp only [State.ended, Bool.and_eq_true, List.isEmpty_iff, Bool.not_eq_true',
    List.any_eq_false] at ended
  obtain ⟨⟨_, queue⟩, permits⟩ := ended
  have order := inv.flow.order
  have last := inv.ledger.ended
  have given := inv.ledger.given
  have counted := inv.ledger.counted
  rw [holds.inHand] at order
  rw [holds.current] at last
  rw [holds.todo] at given
  rw [holds.refused] at counted
  refine ⟨⟨order, inv.flow.sizes, trivial⟩, ⟨last, given, counted⟩, inv.calls,
    fun _ => ⟨rfl, queue, fun i call hc => ?_⟩⟩
  exact Bool.eq_false_iff.mpr (permits call (List.mem_of_getElem? hc))

end
end HostMonitoring.Telemetry
