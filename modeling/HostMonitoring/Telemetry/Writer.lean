import HostMonitoring.Store.System

namespace HostMonitoring.Telemetry

open HostMonitoring.Framework
open HostMonitoring.Store

def MAX_QUEUE_CAPACITY : Nat := 1024
def MAX_BATCH_SIZE : Nat := 512

/-- Time spans are counted in nanoseconds. -/
def fromMillis (n : Nat) : Nat := n * 1000000

def MAX_FLUSH_LATENCY : Nat := fromMillis 1000
def MAX_ENQUEUE_WAIT : Nat := fromMillis 250
def MAX_REQUEST_TIME : Nat := fromMillis 30000
def MAX_SHUTDOWN_DRAIN : Nat := fromMillis 60000

structure TelemetryWriterConfig where
  queueCapacity : Nat
  batchSize : Nat
  flushLatency : Nat
  enqueueWait : Nat
  requestTime : Nat
  shutdownDrain : Nat
  queueCapacity_bounds : 1 ≤ queueCapacity ∧ queueCapacity ≤ MAX_QUEUE_CAPACITY
  batchSize_bounds : 1 ≤ batchSize ∧ batchSize ≤ min MAX_BATCH_SIZE queueCapacity

def TelemetryWriterConfig.new (queueCapacity batchSize flushLatency enqueueWait requestTime
    shutdownDrain : Nat) : Except String TelemetryWriterConfig :=
  if hq : 1 ≤ queueCapacity ∧ queueCapacity ≤ MAX_QUEUE_CAPACITY then
    if hb : 1 ≤ batchSize ∧ batchSize ≤ min MAX_BATCH_SIZE queueCapacity then
      if flushLatency = 0 ∨ MAX_FLUSH_LATENCY < flushLatency then
        .error "telemetry flush latency must be between 1ms and 1s"
      else if enqueueWait = 0 ∨ MAX_ENQUEUE_WAIT < enqueueWait then
        .error "telemetry enqueue wait must be between 1ms and 250ms"
      else if requestTime < fromMillis 100 ∨ MAX_REQUEST_TIME < requestTime ∨
          requestTime ≤ enqueueWait + flushLatency then
        .error "telemetry request time must be 100ms-30s and exceed enqueue wait plus flush latency"
      else if shutdownDrain < fromMillis 100 ∨ MAX_SHUTDOWN_DRAIN < shutdownDrain then
        .error "telemetry shutdown drain must be between 100ms and 60s"
      else .ok ⟨queueCapacity, batchSize, flushLatency, enqueueWait, requestTime, shutdownDrain,
        hq, hb⟩
    else .error "telemetry batch size must be between 1 and the queue capacity"
  else .error s!"telemetry queue capacity must be between 1 and {MAX_QUEUE_CAPACITY}"

theorem production_bounds : (1 ≤ 256 ∧ 256 ≤ MAX_QUEUE_CAPACITY) ∧
    (1 ≤ 64 ∧ 64 ≤ min MAX_BATCH_SIZE 256) := by decide

def TelemetryWriterConfig.production : TelemetryWriterConfig :=
  ⟨256, 64, fromMillis 25, fromMillis 10, fromMillis 10000, fromMillis 15000,
    production_bounds.1, production_bounds.2⟩

/-- The built-in telemetry writer limits are valid. -/
theorem TelemetryWriterConfig.production_valid : TelemetryWriterConfig.new 256 64 (fromMillis 25)
    (fromMillis 10) (fromMillis 10000) (fromMillis 15000) = .ok .production := rfl

structure WriterCounters where
  enqueued : Nat := 0
  batches : Nat := 0
  completed : Nat := 0
  failed : Nat := 0
  abandonedAcknowledgements : Nat := 0
  largestBatch : Nat := 0

/-- What the store answered about one report. -/
abbrev Answer : Type := Except StoreError (Bool × DateTime)

/-- A report with the completion it is answered through, named by its call. -/
structure QueuedReport where
  write : ReportWrite
  call : Nat

inductive TelemetrySubmitError where
  | queueFull
  | writerUnavailable
  | responseDeadline
  | store (error : StoreError)

/-- The one-shot channel of a call. -/
inductive Completion where
  | open
  | filled (answer : Answer)
  | closed
deriving DecidableEq

/-- Where a call of `submit` stands: waiting for a permit, about to send with one,
waiting for its answer, returned, or dropped by its caller. -/
inductive Phase where
  | reserving
  | permitted
  | awaiting
  | returned (result : Except TelemetrySubmitError (Bool × DateTime))
  | dropped

structure Call where
  write : ReportWrite
  phase : Phase := .reserving
  completion : Completion := .open

def Call.holdsPermit (call : Call) : Bool :=
  match call.phase with
  | .permitted => true
  | _ => false

def Call.finished (call : Call) : Bool :=
  match call.phase with
  | .returned _ => true
  | .dropped => true
  | _ => false

/-- Where `run_writer` stands. -/
inductive Writer where
  | top
  | selectFirst
  | recvFirst
  | collecting (batch : List QueuedReport)
  | selectMore (batch : List QueuedReport)
  | tryRecv (batch : List QueuedReport)
  | persisting (batch : List QueuedReport)
  | answering (todo : List (Answer × QueuedReport))
  | refusing (todo : List QueuedReport)
  | returned

/-- A batch transaction that ended, with the store it started from. -/
structure Outcome where
  batch : List QueuedReport
  boundary : Boundary StoreError
  receivedAt : QueuedReport → DateTime
  faults : QueuedReport → Faults
  before : Db

def Outcome.items (o : Outcome) : List BatchItem :=
  o.batch.map fun q => ⟨q.write, o.receivedAt q, o.faults q⟩

def Outcome.result (o : Outcome) : Except StoreError (List Answer) :=
  (storeReportBatch o.boundary o.items o.before).1

def Outcome.after (o : Outcome) : Db := (storeReportBatch o.boundary o.items o.before).2

/-- The callers, the queue, the shutdown flag and the writer. The last four fields
record the run: what was sent, the batches made of it, their transactions, and
the answers given. No step reads them. -/
structure State where
  db : Db := .empty
  calls : List Call := []
  queue : List QueuedReport := []
  closed : Bool := false
  handles : Bool := true
  requested : Bool := false
  notified : Bool := false
  draining : Bool := false
  writer : Writer := .top
  counters : WriterCounters := {}
  sent : List QueuedReport := []
  batches : List (List QueuedReport) := []
  outcomes : List Outcome := []
  answers : List (Nat × Answer) := []

namespace State

def setPhase (s : State) (i : Nat) (phase : Phase) : State :=
  { s with calls := s.calls.modify i fun call => { call with phase } }

def finish (s : State) (i : Nat) (result : Except TelemetrySubmitError (Bool × DateTime)) : State :=
  s.setPhase i (.returned result)

def permits (s : State) : Nat := s.calls.countP Call.holdsPermit

/-- `permit.send`, and the counter behind it. -/
def send (s : State) (i : Nat) (write : ReportWrite) : State :=
  { s.setPhase i .awaiting with
    queue := s.queue ++ [⟨write, i⟩]
    sent := s.sent ++ [⟨write, i⟩]
    counters := { s.counters with enqueued := s.counters.enqueued + 1 } }

end State

/-- What can happen to a call of `submit`. The queue is full when its wait for a
permit runs out; a caller may be dropped at any `await`. -/
inductive CallMove where
  | reserve
  | refuse
  | enqueueTimeout
  | send
  | respond
  | deadline
  | cancel

def callStep (config : TelemetryWriterConfig) (s : State) (i : Nat) (call : Call) :
    CallMove → Option State
  | .reserve =>
    match call.phase with
    | .reserving =>
      if s.closed = false ∧ s.queue.length + s.permits < config.queueCapacity then
        some (s.setPhase i .permitted)
      else none
    | _ => none
  | .refuse =>
    match call.phase with
    | .reserving => if s.closed then some (s.finish i (.error .writerUnavailable)) else none
    | _ => none
  | .enqueueTimeout =>
    match call.phase with
    | .reserving => some (s.finish i (.error .queueFull))
    | _ => none
  | .send =>
    match call.phase with
    | .permitted => some (s.send i call.write)
    | _ => none
  | .respond =>
    match call.phase, call.completion with
    | .awaiting, .filled (.ok result) => some (s.finish i (.ok result))
    | .awaiting, .filled (.error error) => some (s.finish i (.error (.store error)))
    | .awaiting, .closed => some (s.finish i (.error .writerUnavailable))
    | _, _ => none
  | .deadline =>
    match call.phase with
    | .awaiting => some (s.finish i (.error .responseDeadline))
    | _ => none
  | .cancel => if call.finished then none else some (s.setPhase i .dropped)

namespace State

def closeReceiver (s : State) : State := { s with closed := true, draining := true }

/-- `if shutdown.requested && !draining` at the head of both loops. -/
def observeShutdown (s : State) : State :=
  if s.requested && !s.draining then s.closeReceiver else s

/-- The branch of a `select!` that consumed the notification. -/
def wake (s : State) : State :=
  let s := { s with notified := false }
  if s.requested then s.closeReceiver else s

/-- `recv` yields `None`: no report can come any more. -/
def ended (s : State) : Bool :=
  (s.closed || !s.handles) && s.queue.isEmpty && !s.calls.any Call.holdsPermit

/-- `run_writer` returns and drops the receiver. -/
def stop (s : State) : State := { s with closed := true, writer := .returned }

/-- `persist_batch` takes a batch. -/
def handOver (s : State) (batch : List QueuedReport) : State :=
  { s with
    writer := .persisting batch
    batches := s.batches ++ [batch]
    counters := { s.counters with
      batches := s.counters.batches + 1
      largestBatch := max s.counters.largestBatch batch.length } }

/-- Dropping a completion that was never used closes its channel. -/
def dropCompletion (s : State) (i : Nat) : State :=
  { s with calls := s.calls.modify i fun call =>
    match call.completion with
    | .open => { call with completion := .closed }
    | _ => call }

/-- The transaction of a batch ended. The results meet the completions in order;
completions beyond the last result are dropped. -/
def transacted (s : State) (o : Outcome) : State :=
  let s := { s with db := o.after, outcomes := s.outcomes ++ [o] }
  match o.result with
  | .ok results =>
    (o.batch.drop results.length).foldl (fun s q => s.dropCompletion q.call)
      { s with writer := .answering (results.zip o.batch) }
  | .error _ =>
    { s with
      writer := .refusing o.batch
      counters := { s.counters with failed := s.counters.failed + o.batch.length } }

/-- `completion.send`, which fails when the caller is no longer there. -/
def complete (s : State) (i : Nat) (answer : Answer) : State :=
  let s := { s with answers := s.answers ++ [(i, answer)] }
  match s.calls[i]? with
  | some ⟨_, .awaiting, _⟩ =>
    { s with calls := s.calls.modify i fun call => { call with completion := .filled answer } }
  | _ => { s with counters := { s.counters with
      abandonedAcknowledgements := s.counters.abandonedAcknowledgements + 1 } }

def count (s : State) (answer : Answer) : State :=
  { s with counters := match answer with
    | .ok _ => { s.counters with completed := s.counters.completed + 1 }
    | .error _ => { s.counters with failed := s.counters.failed + 1 } }

end State

def batchNotCommitted : Answer := .error (.ensure "telemetry batch transaction did not commit")

/-- The alternatives of the writer: the next statement, a report or the end of the
queue, the flush timer, the notification, or the batch transaction. -/
inductive WriterMove where
  | proceed
  | receive
  | end
  | flush
  | wake
  | transact (boundary : Boundary StoreError) (receivedAt : QueuedReport → DateTime)
      (faults : QueuedReport → Faults)

def writerStep (config : TelemetryWriterConfig) (s : State) : WriterMove → Option State
  | .proceed =>
    match s.writer with
    | .top =>
      let s := s.observeShutdown
      some { s with writer := if s.draining then .recvFirst else .selectFirst }
    | .collecting batch =>
      if batch.length < config.batchSize then
        let s := s.observeShutdown
        some { s with writer := if s.draining then .tryRecv batch else .selectMore batch }
      else some (s.handOver batch)
    | .answering ((answer, q) :: todo) =>
      some { (s.count answer).complete q.call answer with writer := .answering todo }
    | .answering [] => some { s with writer := .top }
    | .refusing (q :: todo) =>
      some { s.complete q.call batchNotCommitted with writer := .refusing todo }
    | .refusing [] => some { s with writer := .top }
    | _ => none
  | .receive =>
    match s.writer, s.queue with
    | .selectFirst, q :: queue => some { s with queue, writer := .collecting [q] }
    | .recvFirst, q :: queue => some { s with queue, writer := .collecting [q] }
    | .selectMore batch, q :: queue => some { s with queue, writer := .collecting (batch ++ [q]) }
    | .tryRecv batch, q :: queue => some { s with queue, writer := .collecting (batch ++ [q]) }
    | .tryRecv batch, [] => some (s.handOver batch)
    | _, _ => none
  | .end =>
    match s.writer with
    | .selectFirst => if s.ended then some s.stop else none
    | .recvFirst => if s.ended then some s.stop else none
    | .selectMore batch => if s.ended then some (s.handOver batch) else none
    | _ => none
  | .flush =>
    match s.writer with
    | .selectMore batch => some (s.handOver batch)
    | _ => none
  | .wake =>
    match s.writer with
    | .selectFirst => if s.notified then some { s.wake with writer := .recvFirst } else none
    | .selectMore batch =>
      if s.notified then some { s.wake with writer := .collecting batch } else none
    | _ => none
  | .transact boundary receivedAt faults =>
    match s.writer with
    | .persisting batch => some (s.transacted ⟨batch, boundary, receivedAt, faults, s.db⟩)
    | _ => none

/-- One step of anybody: a new call of `submit`, a running call, the last handle
dropped, the two statements of `shutdown`, the writer, or another call of the store. -/
inductive Move where
  | submit (write : ReportWrite)
  | caller (i : Nat) (move : CallMove)
  | dropHandles
  | request
  | notify
  | writer (move : WriterMove)
  | elsewhere (op : Op)

def step (config : TelemetryWriterConfig) (s : State) : Move → Option State
  | .submit write => if s.handles then some { s with calls := s.calls ++ [{ write }] } else none
  | .caller i move =>
    match s.calls[i]? with
    | some call => callStep config s i call move
    | none => none
  | .dropHandles => if s.calls.all Call.finished then some { s with handles := false } else none
  | .request => some { s with requested := true }
  | .notify => if s.requested then some { s with notified := true } else none
  | .writer move => writerStep config s move
  | .elsewhere op => some { s with db := (op.exec s.db).2 }

/-- The states that some interleaving leads to. -/
inductive Reachable (config : TelemetryWriterConfig) (db : Db) : State → Prop where
  | start : Reachable config db { db }
  | step (s s' : State) (move : Move) (h : Reachable config db s) (hs : step config s move = some s') :
      Reachable config db s'

end HostMonitoring.Telemetry
