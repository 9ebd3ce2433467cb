import HostMonitoring.Server.Journal
import HostMonitoring.Store.Committed

namespace HostMonitoring.Server

open HostMonitoring.Framework
open HostMonitoring.Framework.World (Allowed allowed_nil recorded_isolates Turn play)
open HostMonitoring.Admission
open HostMonitoring.Model
open HostMonitoring.Protocol
open HostMonitoring.Store
open HostMonitoring.Telemetry (TelemetryWriterConfig)

section
variable {D : Type} [DecidableEq D] (config : TelemetryWriterConfig) (digests : Digests D)

/-- What any number of connections may make of a server that starts on a store other runs left
behind: in any order of their calls, with faults, and cut off wherever they are, while the
telemetry writer and the retention service go on. -/
def Reachable (before : List Op) (clock : Instant)
    (P : Pool Connection Call Answer (Recorded D)) : Prop :=
  (server config digests).recorded.Reachable (· = handle digests.tokenHash)
    (boot D before clock, fun _ => []) P

/-- The same server goes on. -/
def Leads (P Q : Pool Connection Call Answer (Recorded D)) : Prop :=
  (server config digests).recorded.Leads (· = handle digests.tokenHash) P Q

variable {config digests} in
theorem Reachable.leads {before : List Op} {clock : Instant}
    {P Q : Pool Connection Call Answer (Recorded D)} (h : Reachable config digests before clock P)
    (run : Leads config digests P Q) : Reachable config digests before clock Q :=
  World.Reachable.leads h run

theorem answers_possible (c : Connection) (o : Call) (s : State D) (a : Answer o) (s' : State D)
    (h : Executes config digests c s o a s') : Possible o a := by
  cases o with
  | authenticate headers request => exact h.2
  | mutate m =>
    obtain ⟨luck, rfl, _⟩ := h
    cases m with
    | createInvite displayName actor =>
      intro summary activationCode created
      rcases createInvite_cases luck.faults displayName actor luck.ids.1 luck.ids.2
          luck.activationCode (digests.tokenHash luck.activationCode) luck.now luck.later s.db _ _
          Prod.mk.eta.symm with ⟨_, refused⟩ | ⟨row, invites, _, given, _, _⟩
      · exact absurd created (refused summary activationCode)
      · have same := created.symm.trans given
        cases same
        simp
    | _ => trivial
  | _ => trivial

variable {config digests} {before : List Op}

theorem sound_boot (clock : Instant) :
    Sound digests.tokenHash config before (boot D before clock, fun _ => []) where
  allowed _ := allowed_nil _
  journal :=
    { db := by simp [boot, State.db, dbAfter]
      made := by intro past c op later split; simp [boot] at split
      mutated := by intro c m a got; cases got
      read := by intro c q r got; cases got
      count := by intro c; simp [boot, State.writes, mutations] }
  reports :=
    { writer := Telemetry.inv_reachable _ .start
      callers := rfl
      submitted := by intro c write i; simp [boot, Past.Got]
      answered := by intro c i a got; cases got
      returned := by intro i call e hc; simp [boot] at hc
      outcomes := by intro o ho; simp [boot] at ho
      background := by intro op hop; simp [boot] at hop }

theorem sound_exec {s s' : Recorded D} {c : Connection} {o : Call} {a : Answer o}
    (h : Sound digests.tokenHash config before s) (owes : Owes digests.tokenHash o (s.2 c))
    (exec : (server config digests).recorded.exec c o s a s') :
    Sound digests.tokenHash config before s' := by
  obtain ⟨exec, hist⟩ := exec
  cases o with
  | receive =>
    exact h.idle owes hist (congrArg State.telemetry exec) (congrArg State.callers exec)
      (congrArg State.ops exec) (by simp) (by simp) (fun _ _ same => by cases same)
      fun _ _ same => by cases same
  | authenticate headers request =>
    exact h.idle owes hist (congrArg State.telemetry exec.1) (congrArg State.callers exec.1)
      (congrArg State.ops exec.1) (by simp) (by simp) (fun _ _ same => by cases same)
      fun _ _ same => by cases same
  | now =>
    exact h.idle owes hist (congrArg State.telemetry exec) (congrArg State.callers exec)
      (congrArg State.ops exec) (by simp) (by simp) (fun _ _ same => by cases same)
      fun _ _ same => by cases same
  | allowReport hostId =>
    obtain ⟨m, now, _, _, _, after⟩ := exec
    exact h.idle owes hist (by rw [after]; rfl) (by rw [after]; rfl) (by rw [after]; rfl)
      (by simp) (by simp) (fun _ _ same => by cases same) fun _ _ same => by cases same
  | checkAdmission check =>
    obtain ⟨m, now, _, _, after⟩ := exec
    exact h.idle owes hist (by rw [after]) (by rw [after]) (by rw [after])
      (by simp) (by simp) (fun _ _ same => by cases same) fun _ _ same => by cases same
  | query q =>
    obtain ⟨same, answer⟩ := exec
    refine h.idle owes hist (congrArg State.telemetry same) (congrArg State.callers same)
      (congrArg State.ops same) (by simp) (by simp) ?_ fun _ _ same => by cases same
    intro q' r given
    cases given
    rcases answer with ⟨e, failed⟩ | ⟨r', now, found, reads⟩
    · cases failed
    · cases found
      exact ⟨now, reads⟩
  | mutate m =>
    obtain ⟨luck, rfl, performed⟩ := exec
    exact h.mutate owes hist performed
  | submit write =>
    obtain ⟨telemetry, step, rfl, called⟩ := exec
    exact h.submit owes step hist called
  | submitted i =>
    obtain ⟨same, call, hc, returned⟩ := exec
    refine h.idle owes hist (congrArg State.telemetry same) (congrArg State.callers same)
      (congrArg State.ops same) (by simp) (by simp) (fun _ _ same => by cases same) ?_
    intro j b given
    cases given
    exact ⟨call, hc, returned⟩
  | panic => exact exec.elim
  | respond r =>
    exact h.idle owes hist (congrArg State.telemetry exec) (congrArg State.callers exec)
      (congrArg State.ops exec) (by simp) (by simp) (fun _ _ same => by cases same)
      fun _ _ same => by cases same

/-- Whatever the connections do, the store has what they and the background made of it, and they
have been told the truth. -/
theorem Reachable.sound {clock : Instant} {P : Pool Connection Call Answer (Recorded D)}
    (h : Reachable config digests before clock P) :
    Sound digests.tokenHash config before P.shared := by
  have isolated := recorded_isolates (server config digests) (Owes digests.tokenHash) Possible
    (answers_possible config digests)
  have good : ∀ p, p = handle digests.tokenHash →
      p.Meets (contract digests.tokenHash) (fun _ _ => True) [] := by
    intro p hp
    subst hp
    exact meets_handle
  apply isolated.invariant (fun _ => rfl) good (Sound digests.tokenHash config before)
    (sound_boot clock) ?_ ?_ ?_ P h
  · exact fun c o s a s' sound owes exec => sound_exec sound owes exec
  · intro c s s' sound reap
    obtain ⟨⟨i, telemetry, _, step, same⟩, hist⟩ := reap
    apply sound.telemetry (by simp) (by simp) step hist
    simp [same, transacted, byNobody]
  · intro s s' sound outside
    obtain ⟨moved | ⟨op, retention, performed⟩, hist⟩ := outside
    · obtain ⟨move, telemetry, mine, step, same⟩ := moved
      apply sound.telemetry ?_ ?_ step hist same
      · intro write submits
        subst submits
        cases mine
      · intro op elsewhere
        subst elsewhere
        cases mine
    · exact sound.retention retention hist performed

end

/-- What a turn of a connection meets. -/
structure Meeting where
  request : Request
  principal : String := "admin"
  time : DateTime
  instant : Instant
  luck : Luck

/-- The reading statements of a report and of the pages of one host. -/
def Query.answer (now : DateTime) (db : Db) : (q : Query) → Option q.Result
  | .hostForToken tokenHash => some (Store.hostForToken tokenHash db)
  | .pairingPublic requestId => some (Store.pairingPublic requestId now db)
  | .pairingStatus requestId secretHash => some (Store.pairingStatus requestId secretHash now db)
  | .hostRow hostId => some (getHostRow hostId db)
  | .hostPayload hostId => getHostPayload hostId db
  | _ => none

theorem Query.answer_reads {now : DateTime} {db : Db} {q : Query} {r : q.Result}
    (h : q.answer now db = some r) : q.Reads now db r := by
  cases q with
  | hostPayload hostId => exact h
  | listInvites => cases h
  | hostCount => cases h
  | hostRows limit offset => cases h
  | hostExists hostId => cases h
  | historyRows hostId fromTime toTime limit => cases h
  | _ => exact (Option.some.inj h).symm

section
variable {D : Type}

theorem AdmissionState.reorders_refl (s : AdmissionState D) : State.Reorders s s :=
  ⟨BoundedBuckets.reorders_refl _, BoundedBuckets.reorders_refl _, BoundedBuckets.reorders_refl _,
    BoundedBuckets.reorders_refl _, BoundedBuckets.reorders_refl _, BoundedBuckets.reorders_refl _,
    BoundedBuckets.reorders_refl _⟩

variable [DecidableEq D] (config : TelemetryWriterConfig) (digests : Digests D)

/-- The answer of a server without faults, its maps in the order they have. -/
def State.answer (met : Meeting) (c : Connection) :
    (o : Call) → State D → Option (Answer o × State D)
  | .receive, s => some (met.request, s)
  | .authenticate .., s => some (.ok met.principal, s)
  | .now, s => some (met.time, s)
  | .allowReport hostId, s =>
    if s.clock ≤ met.instant then
      some ((ReportBuckets.allowAt s.reportBuckets hostId met.instant).1,
        s.checked c hostId s.reportBuckets met.instant)
    else none
  | .checkAdmission check, s =>
    let (result, admission) := check.run digests.sha256 met.instant s.admission
    some (result, { s with admission })
  | .query q, s => (q.answer met.time s.db).map fun r => (.ok r, s)
  | .mutate m, s => some ((m.perform digests.tokenHash met.luck s.db).1,
    s.performed (some c) (m.op digests.tokenHash met.luck))
  | .submit write, s => (Telemetry.step config s.telemetry (.submit write)).map fun telemetry =>
    (s.telemetry.calls.length, { s with telemetry, callers := s.callers ++ [c] })
  | .submitted i, s =>
    match s.telemetry.calls[i]? with
    | some ⟨_, .returned a, _⟩ => some (a, s)
    | _ => none
  | .panic, _ => none
  | .respond _, s => some ((), s)

/-- A step of the telemetry writer. -/
def State.move (move : Telemetry.Move) (s : State D) : Option (State D) :=
  if background move then
    (Telemetry.step config s.telemetry move).map fun telemetry =>
      { s with
        telemetry
        ops := s.ops ++ byNobody (transacted s.telemetry move) }
  else none

variable {config digests}

theorem State.answer_executes {met : Meeting} {c : Connection} {o : Call} {s s' : State D}
    {a : Answer o} (h : s.answer config digests met c o = some (a, s')) :
    Executes config digests c s o a s' := by
  cases o with
  | receive => cases h; rfl
  | authenticate headers request =>
    cases h
    exact ⟨rfl, by simp⟩
  | now => cases h; rfl
  | allowReport hostId =>
    simp only [State.answer] at h
    split_ifs at h with later
    cases h
    exact ⟨_, _, BoundedBuckets.reorders_refl _, later, rfl, rfl⟩
  | checkAdmission check =>
    cases h
    exact ⟨_, _, AdmissionState.reorders_refl _, rfl, rfl⟩
  | query q =>
    obtain ⟨r, answered, same⟩ := Option.map_eq_some_iff.mp h
    cases same
    exact ⟨rfl, Or.inr ⟨r, _, rfl, q.answer_reads answered⟩⟩
  | mutate m =>
    cases h
    exact ⟨met.luck, rfl, rfl⟩
  | submit write =>
    obtain ⟨telemetry, step, same⟩ := Option.map_eq_some_iff.mp h
    cases same
    exact ⟨telemetry, step, rfl, rfl⟩
  | submitted i =>
    simp only [State.answer] at h
    split at h
    · rename_i write phase completion hc
      cases h
      exact ⟨rfl, _, hc, rfl⟩
    · cases h
  | panic => cases h
  | respond response => cases h; rfl

theorem State.move_outside {move : Telemetry.Move} {s s' : State D}
    (h : s.move config move = some s') : (server config digests).outside s s' := by
  unfold State.move at h
  split_ifs at h with mine
  obtain ⟨telemetry, step, rfl⟩ := Option.map_eq_some_iff.mp h
  exact Or.inl ⟨move, telemetry, mine, step, rfl⟩

variable (config digests)

/-- Some turns of connections and of the telemetry writer. -/
def resumed (P : Pool Connection Call Answer (Recorded D))
    (turns : List (Turn Connection Meeting Telemetry.Move)) :
    Option (Pool Connection Call Answer (Recorded D)) :=
  play (handle digests.tokenHash)
    (fun met c o s => (s.1.answer config digests met c o).map fun (a, s') =>
      (a, s', Function.update s.2 c (s.2 c ++ [⟨o, a⟩])))
    (fun move s => (s.1.move config move).map fun s' => (s', s.2)) P turns

def played (before : List Op) (clock : Instant)
    (turns : List (Turn Connection Meeting Telemetry.Move)) :
    Option (Pool Connection Call Answer (Recorded D)) :=
  resumed config digests ⟨fun _ => none, boot D before clock, fun _ => []⟩ turns

variable {config digests}

theorem leads_resumed {turns : List (Turn Connection Meeting Telemetry.Move)}
    {P Q : Pool Connection Call Answer (Recorded D)}
    (h : resumed config digests P turns = some Q) : Leads config digests P Q := by
  refine World.leads_play ?_ ?_ ?_ turns P Q h
  · rfl
  · intro met c o s a s' answered
    obtain ⟨⟨a', t⟩, given, same⟩ := Option.map_eq_some_iff.mp answered
    cases same
    exact ⟨State.answer_executes given, rfl⟩
  · intro move s s' moved
    obtain ⟨t, went, same⟩ := Option.map_eq_some_iff.mp moved
    cases same
    exact ⟨State.move_outside went, rfl⟩

theorem reachable_played {before : List Op} {clock : Instant}
    {turns : List (Turn Connection Meeting Telemetry.Move)}
    {P : Pool Connection Call Answer (Recorded D)}
    (h : played config digests before clock turns = some P) :
    Reachable config digests before clock P :=
  World.Reachable.start.leads (leads_resumed h)

end

/-- What the connection responded, if it did. -/
def Past.response (h : Past) : Option Response :=
  h.findSome? fun
    | ⟨.respond r, _⟩ => some r
    | _ => none

/-- The request of the connection, if it came. -/
def Past.request (h : Past) : Option Request :=
  h.findSome? fun
    | ⟨.receive, request⟩ => some request
    | _ => none

theorem Past.got_request {h : Past} {request : Request} (received : h.request = some request) :
    h.Got .receive request := by
  obtain ⟨⟨o, a⟩, he, found⟩ := List.exists_of_findSome?_eq_some received
  cases o with
  | receive =>
    cases found
    exact he
  | _ => cases found

theorem Past.got_response {h : Past} {r : Response} (responded : h.response = some r) :
    h.Got (.respond r) () := by
  obtain ⟨⟨o, a⟩, he, found⟩ := List.exists_of_findSome?_eq_some responded
  cases o with
  | respond r' =>
    cases found
    exact he
  | _ => cases found

end HostMonitoring.Server
