import HostMonitoring.Server.Guarantees

namespace HostMonitoring.Server

open HostMonitoring.Framework
open HostMonitoring.Framework.World (Turn)
open HostMonitoring.Admission
open HostMonitoring.Model
open HostMonitoring.Protocol
open HostMonitoring.Store
open HostMonitoring.Telemetry (TelemetryWriterConfig)

theorem ConsoleRequest.Tells.mono {reads reads' : (q : Query) → q.Result → Prop} {body : Body}
    {request : ConsoleRequest} (tells : request.Tells reads body)
    (keeps : ∀ q r, reads q r → reads' q r) : request.Tells reads' body := by
  cases request with
  | listHosts limit offset =>
    obtain ⟨total, rows, now, counted, listed, same⟩ := tells
    exact ⟨total, rows, now, keeps _ _ counted, keeps _ _ listed, same⟩
  | hostDetail id =>
    obtain ⟨hostId, row, latest, now, named, found, payload, same⟩ := tells
    exact ⟨hostId, row, latest, now, named, keeps _ _ found, keeps _ _ payload, same⟩
  | hostHistory id fromTime toTime limit =>
    obtain ⟨hostId, points, named, found, listed, same⟩ := tells
    exact ⟨hostId, points, named, keeps _ _ found, keeps _ _ listed, same⟩
  | listInstances =>
    obtain ⟨instances, listed, same⟩ := tells
    exact ⟨instances, keeps _ _ listed, same⟩
  | _ => trivial

theorem Request.Tells.mono {tokenHash : String → String}
    {reads reads' : (q : Query) → q.Result → Prop} {body : Body} {request : Request}
    (tells : request.Tells tokenHash reads body) (keeps : ∀ q r, reads q r → reads' q r) :
    request.Tells tokenHash reads' body := by
  cases request with
  | report headers report =>
    obtain ⟨credential, hostId, now, metrics, accepted, receivedAt, bearer, found, rest⟩ := tells
    exact ⟨credential, hostId, now, metrics, accepted, receivedAt, bearer, keeps _ _ found, rest⟩
  | pairingPublic peer id =>
    obtain ⟨requestId, summary, named, found, same⟩ := tells
    exact ⟨requestId, summary, named, keeps _ _ found, same⟩
  | pairingStatus peer headers id =>
    obtain ⟨requestId, secret, status, instanceId, named, presented, found, same⟩ := tells
    exact ⟨requestId, secret, status, instanceId, named, presented, keeps _ _ found, same⟩
  | console headers request => exact ConsoleRequest.Tells.mono tells keeps
  | _ => trivial

/-- The store was so at a moment after the first calls and before the last. -/
def Moment (before : List Op) (ops ops' : List (Option Connection × Op)) (holds : Db → Prop) :
    Prop :=
  ∃ past later, ops' = ops ++ past ++ later ∧ holds (dbAfter before (ops ++ past))

theorem Moment.mono {before : List Op} {ops ops' ops'' : List (Option Connection × Op)}
    {holds : Db → Prop} (h : Moment before ops ops' holds) (onward : ops' <+: ops'') :
    Moment before ops ops'' holds := by
  obtain ⟨past, later, rfl, held⟩ := h
  obtain ⟨more, rfl⟩ := onward
  exact ⟨past, later ++ more, by simp, held⟩

section
variable {D : Type} [DecidableEq D] {config : TelemetryWriterConfig} {digests : Digests D}

/-- A step may add to the calls of the store, and who reads then reads the store as it is. -/
structure Onward (s s' : Recorded D) : Prop where
  ops : s.1.ops <+: s'.1.ops
  read : ∀ c q r, (s'.2 c).Got (.query q) (.ok r) →
    (s.2 c).Got (.query q) (.ok r) ∨ ∃ now, q.Reads now s.1.db r

omit [DecidableEq D] in
theorem Onward.unread {s s' : Recorded D} (ops : s.1.ops <+: s'.1.ops) (hist : s'.2 = s.2) :
    Onward s s' where
  ops := ops
  read _ _ _ got := Or.inl (hist ▸ got)

theorem exec_ops {c : Connection} {o : Call} {s s' : State D} {a : Answer o}
    (h : Executes config digests c s o a s') : s.ops <+: s'.ops := by
  cases o with
  | allowReport hostId =>
    obtain ⟨m, now, _, _, _, rfl⟩ := h
    exact List.prefix_rfl
  | checkAdmission check =>
    obtain ⟨m, now, _, _, rfl⟩ := h
    exact List.prefix_rfl
  | mutate m =>
    obtain ⟨luck, _, rfl⟩ := h
    exact List.prefix_append _ _
  | submit write =>
    obtain ⟨telemetry, _, _, rfl⟩ := h
    exact List.prefix_rfl
  | panic => exact h.elim
  | authenticate headers request =>
    obtain ⟨rfl, _⟩ := h
    exact List.prefix_rfl
  | query q =>
    obtain ⟨rfl, _⟩ := h
    exact List.prefix_rfl
  | submitted i =>
    obtain ⟨rfl, _⟩ := h
    exact List.prefix_rfl
  | receive => rw [show s' = s from h]
  | now => rw [show s' = s from h]
  | respond response => rw [show s' = s from h]

theorem onward_exec {s s' : Recorded D} {c : Connection} {o : Call} {a : Answer o}
    (h : (server config digests).recorded.exec c o s a s') : Onward s s' where
  ops := exec_ops h.1
  read u q r got := by
    obtain ⟨exec, hist⟩ := h
    rw [hist, got_update] at got
    rcases got with got | ⟨_, same⟩
    · exact Or.inl got
    · cases same
      rcases exec.2 with ⟨e, failed⟩ | ⟨r', now, found, reads⟩
      · cases failed
      · cases found
        exact Or.inr ⟨now, reads⟩

theorem onward_step {P Q : Pool Connection Call Answer (Recorded D)}
    (h : (server config digests).recorded.Step (· = handle digests.tokenHash) P Q) :
    Onward P.shared Q.shared := by
  rcases h.shared with same | ⟨c, o, a, exec⟩ | ⟨c, reap, hist⟩ | ⟨outside, hist⟩
  · rw [same]
    exact .unread List.prefix_rfl rfl
  · exact onward_exec exec
  · obtain ⟨i, telemetry, _, _, same⟩ := reap
    apply Onward.unread _ hist
    rw [same]
  · apply Onward.unread _ hist
    rcases outside with ⟨move, telemetry, _, _, same⟩ | ⟨op, _, same⟩
    · rw [same]
      exact List.prefix_append _ _
    · rw [same]
      exact List.prefix_append _ _

variable {before : List Op} {clock : Instant} {P Q : Pool Connection Call Answer (Recorded D)}

/-- What a connection has read since then was in the store since then. -/
theorem read_since (h : Reachable config digests before clock P) (run : Leads config digests P Q) :
    P.shared.1.ops <+: Q.shared.1.ops ∧
    ∀ c q r, (Q.shared.2 c).Got (.query q) (.ok r) → (P.shared.2 c).Got (.query q) (.ok r) ∨
      Moment before P.shared.1.ops Q.shared.1.ops fun db => ∃ now, q.Reads now db r := by
  induction run with
  | refl => exact ⟨List.prefix_rfl, fun c q r got => Or.inl got⟩
  | @tail R Q run step ih =>
    obtain ⟨grown, reads⟩ := ih
    have onward := onward_step step
    refine ⟨grown.trans onward.ops, ?_⟩
    intro c q r got
    rcases onward.read c q r got with earlier | now
    · exact (reads c q r earlier).imp_right fun moment => moment.mono onward.ops
    · right
      have sound := (h.leads run).sound
      obtain ⟨past, same⟩ := grown
      obtain ⟨later, onto⟩ := onward.ops
      refine ⟨past, later, ?_, ?_⟩
      · rw [same, onto]
      · rw [same, ← sound.journal.db]
        exact now

/-- What a connection asked for was done since then, by its one call of the store. -/
def DoneSince (tokenHash : String → String) (before : List Op)
    (earlier : List (Option Connection × Op)) (s : Recorded D) (c : Connection) (body : Body) :
    Prop :=
  ∃ request m luck past later, (s.2 c).Got .receive request ∧ request.Permits tokenHash (s.2 c) m ∧
    s.1.ops = earlier ++ past ++ (some c, m.op tokenHash luck) :: later ∧
    m.Effect tokenHash body (dbAfter before (earlier ++ past))
      (dbAfter before (earlier ++ past ++ [(some c, m.op tokenHash luck)]))

omit [DecidableEq D] in
/-- A connection that has done nothing yet does it later. -/
theorem Done.since {tokenHash : String → String} {earlier : List (Option Connection × Op)}
    {s : Recorded D} {c : Connection} {body : Body} (done : Done tokenHash before s c body)
    (grown : earlier <+: s.1.ops) (absent : ∀ op, (some c, op) ∉ earlier) :
    DoneSince tokenHash before earlier s c body := by
  obtain ⟨request, m, luck, past, later, received, permits, split, effect⟩ := done
  obtain ⟨rest, same⟩ := grown
  rw [split] at same
  rcases split_append same with ⟨mid, inside⟩ | ⟨mid, rfl, _⟩
  · exact absurd (by simp [inside]) (absent (m.op tokenHash luck))
  · exact ⟨request, m, luck, mid, later, received, permits, split, effect⟩

/-- While other connections, the telemetry writer and the retention service go on, each answer that a
response tells was so at a moment between its request and the response. -/
theorem answered_between (h : Reachable config digests before clock P)
    (run : Leads config digests P Q) (c : Connection) (unseen : P.shared.2 c = []) (r : Response)
    (responded : (Q.shared.2 c).Got (.respond r) ()) (success : r.status < 300) (request : Request)
    (received : (Q.shared.2 c).Got .receive request) :
    (request.mutates = false → request.Tells digests.tokenHash
      (fun q a => Moment before P.shared.1.ops Q.shared.1.ops fun db => ∃ now, q.Reads now db a)
      r.body) ∧
    (request.mutates = true →
      DoneSince digests.tokenHash before P.shared.1.ops Q.shared c r.body) := by
  have sound := (h.leads run).sound
  obtain ⟨grown, reads⟩ := read_since h run
  constructor
  · intro reading
    obtain ⟨past, keeps, answered⟩ := response_answers (sound.allowed c) received responded
    apply (answered.told success reading).mono
    intro q a got
    rcases reads c q a (keeps _ _ got) with early | moment
    · rw [unseen] at early
      cases early
    · exact moment
  · intro mutates
    apply (done_of_answered sound responded received mutates success).since grown
    intro op hop
    have written : 0 < P.shared.1.writes c :=
      List.countP_pos_iff.mpr ⟨(some c, op), hop, by simp⟩
    rw [h.sound.journal.count, unseen] at written
    simp [mutations] at written

end

/-- An administrator names the laptop anew; then another looks at its page. -/
theorem laptop_read : ∃ P Q, Reachable .production (⟨id, id⟩ : Digests String) laptopActive 0 P ∧
    Leads .production ⟨id, id⟩ P Q ∧ ∃ r request, (Q.shared.2 2).Got (.respond r) () ∧
    (Q.shared.2 2).Got .receive request ∧ request.mutates = false ∧ request.Tells id
      (fun q a => Moment laptopActive P.shared.1.ops Q.shared.1.ops fun db => ∃ now, q.Reads now db a)
      r.body := by
  let meets (request : ConsoleRequest) : Meeting :=
    { request := .console [] request
      time := noon
      instant := 0
      luck := ⟨.none, (⟨7⟩, ⟨8⟩), "", noon, noon⟩ }
  let laptop := "00000000-0000-0000-0000-000000000002"
  let renames := meets (.updateRemark laptop "the laptop")
  let looks := meets (.hostDetail laptop)
  have ends : (played .production (⟨id, id⟩ : Digests String) laptopActive 0
      [.spawn 1, .go 1 renames, .go 1 renames, .go 1 renames, .go 1 renames]).any (fun P =>
        (P.shared.2 2).isEmpty && (resumed .production ⟨id, id⟩ P
          [.spawn 2, .go 2 looks, .go 2 looks, .go 2 looks, .go 2 looks, .go 2 looks, .go 2 looks]).any
          fun Q => (Q.shared.2 2).response.any (fun r => decide (r.status = 200)) &&
            (Q.shared.2 2).request.any (fun request => !request.mutates)) = true := by
    decide +kernel
  obtain ⟨P, first, told⟩ := (Option.any_eq_true _ _).mp ends
  rw [Bool.and_eq_true, Option.any_eq_true] at told
  obtain ⟨unseen, Q, then_, told⟩ := told
  simp only [Bool.and_eq_true, Option.any_eq_true, decide_eq_true_eq, Bool.not_eq_true'] at told
  obtain ⟨⟨r, responded, status⟩, request, received, reads⟩ := told
  have reachable := reachable_played first
  have run := leads_resumed then_
  have said := Past.got_response responded
  have asked := Past.got_request received
  exact ⟨P, Q, reachable, run, r, request, said, asked, reads, (answered_between reachable run 2
    (List.isEmpty_iff.mp unseen) r said (by omega) request asked).1 reads⟩

end HostMonitoring.Server
