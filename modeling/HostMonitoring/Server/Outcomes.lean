import HostMonitoring.Server.Runs

namespace HostMonitoring.Server

open HostMonitoring.Framework
open HostMonitoring.Framework.World (Allowed)
open HostMonitoring.Admission
open HostMonitoring.Model
open HostMonitoring.Protocol
open HostMonitoring.Store
open HostMonitoring.Telemetry (TelemetryWriterConfig OwnResult Outcome)

section
variable {tokenHash : String → String} {h h' : Past}

theorem Activates.mono (keeps : ∀ o a, h.Got o a → h'.Got o a) {peer : IpAddr}
    {request : ActivateClientRequest} {requestId : Uuid} {activationHash : String}
    (activates : Activates tokenHash h peer request requestId activationHash) :
    Activates tokenHash h' peer request requestId activationHash :=
  ⟨activates.request_id, activates.hash, keeps _ _ activates.admitted⟩

theorem ConsoleRequest.Permits.mono (keeps : ∀ o a, h.Got o a → h'.Got o a) {principal : String}
    {request : ConsoleRequest} {m : Mutation} (permits : request.Permits tokenHash h principal m) :
    request.Permits tokenHash h' principal m := by
  unfold ConsoleRequest.Permits at permits ⊢
  split at permits
  · exact ⟨permits.1, permits.2.1, keeps _ _ permits.2.2⟩
  · exact permits
  · exact permits
  · exact permits
  · exact ⟨permits.1, keeps _ _ permits.2.1, permits.2.2.mono keeps⟩
  · exact permits.elim

/-- A check that was passed stays passed. -/
theorem Request.Permits.mono (keeps : ∀ o a, h.Got o a → h'.Got o a) {request : Request}
    {m : Mutation} (permits : request.Permits tokenHash h m) : request.Permits tokenHash h' m := by
  unfold Request.Permits at permits ⊢
  split at permits
  · exact ⟨permits.1, permits.2.1, keeps _ _ permits.2.2⟩
  · exact ⟨permits.1, permits.2.mono keeps⟩
  · obtain ⟨principal, signedIn, permits⟩ := permits
    exact ⟨principal, keeps _ _ signedIn, permits.mono keeps⟩
  · exact permits.elim

theorem Submits.mono (keeps : ∀ o a, h.Got o a → h'.Got o a) {write : ReportWrite}
    (submits : Submits tokenHash h write) : Submits tokenHash h' write where
  credential := by
    obtain ⟨headers, credential, received, hc, same⟩ := submits.credential
    exact ⟨headers, credential, keeps _ _ received, hc, same⟩
  host := by
    obtain ⟨hostId, found, same⟩ := submits.host
    exact ⟨hostId, keeps _ _ found, same⟩
  valid := by
    obtain ⟨now, read, valid⟩ := submits.valid
    exact ⟨now, keeps _ _ read, valid⟩
  allowed := keeps _ _ submits.allowed

variable (allowed : Allowed (Owes tokenHash) h)
include allowed

/-- What a connection asked it was allowed to ask by what came before. -/
theorem owed {o : Call} {a : Answer o} (got : h.Got o a) :
    ∃ past, (∀ o a, Past.Got past o a → h.Got o a) ∧ Owes tokenHash o past := by
  obtain ⟨past, later, split⟩ := List.append_of_mem got
  refine ⟨past, ?_, allowed past o a later split⟩
  intro o' a' got'
  rw [Past.Got, split]
  exact List.mem_append_left _ got'

/-- A connection has one request. -/
theorem received_once {request request' : Request} (got : h.Got .receive request)
    (got' : h.Got .receive request') : request' = request := by
  obtain ⟨past, later, split⟩ := List.append_of_mem got
  obtain ⟨past', later', split'⟩ := List.append_of_mem got'
  have first : past = [] := allowed past .receive request later split
  have first' : past' = [] := allowed past' .receive request' later' split'
  subst first first'
  rw [split] at split'
  cases split'
  rfl

/-- Once a connection has responded it does nothing more to the store. -/
theorem before_response {r : Response} (responded : h.Got (.respond r) ()) :
    ∃ past request, (∀ o a, Past.Got past o a → h.Got o a) ∧ past.Got .receive request ∧
      Answered tokenHash request past r ∧ (∀ m a, h.Got (.mutate m) a → past.Got (.mutate m) a) ∧
      ∀ write i, h.Got (.submit write) i → past.Got (.submit write) i := by
  obtain ⟨past, later, split⟩ := List.append_of_mem responded
  obtain ⟨request, received, answered⟩ := allowed past (.respond r) () later split
  have silent : ∀ o a, (⟨o, a⟩ : (o : Call) × Answer o) ∈ later →
      ∃ mid, Owes tokenHash o mid ∧ ¬Quiet mid := by
    intro o a got
    obtain ⟨mid, last, rfl⟩ := List.append_of_mem got
    refine ⟨past ++ ⟨.respond r, ()⟩ :: mid, allowed _ o a last (by simp [split]), ?_⟩
    intro quiet
    cases quiet ⟨.respond r, ()⟩ (by simp)
  refine ⟨past, request, ?_, received, answered, ?_, ?_⟩
  · intro o a got
    rw [Past.Got, split]
    exact List.mem_append_left _ got
  · intro m a got
    rw [Past.Got, split] at got
    rcases List.mem_append.mp got with got | got
    · exact got
    · obtain ⟨mid, owes, active⟩ := silent _ _ ((List.mem_cons.mp got).resolve_left (by simp))
      exact absurd owes.1 active
  · intro write i got
    rw [Past.Got, split] at got
    rcases List.mem_append.mp got with got | got
    · exact got
    · obtain ⟨mid, owes, active⟩ := silent _ _ ((List.mem_cons.mp got).resolve_left (by simp))
      exact absurd owes.1 active

/-- A response answers the request of its connection. -/
theorem response_answers {request : Request} (received : h.Got .receive request) {r : Response}
    (responded : h.Got (.respond r) ()) :
    ∃ past, (∀ o a, Past.Got past o a → h.Got o a) ∧ Answered tokenHash request past r := by
  obtain ⟨past, own, keeps, receivedThen, answered, _⟩ := before_response allowed responded
  have same : own = request := received_once allowed received (keeps _ _ receivedThen)
  exact ⟨past, keeps, same ▸ answered⟩

/-- A connection queues one report. -/
theorem submitted_once {write write' : ReportWrite} {i j : Nat} (got : h.Got (.submit write) i)
    (got' : h.Got (.submit write') j) : j = i := by
  obtain ⟨past, later, split⟩ := List.append_of_mem got
  have quiet : Quiet past := (allowed past (.submit write) i later split).1
  rw [Past.Got, split] at got'
  rcases List.mem_append.mp got' with early | rest
  · exact absurd early (quiet.not_got rfl)
  · rcases List.mem_cons.mp rest with same | late
    · cases same
      rfl
    · obtain ⟨mid, last, rfl⟩ := List.append_of_mem late
      have quiet' : Quiet (past ++ ⟨.submit write, i⟩ :: mid) :=
        (allowed _ (.submit write') j last (by simp [split])).1
      cases quiet' ⟨.submit write, i⟩ (by simp)

theorem submitted_validly {write : ReportWrite} {i : Nat} (got : h.Got (.submit write) i) :
    Submits tokenHash h write := by
  obtain ⟨past, keeps, _, submits⟩ := owed allowed got
  exact submits.mono keeps

theorem mutated_rightly {m : Mutation} {a : Answer (.mutate m)} (got : h.Got (.mutate m) a) :
    ∃ request, h.Got .receive request ∧ request.Permits tokenHash h m := by
  obtain ⟨past, keeps, _, request, received, permits⟩ := owed allowed got
  exact ⟨request, keeps _ _ received, permits.mono keeps⟩

/-- A connection calls the store or queues a report, and that once. -/
theorem writes_le_one : mutations h + submissions h ≤ 1 := by
  induction h using List.reverseRecOn with
  | nil => simp [mutations, submissions]
  | append_singleton past e ih =>
    obtain ⟨o, a⟩ := e
    have before := allowed past o a [] rfl
    have rest := ih fun past' o' a' later split =>
      allowed past' o' a' (later ++ [⟨o, a⟩]) (by simp [split])
    have quiet (silent : Quiet past) : mutations past = 0 ∧ submissions past = 0 := by
      constructor
      · refine List.countP_eq_zero.mpr fun e he mutates => ?_
        have passive := silent e he
        cases ho : e.1 with
        | mutate m => rw [ho] at passive; cases passive
        | _ => rw [ho] at mutates; cases mutates
      · refine List.countP_eq_zero.mpr fun e he submits => ?_
        have passive := silent e he
        cases ho : e.1 with
        | submit write => rw [ho] at passive; cases passive
        | _ => rw [ho] at submits; cases submits
    rw [mutations_concat, submissions_concat]
    cases o with
    | mutate m =>
      obtain ⟨none, none'⟩ := quiet before.1
      simp [none, none', isMutation, isSubmission]
    | submit write =>
      obtain ⟨none, none'⟩ := quiet before.1
      simp [none, none', isMutation, isSubmission]
    | _ => simpa [isMutation, isSubmission] using rest

end

/-- The call is one for a pairing request, and only requests that were due by its clock are gone. -/
def Swept (op : Op) (db db' : Db) : Prop :=
  ∃ f request requestId now createdAt, op = .createPairing f request requestId now createdAt ∧
    db' = { db with pairings := cleanup f.ties now (now.plusSeconds (-(30 * 86400))) db.pairings }

/-- A call that does not do what was asked leaves the store as it is, but for the sweep that a new
pairing request begins with. -/
theorem Mutation.Refuses.unchanged {tokenHash : String → String} {luck : Luck} {m : Mutation}
    {db : Db} (h : ∀ r, (m.perform tokenHash luck db).1 = .ok r → m.Refuses r) :
    (m.perform tokenHash luck db).2 = db ∨
      Swept (m.op tokenHash luck) db (m.perform tokenHash luck db).2 := by
  cases m with
  | createInvite displayName actor =>
    rcases createInvite_cases _ _ _ _ _ _ _ _ _ _ _ _ Prod.mk.eta.symm with ⟨same, _⟩ |
      ⟨row, _, _, done, _⟩
    · exact Or.inl same
    · exact absurd rfl (h _ done (clientInstance row))
  | cancelInvite inviteId actor =>
    rcases cancelInvite_cases _ _ _ _ _ _ _ _ Prod.mk.eta.symm with ⟨same, _⟩ |
      ⟨_, _, _, _, _, done, _⟩
    · exact Or.inl same
    · exact absurd rfl (h _ done)
  | createPairing request =>
    rcases createPairing_cases _ _ _ _ _ _ _ _ Prod.mk.eta.symm with ⟨same, _⟩ |
      ⟨_, cleaned, swept, ⟨_, after⟩ | ⟨_, row, _, _, _, _, _, _, done, _⟩⟩
    · exact Or.inl same
    · subst swept
      exact Or.inr ⟨_, _, _, _, _, rfl, after⟩
    · exact absurd rfl (h _ done _ _ _)
  | activate requestId activationHash actor =>
    rcases activate_cases _ _ _ _ _ _ _ _ _ _ Prod.mk.eta.symm with ⟨same, _⟩ | ⟨_, _, done, _⟩
    · exact Or.inl same
    · exact absurd rfl (h _ done _)
  | updateRemark hostId remark actor =>
    rcases updateRemark_cases _ _ _ _ _ _ _ _ Prod.mk.eta.symm with ⟨same, _⟩ | ⟨done, _⟩
    · exact Or.inl same
    · exact absurd (h _ done) (by simp [Mutation.Refuses])
  | deleteHost hostId actor =>
    rcases deleteHost_cases _ _ _ _ _ _ _ Prod.mk.eta.symm with ⟨same, _⟩ | ⟨done, _⟩
    · exact Or.inl same
    · exact absurd (h _ done) (by simp [Mutation.Refuses])

/-- What a positive answer says of the store before and after the call. -/
def Mutation.Effect (tokenHash : String → String) (body : Body) (db db' : Db) : Mutation → Prop
  | .createInvite displayName _ => ∃ v ∈ db'.invites, ∃ activationCode,
    body = .instance (clientInstance v) activationCode ∧ v.displayName = displayName ∧
    v.activationCodeHash = tokenHash activationCode ∧ v.status = .pending ∧
    ∀ v' ∈ db.invites, v'.inviteId ≠ v.inviteId
  | .cancelInvite inviteId _ => body = .empty ∧
    (∃ v ∈ db.invites, v.inviteId = inviteId ∧ v.status = .pending) ∧
    ∃ v ∈ db'.invites, v.inviteId = inviteId ∧ v.status = .cancelled
  | .createPairing request => ∃ p ∈ db'.pairings,
    (∃ expiresIn, body = .pairing p.requestId.toText (activationUrl p.requestId) expiresIn 5) ∧
    p.tokenHash = request.tokenHash ∧ p.pollingSecretHash = request.pollingSecretHash ∧
    p.status ≠ .denied
  | .activate requestId activationHash _ => ∃ instanceId, body = .active instanceId.toText ∧
    BoundBy db' requestId activationHash instanceId
  | .updateRemark hostId remark _ => body = .empty ∧
    ∃ h ∈ db'.hosts, h.hostId = hostId ∧ h.name = remark
  | .deleteHost hostId _ => body = .empty ∧ (∃ h ∈ db.hosts, h.hostId = hostId) ∧
    ∀ h ∈ db'.hosts, h.hostId ≠ hostId

theorem boundBy_of_activation {pairing : PairingRequest} {invite : InstanceInvite} {requestId : Uuid}
    {activationHash actor : String} {credentialId : Uuid} {now auditedAt : DateTime} {db db' : Db}
    (h : Activation pairing invite requestId activationHash actor credentialId now auditedAt db db') :
    BoundBy db' requestId activationHash invite.instanceId :=
  ⟨_, (h.mem_pairings _).mpr (Or.inl rfl), _, (h.mem_invites _).mpr (Or.inl rfl), h.pairing_id, rfl,
    h.invite_code, rfl, rfl, rfl, _, (Table.mem_insert? _ _ _ _ h.credentials).mpr (Or.inr rfl), rfl,
    rfl, rfl⟩

theorem answerExisting_ready {row : PairingRequest} {request : ClientPairingRequest}
    {now : DateTime} {requestId : Uuid} {expiresAt : DateTime} {created : Bool}
    (h : answerExisting row request now = .ready requestId expiresAt created) :
    row.requestId = requestId ∧ row.tokenHash = request.tokenHash ∧ row.status ≠ .denied := by
  unfold answerExisting at h
  split_ifs at h with hs
  simp only [CreatePairingResult.ready.injEq] at h
  push Not at hs
  have same := hs.1
  simp only [PairingRequest.sameRequest, ne_eq, Bool.not_eq_false, Bool.and_eq_true,
    decide_eq_true_eq] at same
  exact ⟨h.1, same.2, hs.2⟩

/-- The pairing request that a positive answer names. -/
theorem createPairing_ready {f : Faults} {request : ClientPairingRequest} {drawn : Uuid}
    {now createdAt : DateTime} {db : Db} {requestId : Uuid} {expiresAt : DateTime} {created : Bool}
    (h : (Store.createPairing f request drawn now createdAt db).1 =
      .ok (.ready requestId expiresAt created)) :
    ∃ p ∈ (Store.createPairing f request drawn now createdAt db).2.pairings,
      p.requestId = requestId ∧ p.tokenHash = request.tokenHash ∧
      p.pollingSecretHash = request.pollingSecretHash ∧ p.status ≠ .denied := by
  rcases createPairing_cases _ _ _ _ _ _ _ _ Prod.mk.eta.symm with
    ⟨same, ⟨e, he⟩ | hc | ⟨row, hm, secret, answer⟩⟩ |
    ⟨_, cleaned, _, ⟨full, _⟩ | ⟨hostId, row, pairings, _, made, _, _, inserted, done, after⟩⟩
  · cases h.symm.trans he
  · cases h.symm.trans hc
  · obtain ⟨named, token, undenied⟩ := answerExisting_ready (Except.ok.inj (h.symm.trans answer)).symm
    rw [same]
    exact ⟨row, hm, named, token, secret, undenied⟩
  · rcases full with full | full
    · cases h.symm.trans full
    · cases h.symm.trans full
  · have named := Except.ok.inj (h.symm.trans done)
    simp only [CreatePairingResult.ready.injEq] at named
    rw [after]
    refine ⟨row, (Table.mem_insert? _ _ _ _ inserted).mpr (Or.inr rfl), ?_, ?_, ?_, ?_⟩
    · rw [made, named.1]; rfl
    · rw [made]; rfl
    · rw [made]; rfl
    · rw [made]; simp [pendingPairing]

/-- A call whose result the body of a response tells has done what was asked. -/
theorem Mutation.Confirms.effect {tokenHash : String → String} {luck : Luck} {m : Mutation}
    {body : Body} {db : Db} {r : m.Result} (confirms : m.Confirms body r)
    (h : (m.perform tokenHash luck db).1 = .ok r) :
    m.Effect tokenHash body db (m.perform tokenHash luck db).2 := by
  cases m with
  | createInvite displayName actor =>
    obtain ⟨summary, activationCode, rfl, told⟩ := confirms
    rcases createInvite_cases _ _ _ _ _ _ _ _ _ _ _ _ Prod.mk.eta.symm with ⟨_, refused⟩ |
      ⟨row, invites, drawn, done, inserted, after⟩
    · exact absurd h (refused _ _)
    · cases h.symm.trans done
      refine ⟨row, ?_, luck.activationCode, told, ?_, ?_, ?_, ?_⟩
      · show row ∈ (Store.createInvite _ _ _ _ _ _ _ _ _ db).2.invites
        rw [after]
        exact (Table.mem_insert? _ _ _ _ inserted).mpr (Or.inr rfl)
      · rw [drawn]; rfl
      · rw [drawn]; rfl
      · rw [drawn]; rfl
      · intro v hv same
        exact ((db.invites.insert?_eq_some _ _).mp inserted).1 v hv (Or.inl same)
  | cancelInvite inviteId actor =>
    obtain ⟨rfl, told⟩ := confirms
    rcases cancelInvite_cases _ _ _ _ _ _ _ _ Prod.mk.eta.symm with ⟨_, refused, _⟩ |
      ⟨row, invites, hm, hid, pending, _, updated, after⟩
    · exact absurd h refused
    · refine ⟨told, ⟨row, hm, hid, pending⟩,
        { row with status := .cancelled, cancelledAt := some luck.now }, ?_, hid, rfl⟩
      show _ ∈ (Store.cancelInvite _ _ _ _ _ db).2.invites
      rw [after]
      exact (mem_cancelled _ _ _ _ row hm hid updated _).mpr (Or.inl rfl)
  | createPairing request =>
    obtain ⟨requestId, expiresAt, created, expiresIn, rfl, told⟩ := confirms
    obtain ⟨p, hp, same, held⟩ := createPairing_ready h
    exact ⟨p, hp, ⟨expiresIn, same ▸ told⟩, held⟩
  | activate requestId activationHash actor =>
    obtain ⟨instanceId, rfl, told⟩ := confirms
    refine ⟨instanceId, told, ?_⟩
    rcases activate_cases _ _ _ _ _ _ _ _ _ _ Prod.mk.eta.symm with ⟨same, bound⟩ |
      ⟨pairing, invite, done, activation⟩
    · show BoundBy (Store.activate _ _ _ _ _ _ _ db).2 _ _ _
      rw [same]
      exact bound instanceId h
    · cases h.symm.trans done
      exact boundBy_of_activation activation
  | updateRemark hostId remark actor =>
    obtain ⟨rfl, told⟩ := confirms
    rcases updateRemark_cases _ _ _ _ _ _ _ _ Prod.mk.eta.symm with ⟨_, refused⟩ |
      ⟨_, ⟨host, hm, hid⟩, after⟩
    · exact absurd h refused
    · refine ⟨told, { host with name := remark }, ?_, hid, rfl⟩
      show _ ∈ (Store.updateRemark _ _ _ _ _ db).2.hosts
      rw [after]
      exact (Table.mem_updated db.hosts.rows _ _ _).mpr (Or.inl ⟨host, hm, decide_eq_true hid, rfl⟩)
  | deleteHost hostId actor =>
    obtain ⟨rfl, told⟩ := confirms
    rcases deleteHost_cases _ _ _ _ _ _ _ Prod.mk.eta.symm with ⟨_, refused⟩ | ⟨_, known, after⟩
    · exact absurd h refused
    · refine ⟨told, known, ?_⟩
      intro host hm same
      have left : host ∈ (Store.deleteHost luck.faults hostId actor luck.now db).2.hosts := hm
      rw [after] at left
      have kept := ((Table.mem_delete _ _ _).mp left).2
      rw [same] at kept
      simp at kept

end HostMonitoring.Server
