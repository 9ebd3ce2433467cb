import HostMonitoring.Server.Moments
import HostMonitoring.Store.Provenance

namespace HostMonitoring.Server

open HostMonitoring.Framework
open HostMonitoring.Framework.World (Turn)
open HostMonitoring.Admission
open HostMonitoring.Model
open HostMonitoring.Protocol
open HostMonitoring.Store
open HostMonitoring.Telemetry (TelemetryWriterConfig)

/-- Who made a call of the store. -/
inductive Origin where
  | earlier
  | background
  | connection (c : Connection)

def Origin.of : Option Connection → Origin
  | none => .background
  | some c => .connection c

/-- Calls of the store with who made them, and the store they make. -/
abbrev Chronicle := List (Origin × Op)

def Chronicle.db (h : Chronicle) : Db := store.after (h.map Prod.snd)

section
variable {D : Type} (tokenHash : String → String) (before : List Op) (s : Recorded D)

/-- What the store went through: the calls of earlier runs, and those of this one. -/
def chronicle : Chronicle :=
  before.map (fun op => (.earlier, op)) ++ s.1.ops.map fun e => (.of e.1, e.2)

/-- One call of a chronicle: `P` holds of who made it, and of the states it met and left. -/
def Recalls (h : Chronicle) (P : Origin → Db → Db → Op → Prop) : Prop :=
  ∃ past who op later, h = past ++ (who, op) :: later ∧
    P who (Chronicle.db past) (Chronicle.db (past ++ [(who, op)])) op

/-- The call invited the instance, in an earlier run or for a signed-in administrator. -/
structure InvitedBy (instanceId : Uuid) (activationHash : String) (who : Origin) (db db' : Db)
    (op : Op) : Prop where
  invited : InviteMade instanceId activationHash db db' op
  who : who = .earlier ∨ ∃ c headers displayName principal, who = .connection c ∧
    (s.2 c).Got .receive (.console headers (.createInstance displayName)) ∧
    (s.2 c).Got (.authenticate headers (.createInstance displayName)) (.ok principal) ∧
    (s.2 c).Got (.checkAdmission (.inviteAccount principal)) (.ok ())

/-- The call entered the pairing request, in an earlier run or for a connection whose request was
valid and within the limits. -/
structure RequestedBy (requestId : Uuid) (token pollingSecret : String) (who : Origin) (db db' : Db)
    (op : Op) : Prop where
  requested : RequestMade requestId token pollingSecret db db' op
  who : who = .earlier ∨ ∃ c peer request, who = .connection c ∧
    (s.2 c).Got .receive (.createPairing peer request) ∧ request.tokenHash = token ∧
    request.pollingSecretHash = pollingSecret ∧ validatePairing request = .ok () ∧
    (s.2 c).Got (.checkAdmission (.create peer request.host.id)) (.ok ())

/-- The call activated the pairing request, in an earlier run or for a connection that had the code
and was within the limits: anybody, or a signed-in administrator. -/
structure PresentedBy (instanceId requestId : Uuid) (activationHash : String) (who : Origin)
    (db db' : Db) (op : Op) : Prop where
  activated : CodeAccepted instanceId requestId activationHash db db' op
  who : who = .earlier ∨ ∃ c peer request, who = .connection c ∧
    ((s.2 c).Got .receive (.activateCapability peer request) ∨ ∃ headers principal,
      (s.2 c).Got .receive (.console headers (.activateAdmin peer request)) ∧
      (s.2 c).Got (.authenticate headers (.activateAdmin peer request)) (.ok principal)) ∧
    Activates tokenHash (s.2 c) peer request requestId activationHash

/-- How a device came to report for an instance. -/
def Traced (instanceId requestId : Uuid) (token pollingSecret activationHash : String) : Prop :=
  ∃ past who activation later, chronicle before s = past ++ (who, activation) :: later ∧
    PresentedBy tokenHash s instanceId requestId activationHash who (Chronicle.db past)
      (Chronicle.db (past ++ [(who, activation)])) activation ∧
    Recalls past (InvitedBy s instanceId activationHash) ∧
    Recalls past (RequestedBy s requestId token pollingSecret)

end

section
variable {D : Type} {tokenHash : String → String} {before : List Op} {s : Recorded D}
  {config : TelemetryWriterConfig}

/-- The telemetry writer and the retention service let nobody in. -/
theorem Background.lets_nobody_in {op : Op} (h : Background s op) :
    (∀ instanceId activationHash, ¬op.Invites instanceId activationHash) ∧
    (∀ requestId token pollingSecret, ¬op.Requests requestId token pollingSecret) ∧
    ∀ requestId activationHash, ¬op.Presents requestId activationHash := by
  rcases h with retention | ⟨boundary, items, rfl, _⟩
  · cases op with
    | aggregateRawBatch f cutoff now batchSize => exact ⟨fun _ _ => id, fun _ _ _ => id, fun _ _ => id⟩
    | deleteAggregatedRawBatch f batchSize => exact ⟨fun _ _ => id, fun _ _ _ => id, fun _ _ => id⟩
    | deleteExpiredAggregateBatch f cutoff batchSize =>
      exact ⟨fun _ _ => id, fun _ _ _ => id, fun _ _ => id⟩
    | _ => cases retention
  · exact ⟨fun _ _ => id, fun _ _ _ => id, fun _ _ => id⟩

/-- A call of the store was made in an earlier run, in the background, or by a connection that its
request let. -/
theorem Sound.made_by (sound : Sound tokenHash config before s) {who : Origin} {op : Op}
    (hop : (who, op) ∈ chronicle before s) :
    who = .earlier ∨ Background s op ∨ ∃ c request m luck, who = .connection c ∧
      (s.2 c).Got .receive request ∧ op = m.op tokenHash luck ∧
      request.Permits tokenHash (s.2 c) m := by
  rcases List.mem_append.mp hop with earlier | now
  · obtain ⟨_, _, same⟩ := List.mem_map.mp earlier
    exact Or.inl (Prod.mk.inj same).1.symm
  · right
    obtain ⟨⟨maker, op'⟩, hw, same⟩ := List.mem_map.mp now
    obtain ⟨rfl, rfl⟩ := Prod.mk.inj same
    cases maker with
    | none => exact Or.inl (sound.reports.background op' hw)
    | some c =>
      obtain ⟨request, m, luck, received, made, permits⟩ := (sound.admitted hw).permitted c rfl
      exact Or.inr ⟨c, request, m, luck, rfl, received, made, permits⟩

theorem Sound.invited_by (sound : Sound tokenHash config before s) {who : Origin} {op : Op}
    {instanceId : Uuid} {activationHash : String} {db db' : Db}
    (hop : (who, op) ∈ chronicle before s) (invited : InviteMade instanceId activationHash db db' op) :
    InvitedBy s instanceId activationHash who db db' op := by
  refine ⟨invited, ?_⟩
  have invites := invited.invites
  rcases sound.made_by hop with
    earlier | background | ⟨c, request, m, luck, own, received, rfl, permits⟩
  · exact Or.inl earlier
  · exact absurd invites (background.lets_nobody_in.1 _ _)
  · right
    cases m with
    | createInvite displayName actor =>
      cases request with
      | console headers request =>
        obtain ⟨principal, signedIn, permits⟩ := permits
        cases request with
        | createInstance requested =>
          exact ⟨c, headers, requested, principal, own, received, signedIn, permits.2.2⟩
        | _ => exact permits.elim
      | _ => exact permits.elim
    | _ => exact invites.elim

theorem Sound.requested_by (sound : Sound tokenHash config before s) {who : Origin} {op : Op}
    {requestId : Uuid} {token pollingSecret : String} {db db' : Db}
    (hop : (who, op) ∈ chronicle before s)
    (requested : RequestMade requestId token pollingSecret db db' op) :
    RequestedBy s requestId token pollingSecret who db db' op := by
  refine ⟨requested, ?_⟩
  have requests := requested.requests
  rcases sound.made_by hop with
    earlier | background | ⟨c, request, m, luck, own, received, rfl, permits⟩
  · exact Or.inl earlier
  · exact absurd requests (background.lets_nobody_in.2.1 _ _ _)
  · right
    cases m with
    | createPairing asked =>
      cases request with
      | createPairing peer request =>
        obtain ⟨rfl, valid, admitted⟩ := permits
        exact ⟨c, peer, asked, own, received, requests.2.1, requests.2.2, valid, admitted⟩
      | console headers request =>
        obtain ⟨principal, _, permits⟩ := permits
        cases request <;> exact permits.elim
      | _ => exact permits.elim
    | _ => exact requests.elim

theorem Sound.presented_by (sound : Sound tokenHash config before s) {who : Origin} {op : Op}
    {instanceId requestId : Uuid} {activationHash : String} {db db' : Db}
    (hop : (who, op) ∈ chronicle before s)
    (activated : CodeAccepted instanceId requestId activationHash db db' op) :
    PresentedBy tokenHash s instanceId requestId activationHash who db db' op := by
  refine ⟨activated, ?_⟩
  have presents := activated.presents
  rcases sound.made_by hop with
    earlier | background | ⟨c, request, m, luck, own, received, rfl, permits⟩
  · exact Or.inl earlier
  · exact absurd presents (background.lets_nobody_in.2.2 _ _)
  · right
    cases m with
    | activate asked presented actor =>
      obtain ⟨rfl, rfl⟩ := presents
      cases request with
      | activateCapability peer request =>
        exact ⟨c, peer, request, own, Or.inl received, permits.2⟩
      | console headers request =>
        obtain ⟨principal, signedIn, permits⟩ := permits
        cases request with
        | activateAdmin peer request =>
          exact ⟨c, peer, request, own, Or.inr ⟨headers, principal, received, signedIn⟩, permits.2.2⟩
        | _ => exact permits.elim
      | _ => exact permits.elim
    | _ => exact presents.elim

/-- The place of a call in a chronicle is that of the call among the store's. -/
theorem map_split {α β : Type} {f : α → β} {l : List α} {past later : List β} {b : β}
    (h : l.map f = past ++ b :: later) : ∃ past' a later', l = past' ++ a :: later' ∧
      past'.map f = past ∧ f a = b := by
  obtain ⟨past', rest, rfl, hp, hr⟩ := List.map_eq_append_iff.mp h
  obtain ⟨a, later', rfl, ha, _⟩ := List.map_eq_cons_iff.mp hr
  exact ⟨past', a, later', rfl, hp, ha⟩

theorem recalls_of_happens {h past : Chronicle} {P : Db → Db → Op → Prop}
    {Q : Origin → Db → Db → Op → Prop} (inside : ∀ e ∈ past, e ∈ h)
    (made : ∀ who op, (who, op) ∈ h → ∀ db db', P db db' op → Q who db db' op)
    (happens : Happens (past.map Prod.snd) P) : Recalls past Q := by
  obtain ⟨pre, op, post, split, held⟩ := happens
  obtain ⟨pre', ⟨who, op'⟩, post', hpast, hpre, rfl⟩ := map_split split
  refine ⟨pre', who, op', post', hpast, made who op' (inside _ (by simp [hpast])) _ _ ?_⟩
  have states : Chronicle.db (pre' ++ [(who, op')]) = store.after (pre ++ [op']) := by
    simp [Chronicle.db, hpre]
  rw [states, Chronicle.db, hpre]
  exact held

/-- What the store went through, with who did it. -/
theorem Sound.traced (sound : Sound tokenHash config before s)
    {past later : List (Option Connection × Op)} (split : s.1.ops = past ++ later)
    {instanceId requestId : Uuid} {token pollingSecret activationHash : String}
    (enrolls : Enrolls (before ++ past.map Prod.snd) instanceId requestId token pollingSecret
      activationHash) :
    Traced tokenHash before s instanceId requestId token pollingSecret activationHash := by
  have calls : (chronicle before s).map Prod.snd = before ++ s.1.ops.map Prod.snd := by
    simp [chronicle, Function.comp_def]
  have onward : before ++ past.map Prod.snd <+: before ++ s.1.ops.map Prod.snd := by
    rw [split, List.map_append, ← List.append_assoc]
    exact List.prefix_append _ _
  obtain ⟨first, activation, rest, order, activated, invited, requested⟩ :=
    (enrolls.mono onward).order
  obtain ⟨first', ⟨who, op⟩, rest', place, hfirst, rfl⟩ := map_split (calls.trans order)
  have inside : ∀ e ∈ first', e ∈ chronicle before s := by
    intro e he
    rw [place]
    exact List.mem_append_left _ he
  subst hfirst
  refine ⟨first', who, op, rest', place, ?_, ?_, ?_⟩
  · apply sound.presented_by (by simp [place])
    have states : Chronicle.db (first' ++ [(who, op)]) = store.after (first'.map Prod.snd ++ [op]) := by
      simp [Chronicle.db]
    rw [states]
    exact activated
  · exact recalls_of_happens inside (fun _ _ hop _ _ held => sound.invited_by hop held) invited
  · exact recalls_of_happens inside (fun _ _ hop _ _ held => sound.requested_by hop held) requested

end

section
variable {D : Type} [DecidableEq D] {config : TelemetryWriterConfig} {digests : Digests D}
  {before : List Op} {clock : Instant} {P : Pool Connection Call Answer (Recorded D)}

/-- Reports are taken only from devices that asked to be paired and had the code of an invite
presented for them. -/
theorem report_traced (h : Reachable config digests before clock P) (c : Connection) (r : Response)
    (responded : (P.shared.2 c).Got (.respond r) ()) (is202 : r.status = 202) :
    ∃ headers report credential instanceId requestId pollingSecret activationHash,
      (P.shared.2 c).Got .receive (.report headers report) ∧
      authorization headers "bearer" = some credential ∧ instanceId.toText = report.host.id ∧
      Traced digests.tokenHash before P.shared instanceId requestId (digests.tokenHash credential)
        pollingSecret activationHash := by
  have sound := h.sound
  obtain ⟨past, keeps, request, _, answered⟩ := owed (sound.allowed c) responded
  obtain ⟨_, write, i, result, _, submitted, _, _⟩ := answered.accepted is202
  have submits := submitted_validly (sound.allowed c) (keeps _ _ submitted)
  obtain ⟨headers, credential, received, bearer, hashed⟩ := submits.credential
  obtain ⟨instanceId, found, same⟩ := submits.host
  obtain ⟨first, later, _, split, reads⟩ := sound.journal.read c _ _ found
  rw [hashed] at reads
  obtain ⟨requestId, pollingSecret, activationHash, enrolls⟩ := token_enrolls _ _ _ reads.symm
  exact ⟨headers, write.report, credential, instanceId, requestId, pollingSecret, activationHash,
    received, bearer, same, sound.traced split enrolls⟩

/-- A device is told that it is active only where that is so: who polls knows the secret it asked
with, and the instance it is given is the one whose code was presented for it. -/
theorem poll_traced (h : Reachable config digests before clock P) (c : Connection) (r : Response)
    (responded : (P.shared.2 c).Got (.respond r) ()) (peer : IpAddr) (headers : HeaderMap)
    (id : String) (received : (P.shared.2 c).Got .receive (.pairingStatus peer headers id))
    (success : r.status < 300) (text : Option String) (told : r.body = .pairingStatus .active text) :
    ∃ secret instanceId requestId token activationHash,
      authorization headers "pairing" = some secret ∧ requestId.toText = id ∧
      text = some instanceId.toText ∧
      Traced digests.tokenHash before P.shared instanceId requestId token
        (digests.tokenHash secret) activationHash := by
  have sound := h.sound
  obtain ⟨past, keeps, answered⟩ := response_answers (sound.allowed c) received responded
  obtain ⟨requestId, secret, status, instanceText, named, presented, found, body⟩ :=
    answered.told success rfl
  rw [told] at body
  cases body
  obtain ⟨first, later, now, split, reads⟩ := sound.journal.read c _ _ (keeps _ _ found)
  obtain ⟨instanceId, token, activationHash, given, enrolls⟩ :=
    poll_enrolls _ _ _ _ _ (Eq.symm reads)
  exact ⟨secret, instanceId, requestId, token, activationHash, presented, named, given,
    sound.traced split enrolls⟩

end

/-- An administrator invites a laptop, the laptop asks to be paired, its owner presents the code, and
the laptop polls and reports. -/
def enrolTurns : List (Turn Connection Meeting Telemetry.Move) :=
  let luck : Luck := ⟨.none, (⟨1⟩, ⟨2⟩), "code", noon, noon⟩
  let token := String.ofList (List.replicate 64 'a')
  let secret := String.ofList (List.replicate 64 'b')
  let device : HostIdentity :=
    ⟨"00000000-0000-0000-0000-000000000009", "linux", none, none, "x86_64", "0.9.14"⟩
  let meets (request : Request) : Meeting := { request, time := noon, instant := 0, luck }
  let invites := meets (.console [] (.createInstance (some "laptop")))
  let asks := meets (.createPairing (.v4 0) ⟨device, token, secret⟩)
  let presents := meets (.activateCapability (.v4 0) ⟨"00000000-0000-0000-0000-000000000001", "code"⟩)
  let polls := meets (.pairingStatus (.v4 0) [("authorization", ("Pairing " ++ secret).toUTF8.toList)]
    "00000000-0000-0000-0000-000000000001")
  let reports := meets (.report [("authorization", ("Bearer " ++ token).toUTF8.toList)]
    (datedReport noon))
  .spawn 0 :: List.replicate 5 (.go 0 invites) ++ .spawn 1 :: List.replicate 5 (.go 1 asks) ++
  .spawn 2 :: List.replicate 4 (.go 2 presents) ++ .spawn 3 :: List.replicate 4 (.go 3 polls) ++
  .spawn 4 :: List.replicate 5 (.go 4 reports) ++
  [.outside (.caller 0 .reserve), .outside (.caller 0 .send), .outside (.writer .proceed),
    .outside (.writer .receive), .outside (.writer .proceed), .outside (.writer .flush),
    .outside (.writer (.transact (.quiet _) (fun _ => noon) fun _ => .none)),
    .outside (.writer .proceed), .outside (.caller 0 .respond), .go 4 reports, .go 4 reports]

/-- What each connection asks for when a laptop is paired and reports. -/
def enrolAsks : Connection → Request → Bool
  | 1, .createPairing .. => true
  | 2, .activateCapability .. => true
  | 3, .pairingStatus .. => true
  | 4, .report .. => true
  | _, _ => false

def Body.tellsActive : Body → Bool
  | .pairingStatus .active _ => true
  | _ => false

/-- Every connection is answered: the poll that the laptop is active, the report with 202. -/
theorem enrol_played : ∃ P, Reachable .production (⟨id, id⟩ : Digests String) [] 0 P ∧
    (∀ c ∈ [1, 2, 3, 4], ∃ request r, enrolAsks c request = true ∧
      (P.shared.2 c).Got .receive request ∧ (P.shared.2 c).Got (.respond r) () ∧ r.status < 300) ∧
    (∃ r, (P.shared.2 4).Got (.respond r) () ∧ r.status = 202) ∧
    ∃ r peer headers id text, (P.shared.2 3).Got (.respond r) () ∧
      (P.shared.2 3).Got .receive (.pairingStatus peer headers id) ∧ r.status < 300 ∧
      r.body = .pairingStatus .active text := by
  have ends : (played .production (⟨id, id⟩ : Digests String) [] 0 enrolTurns).any (fun P =>
      ([1, 2, 3, 4].all fun c => (P.shared.2 c).request.any (enrolAsks c) &&
        (P.shared.2 c).response.any fun r => decide (r.status < 300)) &&
      ((P.shared.2 4).response.any (fun r => decide (r.status = 202)) &&
        ((P.shared.2 3).response.any (fun r => decide (r.status < 300) && r.body.tellsActive) &&
        (P.shared.2 3).request.any (enrolAsks 3)))) = true := by
    decide +kernel
  obtain ⟨P, played, told⟩ := (Option.any_eq_true _ _).mp ends
  simp only [Bool.and_eq_true, List.all_eq_true, Option.any_eq_true, decide_eq_true_eq] at told
  obtain ⟨answered, ⟨r, responded, status⟩, ⟨r', responded', success, active⟩, request, received,
    polls⟩ := told
  refine ⟨P, reachable_played played, ?_, ⟨r, Past.got_response responded, status⟩, r', ?_⟩
  · intro c hc
    obtain ⟨⟨asked, got, asks⟩, r, responded, success⟩ := answered c hc
    exact ⟨asked, r, asks, Past.got_request got, Past.got_response responded, success⟩
  · cases request with
    | pairingStatus peer headers id =>
      cases body : r'.body with
      | pairingStatus status text =>
        rw [body] at active
        cases status with
        | active =>
          exact ⟨peer, headers, id, text, Past.got_response responded', Past.got_request received,
            success, rfl⟩
        | _ => cases active
      | _ =>
        rw [body] at active
        cases active
    | _ => cases polls

theorem enrol_reported : ∃ P, Reachable .production (⟨id, id⟩ : Digests String) [] 0 P ∧
    ∃ headers report credential instanceId requestId pollingSecret activationHash,
      (P.shared.2 4).Got .receive (.report headers report) ∧
      authorization headers "bearer" = some credential ∧ instanceId.toText = report.host.id ∧
      Traced id [] P.shared instanceId requestId credential pollingSecret activationHash := by
  obtain ⟨P, reachable, _, ⟨r, responded, status⟩, _⟩ := enrol_played
  exact ⟨P, reachable, report_traced reachable 4 r responded status⟩

theorem enrol_polled : ∃ P, Reachable .production (⟨id, id⟩ : Digests String) [] 0 P ∧
    ∃ headers id secret instanceId requestId token activationHash,
      authorization headers "pairing" = some secret ∧ requestId.toText = id ∧
      Traced (fun code => code) [] P.shared instanceId requestId token secret activationHash := by
  obtain ⟨P, reachable, _, _, r, peer, headers, id, text, responded, received, success, told⟩ :=
    enrol_played
  obtain ⟨secret, instanceId, requestId, token, activationHash, presented, named, _, traced⟩ :=
    poll_traced reachable 3 r responded peer headers id received success text told
  exact ⟨P, reachable, headers, id, secret, instanceId, requestId, token, activationHash, presented,
    named, traced⟩

end HostMonitoring.Server
