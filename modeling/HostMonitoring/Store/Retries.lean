import HostMonitoring.Model.ValidReports
import HostMonitoring.Store.OneTime

namespace HostMonitoring.Store

open HostMonitoring.Framework
open HostMonitoring.Framework.Tx
open HostMonitoring.Protocol
open HostMonitoring.Model

/-- The requests agree in what a pairing row keeps of them besides the secret. -/
structure SamePairing (request request' : ClientPairingRequest) : Prop where
  host_id : request.host.id = request'.host.id
  os : trim request.host.os = trim request'.host.os
  os_version : request.host.osVersion = request'.host.osVersion
  kernel_version : request.host.kernelVersion = request'.host.kernelVersion
  arch : trim request.host.arch = trim request'.host.arch
  client_version : trim request.host.clientVersion = trim request'.host.clientVersion
  token_hash : request.tokenHash = request'.tokenHash

/-- The row agrees with a request in the seven columns that a retry is compared by. -/
structure Records (row : PairingRequest) (request : ClientPairingRequest) : Prop where
  host_id : row.requestedHostId.toText = request.host.id
  os : row.os = trim request.host.os
  os_version : row.osVersion = request.host.osVersion
  kernel_version : row.kernelVersion = request.host.kernelVersion
  arch : row.arch = trim request.host.arch
  client_version : row.clientVersion = trim request.host.clientVersion
  token_hash : row.tokenHash = request.tokenHash

theorem sameRequest_iff (row : PairingRequest) (request : ClientPairingRequest) :
    row.sameRequest request = true ↔ Records row request := by
  simp only [PairingRequest.sameRequest, Bool.and_eq_true, decide_eq_true_eq]
  constructor
  · intro h
    exact ⟨h.1.1.1.1.1.1, h.1.1.1.1.1.2, h.1.1.1.1.2, h.1.1.1.2, h.1.1.2, h.1.2, h.2⟩
  · intro h
    exact ⟨⟨⟨⟨⟨⟨h.host_id, h.os⟩, h.os_version⟩, h.kernel_version⟩, h.arch⟩, h.client_version⟩,
      h.token_hash⟩

/-- A row that records one request records exactly those that agree with it. -/
theorem Records.iff_same {row : PairingRequest} {request : ClientPairingRequest}
    (h : Records row request) (request' : ClientPairingRequest) :
    Records row request' ↔ SamePairing request request' := by
  constructor
  · intro h'
    exact ⟨h.host_id.symm.trans h'.host_id, h.os.symm.trans h'.os,
      h.os_version.symm.trans h'.os_version, h.kernel_version.symm.trans h'.kernel_version,
      h.arch.symm.trans h'.arch, h.client_version.symm.trans h'.client_version,
      h.token_hash.symm.trans h'.token_hash⟩
  · intro same
    exact ⟨h.host_id.trans same.host_id, h.os.trans same.os, h.os_version.trans same.os_version,
      h.kernel_version.trans same.kernel_version, h.arch.trans same.arch,
      h.client_version.trans same.client_version, h.token_hash.trans same.token_hash⟩

/-- What is stored of a validated request records it: both sides trim the same texts,
and the text of a canonical identifier is the identifier's own. -/
theorem records_pending (request : ClientPairingRequest) (valid : validatePairing request = .ok ())
    (requestId requestedHostId : Uuid) (createdAt : DateTime)
    (parsed : Uuid.parseStr request.host.id = some requestedHostId) :
    Records (pendingPairing request requestId requestedHostId createdAt) request := by
  obtain ⟨id, canonical⟩ := ((validatePairing_ok _ _).mp valid).host.id
  refine ⟨?_, rfl, rfl, rfl, rfl, rfl, rfl⟩
  rw [← canonical, Uuid.parseStr_toText] at parsed
  rw [← canonical, Option.some.inj parsed]
  rfl

/-- The call leaves the store as it was and gives this answer, or a fault's error. -/
def Replies (f : Faults) (answer : CreatePairingResult) (db : Db)
    (out : Except StoreError CreatePairingResult × Db) : Prop :=
  out.2 = db ∧ (out.1 = .ok answer ∨ f ≠ .none ∧ ∃ e, out.1 = .error e)

/-- A known secret is answered from its row before any cleanup, count or insert. -/
theorem createPairing_known (f : Faults) (request : ClientPairingRequest) (requestId : Uuid)
    (now createdAt : DateTime) (db : Db) (row : PairingRequest) (hr : row ∈ db.pairings)
    (secret : row.pollingSecretHash = request.pollingSecretHash) :
    Replies f (answerExisting row request now) db
      (createPairing f request requestId now createdAt db) := by
  have found : db.pairings.find?
      (fun r => decide (r.pollingSecretHash = request.pollingSecretHash)) = some row := by
    refine Table.find?_eq_some _ _ _ hr (decide_eq_true secret) fun r hm hp => ?_
    have same := (of_decide_eq_true hp).trans secret.symm
    exact db.pairings.eq_of_clash r row hm hr (Or.inr (Or.inr (Or.inl same)))
  have faulty (e : StoreError) (h : f.boundary.begins = some e ∨ f.statement 0 = some e ∨
      f.boundary.rollsBack = some e) : f ≠ .none := by
    intro quiet
    rw [quiet] at h
    simp [Faults.none, Boundary.quiet] at h
  unfold createPairing transact
  cases hb : f.boundary.begins with
  | some e => exact ⟨rfl, Or.inr ⟨faulty e (Or.inl hb), e, rfl⟩⟩
  | none =>
    cases hs : f.statement 0 with
    | some e => exact ⟨rfl, Or.inr ⟨faulty e (Or.inr (Or.inl hs)), e, rfl⟩⟩
    | none =>
      simp only [run_bind, query, found]
      cases hr : f.boundary.rollsBack with
      | some e => exact ⟨rfl, Or.inr ⟨faulty e (Or.inr (Or.inr hr)), e, rfl⟩⟩
      | none => exact ⟨rfl, Or.inl rfl⟩

theorem answerExisting_ready (row : PairingRequest) (request : ClientPairingRequest)
    (now : DateTime) (p : Uuid) (e : DateTime) (created : Bool)
    (h : answerExisting row request now = .ready p e created) :
    Records row request ∧ row.status ≠ .denied ∧ row.requestId = p ∧ row.expiresAt = e := by
  unfold answerExisting at h
  split_ifs at h with refused expired
  rw [not_or, Bool.not_eq_false, sameRequest_iff] at refused
  cases h
  exact ⟨refused.1, refused.2, rfl, rfl⟩

/-- The rows under the identifier are what the request was answered from. -/
def Remembers (request : ClientPairingRequest) (p : Uuid) (e : DateTime) (db : Db) : Prop :=
  ∀ row ∈ db.pairings, row.requestId = p → Records row request ∧
    row.pollingSecretHash = request.pollingSecretHash ∧ row.status ≠ .denied ∧ row.expiresAt = e

/-- The answer of a first call, or of one that found an earlier call's row. -/
theorem remembers_of_ready (f : Faults) (request : ClientPairingRequest)
    (valid : validatePairing request = .ok ()) (requestId : Uuid) (now createdAt : DateTime)
    (db : Db) (p : Uuid) (e : DateTime) (created : Bool)
    (h : (createPairing f request requestId now createdAt db).1 = .ok (.ready p e created)) :
    Remembers request p e (createPairing f request requestId now createdAt db).2 := by
  rcases hc : createPairing f request requestId now createdAt db with ⟨r, db'⟩
  rw [hc] at h
  obtain ⟨rfl, hr⟩ | ⟨_, cleaned, _, ⟨hr, _⟩ | written⟩ :=
    createPairing_cases f request requestId now createdAt db db' r hc
  · obtain ⟨_, rfl⟩ | rfl | ⟨row, hm, secret, rfl⟩ := hr
    · cases h
    · cases h
    · obtain ⟨records, undenied, rfl, expires⟩ :=
        answerExisting_ready row request now p e created (Except.ok.inj h)
      intro row' hm' same
      rw [db'.pairings.eq_of_clash row' row hm' hm (Or.inl same)]
      exact ⟨records, secret, undenied, expires⟩
  · obtain rfl | rfl := hr
    · cases h
    · cases h
  · obtain ⟨requestedHostId, row, pairings, parsed, rfl, _, _, inserted, rfl, rfl⟩ := written
    cases h
    have new : pendingPairing request requestId requestedHostId createdAt ∈ pairings :=
      (Table.mem_insert? _ _ _ _ inserted).mpr (Or.inr rfl)
    intro row' hm' same
    rw [pairings.eq_of_clash row' _ hm' new (Or.inl same)]
    exact ⟨records_pending request valid _ _ _ parsed, rfl, by simp [pendingPairing], rfl⟩

/-- A pairing row keeps what it records, its secret and its deadline; it is there,
not denied by the call, or the call drew its identifier. -/
theorem Change.pairing_kept {db db' : Db} {op : Op} (h : Change db op db') (p : PairingRequest)
    (hp : p ∈ db'.pairings) (old : p.requestId ∉ op.uuids) :
    ∃ p₀ ∈ db.pairings, p₀.requestId = p.requestId ∧
      p₀.pollingSecretHash = p.pollingSecretHash ∧ p₀.expiresAt = p.expiresAt ∧
      (p₀.status ≠ .denied → p.status ≠ .denied) ∧
      ∀ request, Records p₀ request → Records p request := by
  have same (hp : p ∈ db.pairings) : ∃ p₀ ∈ db.pairings, p₀.requestId = p.requestId ∧
      p₀.pollingSecretHash = p.pollingSecretHash ∧ p₀.expiresAt = p.expiresAt ∧
      (p₀.status ≠ .denied → p.status ≠ .denied) ∧
      ∀ request, Records p₀ request → Records p request :=
    ⟨p, hp, rfl, rfl, rfl, id, fun _ => id⟩
  cases h with
  | columns h => exact same (h.pairings ▸ hp)
  | invited h => exact same hp
  | cancelled mem id pending h => exact same hp
  | cleaned => exact same ((mem_cleanup _ _ _ _).1 hp)
  | requested h =>
    obtain hp | rfl := (Table.mem_insert? _ _ _ _ h).mp hp
    · exact same ((mem_cleanup _ _ _ _).1 hp)
    · exact absurd (by simp [Op.uuids, pendingPairing]) old
  | activated h =>
    obtain rfl | ⟨hp, _⟩ := (h.mem_pairings p).mp hp
    · refine ⟨_, h.pairing_mem, rfl, rfl, rfl, fun _ => by simp [bindPairing], fun request r => ?_⟩
      exact ⟨r.host_id, r.os, r.os_version, r.kernel_version, r.arch, r.client_version, r.token_hash⟩
    · exact same hp
  | deleted h => exact same ((Table.mem_delete _ _ _).mp hp).1

theorem remembers_later (request : ClientPairingRequest) (p : Uuid) (e : DateTime)
    (past later : List Op) (fresh : Fresh (past ++ later)) (known : p ∈ drawn past)
    (h : Remembers request p e (store.after past)) :
    Remembers request p e (store.after (past ++ later)) := by
  refine lasting_fresh (Remembers request p e) past later fresh h ?_
  intro mid op db' _ _ _ uuids _ change remembers row hr hid
  obtain ⟨row₀, hr₀, id, secret, expires, undenied, records⟩ :=
    change.pairing_kept row hr (hid ▸ uuids p known)
  obtain ⟨recorded, hs, hd, he⟩ := remembers row₀ hr₀ (id.trans hid)
  exact ⟨records request recorded, secret.symm.trans hs, undenied hd, expires.symm.trans he⟩

/-- The identifier a request was answered with has been drawn. -/
theorem drawn_of_ready (past : List Op) (f : Faults) (request : ClientPairingRequest)
    (requestId : Uuid) (now createdAt : DateTime) (p : Uuid) (e : DateTime) (created : Bool)
    (fresh : Fresh past)
    (h : (createPairing f request requestId now createdAt (store.after past)).1 =
      .ok (.ready p e created)) :
    p ∈ drawn (past ++ [.createPairing f request requestId now createdAt]) := by
  rw [drawn_concat, List.mem_append]
  rcases hc : createPairing f request requestId now createdAt (store.after past) with ⟨r, db'⟩
  rw [hc] at h
  obtain ⟨rfl, hr⟩ | ⟨_, cleaned, _, ⟨hr, _⟩ | written⟩ :=
    createPairing_cases f request requestId now createdAt _ db' r hc
  · obtain ⟨_, rfl⟩ | rfl | ⟨row, hm, _, rfl⟩ := hr
    · cases h
    · cases h
    · obtain ⟨_, _, rfl, _⟩ :=
        answerExisting_ready row request now p e created (Except.ok.inj h)
      exact Or.inl ((bound_after past fresh).pairing_drawn row hm)
  · obtain rfl | rfl := hr
    · cases h
    · cases h
  · obtain ⟨_, _, _, _, rfl, _, _, _, rfl, _⟩ := written
    cases h
    exact Or.inr (by simp [Op.uuids])

/-- Once a request was answered with a row, as long as the row is there its secret
is answered from it: the same request until the deadline with the same answer,
any other request with a conflict. -/
theorem pairing_retry (past later : List Op) (f : Faults) (request : ClientPairingRequest)
    (requestId : Uuid) (now createdAt : DateTime) (p : Uuid) (e : DateTime) (created : Bool)
    (fresh : Fresh (past ++ .createPairing f request requestId now createdAt :: later))
    (valid : validatePairing request = .ok ())
    (answered : (createPairing f request requestId now createdAt (store.after past)).1 =
      .ok (.ready p e created)) (db : Db)
    (reached : db = store.after
      (past ++ .createPairing f request requestId now createdAt :: later))
    (there : ∃ row ∈ db.pairings, row.requestId = p) (f' : Faults)
    (request' : ClientPairingRequest)
    (secret : request'.pollingSecretHash = request.pollingSecretHash) (requestId' : Uuid)
    (now' createdAt' : DateTime) :
    (SamePairing request request' → now' < e →
      Replies f' (.ready p e false) db (createPairing f' request' requestId' now' createdAt' db)) ∧
    (¬SamePairing request request' →
      Replies f' .conflict db (createPairing f' request' requestId' now' createdAt' db)) := by
  have split : past ++ Op.createPairing f request requestId now createdAt :: later =
      past ++ [.createPairing f request requestId now createdAt] ++ later := by simp
  rw [split] at fresh reached
  have before := (fresh_append _ _ fresh).1
  have known := drawn_of_ready past f request requestId now createdAt p e created
    (fresh_closed _ _ before) answered
  have first : Remembers request p e
      (store.after (past ++ [.createPairing f request requestId now createdAt])) := by
    rw [store.after_concat]
    exact remembers_of_ready f request valid requestId now createdAt _ p e created answered
  have remembers : Remembers request p e db :=
    reached ▸ remembers_later request p e _ later fresh known first
  obtain ⟨row, hr, hid⟩ := there
  obtain ⟨records, hs, undenied, expires⟩ := remembers row hr hid
  have replies := createPairing_known f' request' requestId' now' createdAt' db row hr
    (hs.trans secret.symm)
  unfold answerExisting at replies
  constructor
  · intro same early
    have matches' := (sameRequest_iff row request').mpr ((records.iff_same request').mpr same)
    rw [if_neg (by simp [matches', undenied]), expires, if_neg (not_le.mpr early), hid] at replies
    exact replies
  · intro other
    have differs : row.sameRequest request' = false := by
      rw [← Bool.not_eq_true, sameRequest_iff, records.iff_same]
      exact other
    rwa [if_pos (Or.inl differs)] at replies

/-- A tablet whose system pads its name. -/
def tablet : ClientPairingRequest where
  host := ⟨"00000000-0000-4000-8000-000000000009", " linux ", none, none, "x86_64", "0.9.10"⟩
  tokenHash := String.ofList (List.replicate 64 'a')
  pollingSecretHash := String.ofList (List.replicate 64 'b')

def tabletInvited : List Op :=
  [.createInvite .none "tablet" "admin" ⟨1⟩ ⟨2⟩ "code" "code hash" noon noon]

def tabletActivation : Op := .activate .none ⟨3⟩ "code hash" "admin" ⟨4⟩ noon noon

/-- The tablet's pairing has become active, and a minute later it asks again. -/
theorem pairing_retry_tablet :
    Replies .none (.ready ⟨3⟩ (noon.plusSeconds 900) false)
      (store.after (tabletInvited ++
        [.createPairing .none tablet ⟨3⟩ noon noon, tabletActivation]))
      (createPairing .none tablet ⟨5⟩ (noon.plusSeconds 60) (noon.plusSeconds 60)
        (store.after (tabletInvited ++
          [.createPairing .none tablet ⟨3⟩ noon noon, tabletActivation]))) := by
  have valid : validatePairing tablet = .ok () := by decide +kernel
  have answered : (createPairing .none tablet ⟨3⟩ noon noon (store.after tabletInvited)).1 =
      .ok (.ready ⟨3⟩ (noon.plusSeconds 900) true) := by decide +kernel
  have fresh : Fresh (tabletInvited ++
      [.createPairing .none tablet ⟨3⟩ noon noon, tabletActivation]) := by
    simp [Fresh, drawn, codes, tabletInvited, tabletActivation, Op.uuids, Op.codes]
  have there : ∃ row ∈ (store.after (tabletInvited ++
      [.createPairing .none tablet ⟨3⟩ noon noon, tabletActivation])).pairings.rows,
        row.requestId = ⟨3⟩ := by decide +kernel
  exact (pairing_retry tabletInvited [tabletActivation] .none tablet ⟨3⟩ noon noon ⟨3⟩
    (noon.plusSeconds 900) true fresh valid answered _ rfl there .none tablet rfl ⟨5⟩
    (noon.plusSeconds 60) (noon.plusSeconds 60)).1 ⟨rfl, rfl, rfl, rfl, rfl, rfl, rfl⟩
    (by decide +kernel)

end HostMonitoring.Store
