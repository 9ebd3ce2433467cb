import HostMonitoring.Store.OneTime

namespace HostMonitoring.Store

open HostMonitoring.Framework
open HostMonitoring.Protocol

/-- What one activation works with. -/
structure ActivateCall where
  requestId : Uuid
  activationHash : String
  actor : String
  credentialId : Uuid

/-- A moment of a run. An activation has two: it reads its clock when it is about
to write, and later it commits; one that fails or is dropped never commits. -/
inductive Moment where
  | poll (requestId : Uuid) (secretHash : String) (now : DateTime)
  | reads (call : ActivateCall) (now : DateTime)
  | commits (call : ActivateCall) (now auditedAt : DateTime)
  | calls (op : Op)

def Moment.ops : Moment → List Op
  | .poll _ _ _ => []
  | .reads _ _ => []
  | .commits call now auditedAt =>
    [.activate .none call.requestId call.activationHash call.actor call.credentialId now auditedAt]
  | .calls op => [op]

def Moment.clock : Moment → List DateTime
  | .poll _ _ now => [now]
  | .reads _ now => [now]
  | _ => []

def opsOf (moments : List Moment) : List Op := moments.flatMap Moment.ops

/-- The store after some moments. -/
def dbAfter (moments : List Moment) : Db := store.after (opsOf moments)

def Op.Activates : Op → Prop
  | .activate _ _ _ _ _ _ _ => True
  | _ => False

/-- A run with a clock that never goes back, in which an activation that commits
has read its clock before. -/
structure Schedule (moments : List Moment) : Prop where
  fresh : Fresh (opsOf moments)
  clock : (moments.flatMap Moment.clock).Pairwise (· ≤ ·)
  begun : ∀ past call now auditedAt, (past ++ [.commits call now auditedAt]).IsPrefix moments →
    .reads call now ∈ past
  apart : ∀ op, .calls op ∈ moments → ¬op.Activates

/-- The activation, with the clock it read, would make this request active. -/
structure Activatable (call : ActivateCall) (now : DateTime) (db : Db) (r : PairingRequest) :
    Prop where
  mem : r ∈ db.pairings
  request : r.requestId = call.requestId
  pending : r.status = .pending
  unexpired : now < r.expiresAt
  invited : ∃ v ∈ db.invites, v.activationCodeHash = call.activationHash ∧ v.status = .pending

/-- Every activation commits before a poll of its request reads a clock at or
after the expiry. -/
def Prompt (moments : List Moment) : Prop :=
  ∀ past call now auditedAt, (past ++ [.commits call now auditedAt]).IsPrefix moments →
    ∃ earlier since, past = earlier ++ .reads call now :: since ∧
      ∀ r, Activatable call now (dbAfter past) r →
        ∀ t, .poll call.requestId r.pollingSecretHash t ∈ since → t < r.expiresAt

/-- The clock readings that polls compare have four-digit years. -/
structure InEra (moments : List Moment) : Prop where
  polls : ∀ requestId secretHash now, .poll requestId secretHash now ∈ moments → now.FourDigits
  expiries : ∀ f request requestId now createdAt,
    .calls (.createPairing f request requestId now createdAt) ∈ moments →
      (createdAt.plusSeconds (15 * 60)).FourDigits

theorem opsOf_append (past later : List Moment) : opsOf (past ++ later) = opsOf past ++ opsOf later :=
  List.flatMap_append

theorem Schedule.closed (past later : List Moment) (s : Schedule (past ++ later)) : Schedule past where
  fresh := by
    have whole := s.fresh
    rw [opsOf_append] at whole
    exact (fresh_append _ _ whole).1
  clock := by
    have whole := s.clock
    rw [List.flatMap_append, List.pairwise_append] at whole
    exact whole.1
  begun p call now auditedAt hp := s.begun p call now auditedAt (hp.trans (List.prefix_append _ _))
  apart op hm := s.apart op (List.mem_append_left _ hm)

theorem Prompt.closed (past later : List Moment) (h : Prompt (past ++ later)) : Prompt past :=
  fun p call now auditedAt hp => h p call now auditedAt (hp.trans (List.prefix_append _ _))

theorem InEra.closed (past later : List Moment) (h : InEra (past ++ later)) : InEra past where
  polls requestId secretHash now hm := h.polls requestId secretHash now (List.mem_append_left _ hm)
  expiries f request requestId now createdAt hm :=
    h.expiries f request requestId now createdAt (List.mem_append_left _ hm)

/-- A moment leaves the store alone or is one call. -/
theorem dbAfter_concat (past : List Moment) (m : Moment) :
    dbAfter (past ++ [m]) = dbAfter past ∨
      ∃ op, m.ops = [op] ∧ dbAfter (past ++ [m]) = (op.exec (dbAfter past)).2 := by
  have call : ∀ op, m.ops = [op] → dbAfter (past ++ [m]) = (op.exec (dbAfter past)).2 := by
    intro op h
    simp only [dbAfter, opsOf, List.flatMap_append, List.flatMap_singleton, h, store.after_concat]
    rfl
  have silent : m.ops = [] → dbAfter (past ++ [m]) = dbAfter past := by
    intro h
    simp [dbAfter, opsOf, h]
  cases m with
  | poll requestId secretHash now => exact Or.inl (silent rfl)
  | reads c now => exact Or.inl (silent rfl)
  | commits c now auditedAt => exact Or.inr ⟨_, rfl, call _ rfl⟩
  | calls op => exact Or.inr ⟨op, rfl, call op rfl⟩

/-- Where a pairing comes from: it was there, it was just requested, or it was
pending and unexpired and is now activated. -/
theorem Change.pairing_fate {db db' : Db} {op : Op} (h : Change db op db') (r : PairingRequest)
    (hr : r ∈ db'.pairings) :
    r ∈ db.pairings ∨
    (∃ f request now createdAt, op = .createPairing f request r.requestId now createdAt ∧
      r.expiresAt = createdAt.plusSeconds (15 * 60)) ∨
    ∃ r₀ f call now auditedAt, Activatable call now db r₀ ∧ r₀.requestId = r.requestId ∧
      r₀.expiresAt = r.expiresAt ∧ op = .activate f call.requestId call.activationHash call.actor
        call.credentialId now auditedAt := by
  cases h with
  | columns h => exact Or.inl (h.pairings ▸ hr)
  | invited h => exact Or.inl hr
  | cancelled mem id pending h => exact Or.inl hr
  | cleaned => exact Or.inl ((mem_cleanup _ _ _ _).1 hr)
  | @requested f request requestId requestedHostId now createdAt pairings h =>
    obtain hr | rfl := (Table.mem_insert? _ _ _ _ h).mp hr
    · exact Or.inl ((mem_cleanup _ _ _ _).1 hr)
    · exact Or.inr (Or.inl ⟨f, request, now, createdAt, rfl, rfl⟩)
  | @activated f requestId activationHash actor credentialId now auditedAt pairing invite db' h =>
    obtain rfl | ⟨hr, _⟩ := (h.mem_pairings r).mp hr
    · exact Or.inr (Or.inr ⟨pairing, f, ⟨requestId, activationHash, actor, credentialId⟩, now,
        auditedAt, ⟨h.pairing_mem, h.pairing_id, h.pairing_pending, h.unexpired, invite, h.invite_mem,
          h.invite_code, h.invite_pending⟩, rfl, rfl, rfl⟩)
    · exact Or.inl hr
  | deleted h => exact Or.inl ((Table.mem_delete _ _ _).mp hr).1

theorem polled (requestId : Uuid) (secretHash : String) (now : DateTime) (db : Db)
    (answer : PairingStatus × Option String)
    (h : pairingStatus requestId secretHash now db = some answer) :
    ∃ r ∈ db.pairings, r.requestId = requestId ∧ r.pollingSecretHash = secretHash ∧
      answer = match r.status with
        | .pending => if DateTime.sqlLe r.expiresAt now then (.expired, none) else (.waiting, none)
        | .active => (.active, r.instanceId.map Uuid.toText)
        | .denied => (.denied, none) := by
  unfold pairingStatus at h
  obtain ⟨r, hf, rfl⟩ := Option.map_eq_some_iff.mp h
  obtain ⟨hm, hp⟩ := Table.mem_of_find? _ _ _ hf
  simp only [Bool.and_eq_true, decide_eq_true_eq] at hp
  exact ⟨r, hm, hp.1, hp.2, rfl⟩

theorem polled_expired (requestId : Uuid) (secretHash : String) (now : DateTime) (db : Db)
    (instance' : Option String)
    (h : pairingStatus requestId secretHash now db = some (.expired, instance')) :
    ∃ r ∈ db.pairings, r.requestId = requestId ∧ r.pollingSecretHash = secretHash ∧
      r.status = .pending ∧ DateTime.sqlLe r.expiresAt now = true := by
  obtain ⟨r, hm, hid, hs, he⟩ := polled _ _ _ _ _ h
  refine ⟨r, hm, hid, hs, ?_⟩
  cases status : r.status with
  | pending =>
    rw [status] at he
    simp only at he
    split_ifs at he with hle
    · exact ⟨rfl, hle⟩
    · simp at he
  | active =>
    rw [status] at he
    simp at he
  | denied =>
    rw [status] at he
    simp at he

theorem polled_active (requestId : Uuid) (secretHash : String) (now : DateTime) (db : Db)
    (instance' : Option String)
    (h : pairingStatus requestId secretHash now db = some (.active, instance')) :
    ∃ r ∈ db.pairings, r.requestId = requestId ∧ r.pollingSecretHash = secretHash ∧
      r.status = .active ∧ instance' = r.instanceId.map Uuid.toText := by
  obtain ⟨r, hm, hid, hs, he⟩ := polled _ _ _ _ _ h
  refine ⟨r, hm, hid, hs, ?_⟩
  cases status : r.status with
  | pending =>
    rw [status] at he
    simp only at he
    split_ifs at he <;> simp at he
  | active =>
    rw [status] at he
    exact ⟨rfl, (Prod.mk.inj he).2⟩
  | denied =>
    rw [status] at he
    simp at he

theorem expiry_inEra (moments : List Moment) (era : InEra moments) :
    ∀ r ∈ (dbAfter moments).pairings, r.expiresAt.FourDigits := by
  induction moments using List.reverseRecOn with
  | nil => exact fun r hr => absurd hr (Table.not_mem_empty r)
  | append_singleton past m ih =>
    have before := ih (era.closed past [m])
    obtain same | ⟨op, hop, he⟩ := dbAfter_concat past m
    · rw [same]
      exact before
    · intro r hr
      rw [he] at hr
      obtain old | ⟨f, request, now, createdAt, rfl, hexp⟩ | ⟨r₀, _, _, _, _, ready, _, hexp, _⟩ :=
        (exec_change op _).pairing_fate r hr
      · exact before r old
      · have moment : m = .calls (.createPairing f request r.requestId now createdAt) := by
          cases m <;> simp_all [Moment.ops]
        rw [hexp]
        exact era.expiries f request r.requestId now createdAt (by simp [moment])
      · rw [← hexp]
        exact before r₀ ready.mem

end HostMonitoring.Store
