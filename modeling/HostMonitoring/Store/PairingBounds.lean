import HostMonitoring.Store.Changes

namespace HostMonitoring.Store

open HostMonitoring.Framework
open HostMonitoring.Framework.Tx
open HostMonitoring.Protocol

def PairingRequest.isPending (p : PairingRequest) : Bool := decide (p.status = .pending)

/-- Nothing denies a request. -/
def Undenied (db : Db) : Prop := ∀ p ∈ db.pairings, p.status ≠ .denied

/-- A pending request that the database does not find live is disposable. -/
theorem live_of_kept (now cutoff : DateTime) (p : PairingRequest) (pending : p.isPending = true)
    (kept : p.disposable now cutoff = false) : p.pendingAt now = true := by
  have hp : p.status = .pending := of_decide_eq_true pending
  simp only [PairingRequest.disposable, hp, decide_true, Bool.true_and, reduceCtorEq, decide_false,
    Bool.false_and, Bool.or_false, DateTime.sqlLe, Bool.not_eq_false'] at kept
  simp [PairingRequest.pendingAt, hp, kept]

theorem pending_of_disposable (now cutoff : DateTime) (p : PairingRequest)
    (undenied : p.status ≠ .denied) (h : p.disposable now cutoff = true) : p.isPending = true := by
  simp only [PairingRequest.disposable, Bool.or_eq_true, Bool.and_eq_true, decide_eq_true_eq] at h
  obtain ⟨pending, _⟩ | ⟨denied, _⟩ := h
  · exact decide_eq_true pending
  · exact absurd denied undenied

theorem length_victims (ties : Uuid → Nat) (now cutoff : DateTime) (pairings : Table PairingRequest) :
    (victims ties now cutoff pairings).length =
      min 512 (pairings.count (PairingRequest.disposable now cutoff)) := by
  rw [victims, Table.select, List.length_take, List.length_mergeSort, Table.count,
    List.countP_eq_length_filter]

theorem isVictim_iff (ties : Uuid → Nat) (now cutoff : DateTime) (pairings : Table PairingRequest)
    (p : PairingRequest) (hp : p ∈ pairings) :
    ((victims ties now cutoff pairings).any fun v => decide (v.requestId = p.requestId)) = true ↔
      p ∈ victims ties now cutoff pairings := by
  rw [List.any_eq_true]
  constructor
  · rintro ⟨v, hv, hid⟩
    have hm := (Table.mem_of_mem_select _ _ _ _ _ hv).1
    rwa [← pairings.eq_of_clash v p hm hp (Or.inl (of_decide_eq_true hid))]
  · exact fun hv => ⟨p, hv, decide_eq_true rfl⟩

theorem nodup_victims (ties : Uuid → Nat) (now cutoff : DateTime) (pairings : Table PairingRequest) :
    (victims ties now cutoff pairings).Nodup := by
  refine (Table.select_distinct pairings _ _ _).imp fun hn he => hn ?_
  rw [he]
  exact Or.inl rfl

/-- After a cleanup all pending requests are live, or 512 of them are gone. -/
theorem cleanup_pending (ties : Uuid → Nat) (now cutoff : DateTime) (pairings : Table PairingRequest)
    (undenied : ∀ p ∈ pairings, p.status ≠ .denied) :
    (cleanup ties now cutoff pairings).count PairingRequest.isPending ≤
        (cleanup ties now cutoff pairings).count (PairingRequest.pendingAt now) ∨
      (cleanup ties now cutoff pairings).count PairingRequest.isPending + 512 ≤
        pairings.count PairingRequest.isPending := by
  have length := length_victims ties now cutoff pairings
  by_cases few : pairings.count (PairingRequest.disposable now cutoff) ≤ 512
  · left
    have all : ∀ p ∈ pairings, p.disposable now cutoff = true → p ∈ victims ties now cutoff pairings := by
      intro p hp hd
      have whole : victims ties now cutoff pairings = (pairings.rows.filter
          (PairingRequest.disposable now cutoff)).mergeSort
            (createdBefore ties) := by
        refine List.take_of_length_le ?_
        rw [List.length_mergeSort, ← List.countP_eq_length_filter]
        exact few
      rw [whole, List.mem_mergeSort, List.mem_filter]
      exact ⟨hp, hd⟩
    refine List.countP_mono_left fun p hp pending => live_of_kept now cutoff p pending ?_
    obtain ⟨hm, kept⟩ := (Table.mem_delete _ _ _).mp hp
    by_contra hd
    have victim := (isVictim_iff ties now cutoff pairings p hm).mpr
      (all p hm (Bool.not_eq_false _ ▸ hd))
    change ((victims ties now cutoff pairings).any _) = false at kept
    rw [kept] at victim
    cases victim
  · right
    have split := List.countP_eq_countP_filter_add pairings.rows PairingRequest.isPending
      fun p => !(victims ties now cutoff pairings).any fun v => decide (v.requestId = p.requestId)
    have removed : (victims ties now cutoff pairings).length ≤
        (pairings.rows.filter fun p => !!(victims ties now cutoff pairings).any
          fun v => decide (v.requestId = p.requestId)).countP PairingRequest.isPending := by
      have inside : ∀ v ∈ victims ties now cutoff pairings, v ∈ (pairings.rows.filter fun p =>
          !!(victims ties now cutoff pairings).any fun v => decide (v.requestId = p.requestId)).filter
            PairingRequest.isPending := by
        intro v hv
        obtain ⟨hm, hd⟩ := Table.mem_of_mem_select _ _ _ _ _ hv
        rw [List.mem_filter, List.mem_filter, Bool.not_not]
        exact ⟨⟨hm, (isVictim_iff ties now cutoff pairings v hm).mpr hv⟩,
          pending_of_disposable now cutoff v (undenied v hm) hd⟩
      rw [List.countP_eq_length_filter]
      exact (List.subperm_of_subset (nodup_victims ties now cutoff pairings) inside).length_le
    rw [length, min_eq_left (Nat.le_of_not_le few)] at removed
    change List.countP _ (pairings.rows.filter _) + 512 ≤ List.countP _ pairings.rows
    rw [split]
    exact Nat.add_le_add_left removed _

/-- No request is denied, and none becomes pending. -/
structure NoNewPending (db db' : Db) : Prop where
  undenied : Undenied db → Undenied db'
  mem : ∀ p ∈ db'.pairings, p.isPending = true → p ∈ db.pairings
  count : ∀ q : PairingRequest → Bool, (∀ p, q p = true → p.isPending = true) →
    db'.pairings.count q ≤ db.pairings.count q

namespace NoNewPending

variable {db db' : Db}

theorem of_sublist (h : db'.pairings.rows.Sublist db.pairings.rows) : NoNewPending db db' where
  undenied undenied p hp := undenied p (h.subset hp)
  mem _ hp _ := h.subset hp
  count _ _ := h.countP_le

theorem of_activation {pairing : PairingRequest} {invite : InstanceInvite} {requestId : Uuid}
    {activationHash actor : String} {credentialId : Uuid} {now auditedAt : DateTime}
    (act : Activation pairing invite requestId activationHash actor credentialId now auditedAt
      db db') : NoNewPending db db' where
  undenied undenied p hp := by
    obtain rfl | ⟨hp, _⟩ := (act.mem_pairings p).mp hp
    · exact PairingRowStatus.noConfusion
    · exact undenied p hp
  mem p hp pending := by
    obtain rfl | ⟨hp, _⟩ := (act.mem_pairings p).mp hp
    · cases pending
    · exact hp
  count q onlyPending := by
    have rows := (Table.update?_eq_some _ _ _ _).mp act.pairings
    change List.countP q db'.pairings.rows ≤ List.countP q db.pairings.rows
    rw [rows, Table.updated, List.countP_map]
    refine List.countP_mono_left fun p _ hq => ?_
    simp only [Function.comp] at hq
    split_ifs at hq
    · exact absurd (onlyPending _ hq) (by simp [PairingRequest.isPending, bindPairing])
    · exact hq

/-- Of all calls only a pairing call makes a request pending. -/
theorem of_change {op : Op} (h : Change db op db')
    (other : ∀ f request requestId now createdAt, op ≠ .createPairing f request requestId now
      createdAt) : NoNewPending db db' := by
  cases h with
  | columns h => exact .of_sublist (by rw [h.pairings])
  | invited h => exact .of_sublist (List.Sublist.refl _)
  | cancelled mem id pending h => exact .of_sublist (List.Sublist.refl _)
  | cleaned => exact absurd rfl (other _ _ _ _ _)
  | requested h => exact absurd rfl (other _ _ _ _ _)
  | activated h => exact .of_activation h
  | deleted h => exact .of_sublist List.filter_sublist

end NoNewPending

/-- A call makes no request pending, or it is a pairing call that found room
after its cleanup. -/
theorem pending_cases (op : Op) (db : Db) :
    NoNewPending db (op.exec db).2 ∨
    ∃ f request requestId now createdAt requestedHostId pairings,
      op = .createPairing f request requestId now createdAt ∧
      (cleanup f.ties now (now.plusSeconds (-(30 * 86400))) db.pairings).count
        (PairingRequest.pendingAt now) < MAX_PENDING ∧
      ((cleanup f.ties now (now.plusSeconds (-(30 * 86400))) db.pairings).count fun r =>
        decide (r.requestedHostId = requestedHostId) && r.pendingAt now) < 4 ∧
      (cleanup f.ties now (now.plusSeconds (-(30 * 86400))) db.pairings).insert?
        (pendingPairing request requestId requestedHostId createdAt) = some pairings ∧
      (op.exec db).2 = { db with pairings } := by
  by_cases pairing : ∃ f request requestId now createdAt,
      op = .createPairing f request requestId now createdAt
  · obtain ⟨f, request, requestId, now, createdAt, rfl⟩ := pairing
    obtain ⟨he, _⟩ | ⟨_, cleaned, rfl, ⟨_, he⟩ | ⟨host, row, pairings, _, rfl, room, forDevice, hi, _,
      he⟩⟩ := createPairing_cases f request requestId now createdAt db _ _ Prod.mk.eta.symm
    · left
      change NoNewPending db (createPairing f request requestId now createdAt db).2
      rw [he]
      exact .of_sublist (List.Sublist.refl _)
    · left
      change NoNewPending db (createPairing f request requestId now createdAt db).2
      rw [he]
      exact .of_sublist List.filter_sublist
    · exact Or.inr ⟨f, request, requestId, now, createdAt, host, pairings, rfl, room, forDevice, hi,
        he⟩
  · refine Or.inl (.of_change (exec_change op db) ?_)
    intro f request requestId now createdAt he
    exact pairing ⟨f, request, requestId, now, createdAt, he⟩

theorem count_insert {α : Type} [Keyed α] (t t' : Table α) (r : α) (q : α → Bool)
    (h : t.insert? r = some t') : t'.count q = t.count q + if q r then 1 else 0 := by
  have rows := ((t.insert?_eq_some t' r).mp h).2
  change List.countP q t'.rows = List.countP q t.rows + _
  rw [rows, List.countP_append, List.countP_singleton]

theorem count_cleanup (ties : Uuid → Nat) (now cutoff : DateTime) (pairings : Table PairingRequest)
    (q : PairingRequest → Bool) : (cleanup ties now cutoff pairings).count q ≤ pairings.count q :=
  List.filter_sublist.countP_le

/-- The pending requests, expired or not, never fill more than the cap. -/
theorem pending_bounded (ops : List Op) : Undenied (store.after ops) ∧
    (store.after ops).pairings.count PairingRequest.isPending ≤ MAX_PENDING := by
  refine store.invariant (fun _ => True) (fun _ db => Undenied db ∧
    db.pairings.count PairingRequest.isPending ≤ MAX_PENDING) (fun _ _ _ => trivial)
    ⟨fun p hp => absurd hp (Table.not_mem_empty p), Nat.zero_le _⟩ ?_ ops trivial
  intro past op db _ ⟨undenied, bounded⟩
  change Undenied (op.exec db).2 ∧ (op.exec db).2.pairings.count _ ≤ MAX_PENDING
  obtain none | ⟨f, request, requestId, now, createdAt, host, pairings, rfl, room, _, insert, he⟩ :=
    pending_cases op db
  · exact ⟨none.undenied undenied, (none.count _ fun _ => id).trans bounded⟩
  · rw [he]
    refine ⟨fun p hp => ?_, ?_⟩
    · obtain hp | rfl := (Table.mem_insert? _ _ _ _ insert).mp hp
      · exact undenied p ((mem_cleanup _ _ _ _).1 hp)
      · exact PairingRowStatus.noConfusion
    · have one := count_insert _ _ _ PairingRequest.isPending insert
      have new : PairingRequest.isPending (pendingPairing request requestId host createdAt) = true :=
        rfl
      rw [new, if_pos rfl] at one
      change pairings.count _ ≤ MAX_PENDING
      have cap : MAX_PENDING = 4096 := rfl
      obtain live | gone := cleanup_pending f.ties now (now.plusSeconds (-(30 * 86400))) db.pairings
        undenied
      · omega
      · omega

/-- The clock readings by which pairing calls tell what is expired. -/
def Op.readings : Op → List DateTime
  | .createPairing _ _ _ now createdAt => [now, createdAt]
  | _ => []

def readings (ops : List Op) : List DateTime := ops.flatMap Op.readings

/-- No reading is before an earlier one, and the moment `t` is after all of them. -/
def Forwards (ops : List Op) (t : DateTime) : Prop := (readings ops ++ [t]).Pairwise (· ≤ ·)

/-- The texts of the readings, and of the expiries made from them, sort as the times do. -/
def SortsInTime (ops : List Op) : Prop :=
  ∀ u ∈ readings ops, ∀ v ∈ readings ops,
    DateTime.sqlLt u (v.plusSeconds (15 * 60)) = true ↔ u < v.plusSeconds (15 * 60)

/-- The pending requests of one device that expire after `t`. -/
def liveRequests (hostId : Uuid) (t : DateTime) (db : Db) : Nat :=
  db.pairings.count fun p => decide (p.requestedHostId = hostId) && p.isPending &&
    decide (t < p.expiresAt)

theorem readings_concat (past : List Op) (op : Op) :
    readings (past ++ [op]) = readings past ++ op.readings := by
  simp [readings]

/-- At any moment after the last reading no device has more than four live requests. -/
structure DeviceBounded (past : List Op) (db : Db) : Prop where
  dated : ∀ p ∈ db.pairings, p.isPending = true →
    ∃ v ∈ readings past, p.expiresAt = v.plusSeconds (15 * 60)
  live : ∀ t, Forwards past t → ∀ hostId, liveRequests hostId t db ≤ 4

theorem DeviceBounded.step {past : List Op} {db : Db} (b : DeviceBounded past db) (op : Op)
    (sorts : SortsInTime (past ++ [op])) : DeviceBounded (past ++ [op]) (op.exec db).2 := by
  have earlier : ∀ t, Forwards (past ++ [op]) t → Forwards past t := by
    intro t forwards
    rw [Forwards, readings_concat, List.append_assoc] at forwards
    exact forwards.sublist ((List.Sublist.refl _).append (List.sublist_append_right _ _))
  have later : ∀ p ∈ db.pairings, p.isPending = true →
      ∃ v ∈ readings (past ++ [op]), p.expiresAt = v.plusSeconds (15 * 60) := by
    intro p hp pending
    obtain ⟨v, hv, he⟩ := b.dated p hp pending
    refine ⟨v, ?_, he⟩
    rw [readings_concat]
    exact List.mem_append_left _ hv
  obtain none | ⟨f, request, requestId, now, createdAt, host, pairings, rfl, _, forDevice, insert,
    he⟩ := pending_cases op db
  · refine ⟨fun p hp pending => later p (none.mem p hp pending) pending, ?_⟩
    intro t forwards hostId
    refine (none.count _ fun p hq => ?_).trans (b.live t (earlier t forwards) hostId)
    simp only [Bool.and_eq_true] at hq
    exact hq.1.2
  · have mine : ∀ u ∈ [now, createdAt],
        u ∈ readings (past ++ [.createPairing f request requestId now createdAt]) := by
      intro u hu
      rw [readings_concat]
      exact List.mem_append_right _ hu
    rw [he]
    refine ⟨fun p hp pending => ?_, fun t forwards hostId => ?_⟩
    · obtain hp | rfl := (Table.mem_insert? _ _ _ _ insert).mp hp
      · exact later p ((mem_cleanup _ _ _ _).1 hp) pending
      · exact ⟨createdAt, mine createdAt (by simp), rfl⟩
    · have ordered : now ≤ t := by
        rw [Forwards, readings_concat, List.append_assoc] at forwards
        have tail := (List.pairwise_append.mp forwards).2.1
        exact List.rel_of_pairwise_cons tail (by simp)
      have one := count_insert _ _ _ (fun p => decide (p.requestedHostId = hostId) && p.isPending &&
        decide (t < p.expiresAt)) insert
      change pairings.count _ ≤ 4
      by_cases hid : host = hostId
      · subst hid
        have fewer : ((cleanup f.ties now (now.plusSeconds (-(30 * 86400))) db.pairings).count fun p =>
            decide (p.requestedHostId = host) && p.isPending && decide (t < p.expiresAt)) ≤
            (cleanup f.ties now (now.plusSeconds (-(30 * 86400))) db.pairings).count fun r =>
              decide (r.requestedHostId = host) && r.pendingAt now := by
          refine List.countP_mono_left fun p hp hq => ?_
          simp only [Bool.and_eq_true, decide_eq_true_eq] at hq
          obtain ⟨⟨device, pending⟩, unexpired⟩ := hq
          obtain ⟨v, hv, he⟩ := later p ((mem_cleanup _ _ _ _).1 hp) pending
          have live : DateTime.sqlLt now p.expiresAt = true := by
            rw [he] at unexpired ⊢
            exact (sorts now (mine now (by simp)) v hv).mpr (ordered.trans_lt unexpired)
          simp only [PairingRequest.pendingAt, Bool.and_eq_true, decide_eq_true_eq]
          exact ⟨device, of_decide_eq_true pending, live⟩
        split_ifs at one
        · omega
        · omega
      · have other : decide ((pendingPairing request requestId host createdAt).requestedHostId =
            hostId) = false := decide_eq_false hid
        rw [other] at one
        simp only [Bool.false_and, Bool.false_eq_true, if_false, Nat.add_zero] at one
        rw [one]
        exact (count_cleanup _ _ _ _ _).trans (b.live t (earlier t forwards) hostId)

theorem device_bounded (ops : List Op) (sorts : SortsInTime ops) :
    DeviceBounded ops (store.after ops) := by
  refine store.invariant SortsInTime DeviceBounded ?_ ?_ (fun _ op _ h b => b.step op h) ops sorts
  · intro past op h u hu v hv
    refine h u ?_ v ?_
    · rw [readings_concat]
      exact List.mem_append_left _ hu
    · rw [readings_concat]
      exact List.mem_append_left _ hv
  · exact ⟨fun p hp => absurd hp (Table.not_mem_empty p), fun _ _ _ => Nat.zero_le _⟩

/-- There are never more than 4096 pending requests, expired ones included,
whatever the clock says; and while it does not go backwards and the texts of its
readings and of the expiries sort in time, no device has more than four live
requests at any moment. -/
theorem pairing_storage_bounded (ops : List Op) :
    (store.after ops).pairings.count PairingRequest.isPending ≤ MAX_PENDING ∧
    ∀ t, SortsInTime ops → Forwards ops t →
      ∀ hostId, liveRequests hostId t (store.after ops) ≤ 4 := by
  constructor
  · exact (pending_bounded ops).2
  · intro t sorts forwards
    exact (device_bounded ops sorts).live t forwards

/-- The laptop asks five times in ten minutes, and again after half an hour. -/
def laptopAsks : List Op :=
  [0, 120, 240, 360, 480, 1800].mapIdx fun i second =>
    .createPairing .none { laptop with tokenHash := s!"token {i}", pollingSecretHash := s!"secret {i}" }
      ⟨BitVec.ofNat 128 i⟩ (noon.plusSeconds second) (noon.plusSeconds second)

theorem pairing_storage_bounded_laptop :
    (store.after laptopAsks).pairings.count PairingRequest.isPending ≤ MAX_PENDING ∧
    liveRequests ⟨9⟩ (noon.plusSeconds 480) (store.after (laptopAsks.take 5)) ≤ 4 ∧
    liveRequests ⟨9⟩ (noon.plusSeconds 480) (store.after (laptopAsks.take 5)) = 4 := by
  refine ⟨(pairing_storage_bounded laptopAsks).1, (pairing_storage_bounded (laptopAsks.take 5)).2
    (noon.plusSeconds 480) ?_ ?_ ⟨9⟩, by decide +kernel⟩
  · unfold SortsInTime
    decide +kernel
  · unfold Forwards
    decide +kernel

/-- A call without faults that finds its secret new and room after the cleanup. -/
theorem createPairing_inserts (request : ClientPairingRequest) (requestId hostId : Uuid)
    (now createdAt : DateTime) (db : Db) (cleaned : Table PairingRequest)
    (is_cleaned : cleaned = cleanup Faults.none.ties now (now.plusSeconds (-(30 * 86400))) db.pairings)
    (host_id : Uuid.parseStr request.host.id = some hostId)
    (secret : ∀ r ∈ db.pairings, r.pollingSecretHash ≠ request.pollingSecretHash)
    (room : cleaned.count (PairingRequest.pendingAt now) < MAX_PENDING)
    (forDevice : (cleaned.count fun r => decide (r.requestedHostId = hostId) && r.pendingAt now) < 4)
    (free : ∀ r ∈ cleaned, ¬Keyed.Clash r (pendingPairing request requestId hostId createdAt)) :
    (createPairing .none request requestId now createdAt db).2.pairings.rows =
      cleaned.rows ++ [pendingPairing request requestId hostId createdAt] := by
  obtain ⟨pairings, insert⟩ := Option.ne_none_iff_exists'.mp fun hn => by
    obtain ⟨r, hr, clash⟩ := (cleaned.insert?_eq_none
      (pendingPairing request requestId hostId createdAt)).mp hn
    exact free r hr clash
  have unknown : (db.pairings.find? fun r =>
      decide (r.pollingSecretHash = request.pollingSecretHash)) = none :=
    (Table.find?_eq_none _ _).mpr fun r hr => decide_eq_false (secret r hr)
  have answer : createPairing .none request requestId now createdAt db =
      (.ok (.ready requestId (pendingPairing request requestId hostId createdAt).expiresAt true),
        { db with pairings }) := by
    apply transact_commit
    simp only [bind_ok, query_ok]
    refine ⟨_, _, ⟨rfl, rfl, rfl⟩, ?_⟩
    rw [unknown]
    simp only [bind_ok, query_ok, execute_ok]
    refine ⟨(), _, ⟨rfl, rfl⟩, _, _, ⟨rfl, rfl, rfl⟩, ?_⟩
    rw [← is_cleaned, if_neg (Nat.not_le.mpr room), host_id]
    simp only [bind_ok, query_ok]
    refine ⟨_, _, ⟨rfl, rfl, rfl⟩, ?_⟩
    rw [if_neg (Nat.not_le.mpr forDevice)]
    simp only [bind_ok, execute_ok]
    refine ⟨1, { db with pairings }, ⟨rfl, ?_⟩, ?_⟩
    · simp only [insertPairing, insert]
    · simp [pure_ok]
  rw [answer]
  exact ((cleaned.insert?_eq_some _ _).mp insert).2

/-- Where nothing is disposable a cleanup removes nothing. -/
theorem cleanup_none (ties : Uuid → Nat) (now cutoff : DateTime) (pairings : Table PairingRequest)
    (h : ∀ p ∈ pairings, p.disposable now cutoff = false) :
    (cleanup ties now cutoff pairings).rows = pairings.rows := by
  have nothing : victims ties now cutoff pairings = [] := by
    apply List.eq_nil_of_length_eq_zero
    rw [length_victims, Nat.min_eq_zero_iff]
    refine Or.inr (List.countP_eq_zero.mpr fun p hp => ?_)
    rw [h p hp]
    exact Bool.false_ne_true
  change pairings.rows.filter (fun p => !(victims ties now cutoff pairings).any _) = _
  rw [nothing]
  exact List.filter_eq_self.mpr fun _ _ => rfl

/-- Where everything is disposable a cleanup removes the first 512 by age. -/
theorem cleanup_all (ties : Uuid → Nat) (now cutoff : DateTime) (pairings : Table PairingRequest)
    (h : ∀ p ∈ pairings, p.disposable now cutoff = true)
    (sorted : pairings.rows.Pairwise fun r r' => createdBefore ties r r' = true) :
    (cleanup ties now cutoff pairings).rows = pairings.rows.drop 512 := by
  have oldest : victims ties now cutoff pairings = pairings.rows.take 512 := by
    change ((pairings.rows.filter _).mergeSort _).take 512 = _
    rw [List.filter_eq_self.mpr h, List.mergeSort_of_pairwise sorted]
  have distinct := pairings.distinct
  change pairings.rows.filter (fun p => !(victims ties now cutoff pairings).any _) = _
  rw [oldest]
  rw [← List.take_append_drop 512 pairings.rows, List.pairwise_append] at distinct
  have split : pairings.rows.filter (fun p => !((pairings.rows.take 512).any
      fun v => decide (v.requestId = p.requestId))) =
      (pairings.rows.take 512).filter (fun p => !((pairings.rows.take 512).any
        fun v => decide (v.requestId = p.requestId))) ++
      (pairings.rows.drop 512).filter (fun p => !((pairings.rows.take 512).any
        fun v => decide (v.requestId = p.requestId))) := by
    rw [← List.filter_append, List.take_append_drop]
  have gone : (pairings.rows.take 512).filter (fun p => !((pairings.rows.take 512).any
      fun v => decide (v.requestId = p.requestId))) = [] := by
    rw [List.filter_eq_nil_iff]
    intro p hp
    have self : ((pairings.rows.take 512).any fun v => decide (v.requestId = p.requestId)) = true :=
      List.any_eq_true.mpr ⟨p, hp, decide_eq_true rfl⟩
    simp [self]
  have kept : (pairings.rows.drop 512).filter (fun p => !((pairings.rows.take 512).any
      fun v => decide (v.requestId = p.requestId))) = pairings.rows.drop 512 := by
    refine List.filter_eq_self.mpr fun p hp => ?_
    rw [Bool.not_eq_true', List.any_eq_false]
    intro v hv hid
    exact distinct.2.2 v hv p hp (Or.inl (of_decide_eq_true hid))
  rw [split, gone, kept, List.nil_append]

/-- The `i`th of the requests with which the devices crowd in before the year 10000. -/
def eveId (i : Nat) : Uuid := ⟨BitVec.ofNat 128 i⟩

/-- Four requests each, and the last ones all for one more device. -/
def eveDevice (i : Nat) : Uuid := if i < 2560 then eveId (i / 4) else eveId 640

/-- The others ask at 23:00 on the last day of 9999, the last device at 23:50. -/
def eveTime (i : Nat) : DateTime :=
  if i < 2560 then .ofSecs 253402297200 else .ofSecs 253402300200

def eveRequest (i : Nat) : ClientPairingRequest where
  host := ⟨(eveDevice i).toText, "linux", none, none, "x86_64", "0.9.10"⟩
  tokenHash := String.ofList (List.replicate 32 '0' ++ (eveId i).hexDigits)
  pollingSecretHash := String.ofList (List.replicate 32 '1' ++ (eveId i).hexDigits)

def eveRow (i : Nat) : PairingRequest :=
  pendingPairing (eveRequest i) (eveId i) (eveDevice i) (eveTime i)

def eve (n : Nat) : List Op := (List.range n).map fun i =>
  .createPairing .none (eveRequest i) (eveId i) (eveTime i) (eveTime i)

theorem eveId_injective (i j : Nat) (hi : i < 4096) (hj : j < 4096) (h : eveId i = eveId j) :
    i = j := by
  have bits := congrArg (fun u => u.bits.toNat) h
  simp only [eveId, BitVec.toNat_ofNat] at bits
  omega

theorem eveHash_injective (c : Char) (i j : Nat) (hi : i < 4096) (hj : j < 4096)
    (h : String.ofList (List.replicate 32 c ++ (eveId i).hexDigits) =
      String.ofList (List.replicate 32 c ++ (eveId j).hexDigits)) : i = j := by
  have chars := List.append_cancel_left (String.ofList_injective h)
  exact eveId_injective i j hi hj (Uuid.hexDigits_injective chars)

theorem eveRow_clash (i j : Nat) (hi : i < 4096) (hj : j < 4096)
    (h : Keyed.Clash (eveRow i) (eveRow j)) : i = j := by
  obtain hid | htoken | hsecret | hinvite := h
  · exact eveId_injective i j hi hj hid
  · exact eveHash_injective '0' i j hi hj htoken
  · exact eveHash_injective '1' i j hi hj hsecret
  · exact absurd rfl hinvite.2

/-- The call for row `n` when the table holds the rows of `front` after a cleanup. -/
theorem eve_call (n : Nat) (hn : n < 4096) (db : Db) (before front : List Nat)
    (rows : db.pairings.rows = before.map eveRow) (earlier : ∀ i ∈ before, i < n)
    (inside : ∀ i ∈ front, i ∈ before)
    (cleaned : (cleanup Faults.none.ties (eveTime n) ((eveTime n).plusSeconds (-(30 * 86400)))
      db.pairings).rows = front.map eveRow)
    (room : (front.map eveRow).countP (PairingRequest.pendingAt (eveTime n)) < MAX_PENDING)
    (forDevice : ((front.map eveRow).countP fun r => decide (r.requestedHostId = eveDevice n) &&
      r.pendingAt (eveTime n)) < 4) :
    (createPairing .none (eveRequest n) (eveId n) (eveTime n) (eveTime n) db).2.pairings.rows =
      (front ++ [n]).map eveRow := by
  have call := createPairing_inserts (eveRequest n) (eveId n) (eveDevice n) (eveTime n) (eveTime n) db
    _ rfl (Uuid.parseStr_toText _) ?_ ?_ ?_ ?_
  · rw [call, cleaned]
    simp [eveRow]
  · intro r hr he
    rw [Table.mem_def, rows] at hr
    obtain ⟨i, hi, rfl⟩ := List.mem_map.mp hr
    have same := eveHash_injective '1' i n ((earlier i hi).trans hn) hn he
    exact absurd same (earlier i hi).ne
  · rw [Table.count, cleaned]
    exact room
  · rw [Table.count, cleaned]
    exact forDevice
  · intro r hr clash
    rw [Table.mem_def, cleaned] at hr
    obtain ⟨i, hi, rfl⟩ := List.mem_map.mp hr
    have less := earlier i (inside i hi)
    exact absurd (eveRow_clash i n (less.trans hn) hn clash) less.ne

theorem eve_succ (n : Nat) : eve (n + 1) = eve n ++
    [.createPairing .none (eveRequest n) (eveId n) (eveTime n) (eveTime n)] := by
  simp [eve, List.range_succ]

theorem eveRow_disposable (i : Nat) (now cutoff : DateTime) :
    (eveRow i).disposable now cutoff = DateTime.sqlLe ((eveTime i).plusSeconds (15 * 60)) now := by
  simp [eveRow, pendingPairing, PairingRequest.disposable]

theorem eveRow_pendingAt (i : Nat) (now : DateTime) :
    (eveRow i).pendingAt now = DateTime.sqlLt now ((eveTime i).plusSeconds (15 * 60)) := by
  simp [eveRow, pendingPairing, PairingRequest.pendingAt]

/-- Before the last device comes every request is live and finds room. -/
theorem eve_crowd (n : Nat) (hn : n ≤ 2560) :
    (store.after (eve n)).pairings.rows = (List.range n).map eveRow := by
  induction n with
  | zero => rfl
  | succ n ih =>
    have rows := ih (by omega)
    have young : ∀ i ≤ n, eveTime i = .ofSecs 253402297200 := fun i hi => if_pos (by omega)
    have live : DateTime.sqlLe ((DateTime.ofSecs 253402297200).plusSeconds (15 * 60))
        (.ofSecs 253402297200) = false := by decide +kernel
    rw [eve_succ, Machine.after_concat]
    refine (eve_call n (by omega) (store.after (eve n)) (List.range n) (List.range n) rows ?_
      (fun _ => id) ?_ ?_ ?_).trans ?_
    · exact fun i hi => List.mem_range.mp hi
    · rw [cleanup_none, rows]
      intro p hp
      rw [Table.mem_def, rows] at hp
      obtain ⟨i, hi, rfl⟩ := List.mem_map.mp hp
      rw [eveRow_disposable, young i (List.mem_range.mp hi).le, young n (le_refl n)]
      exact live
    · refine lt_of_le_of_lt List.countP_le_length ?_
      rw [List.length_map, List.length_range, MAX_PENDING]
      omega
    · have parts : n = 4 * (n / 4) + n % 4 := by omega
      have others : (List.range (4 * (n / 4))).countP (fun i => decide (i / 4 = n / 4)) = 0 := by
        refine List.countP_eq_zero.mpr fun i hi => ?_
        have less := List.mem_range.mp hi
        simp only [decide_eq_true_eq]
        omega
      have split : List.range n =
          List.range (4 * (n / 4)) ++ (List.range (n % 4)).map (4 * (n / 4) + ·) := by
        rw [← List.range_add, ← parts]
      have few : (List.range n).countP (fun i => decide (i / 4 = n / 4)) < 4 := by
        rw [split, List.countP_append, others, Nat.zero_add]
        refine lt_of_le_of_lt List.countP_le_length ?_
        rw [List.length_map, List.length_range]
        omega
      refine lt_of_le_of_lt ?_ few
      rw [List.countP_map]
      refine List.countP_mono_left fun i hi same => ?_
      simp only [Function.comp, Bool.and_eq_true, decide_eq_true_eq] at same ⊢
      have less := List.mem_range.mp hi
      have devices : eveId (i / 4) = eveId (n / 4) := by
        have mine := same.1
        change eveDevice i = eveDevice n at mine
        rwa [eveDevice, eveDevice, if_pos (by omega), if_pos (by omega)] at mine
      exact eveId_injective _ _ (by omega) (by omega) devices
    · rw [List.range_succ]

theorem eveTime_mono (i j : Nat) (h : i ≤ j) :
    DateTime.sqlLe (eveTime i) (eveTime j) = true ∧ eveTime i ≤ eveTime j := by
  unfold eveTime
  split_ifs
  · decide +kernel
  · decide +kernel
  · omega
  · decide +kernel

/-- Each request of the last device finds all rows expired by their texts, which
its cleanup only begins to remove. -/
theorem eve_rush (k : Nat) (hk : k ≤ 5) : (store.after (eve (2560 + k))).pairings.rows =
    (List.range' (512 * k) (2560 + k - 512 * k)).map eveRow := by
  induction k with
  | zero =>
    rw [eve_crowd 2560 (le_refl _), List.range_eq_range']
  | succ k ih =>
    have rows := ih (by omega)
    have late : eveTime (2560 + k) = .ofSecs 253402300200 := if_neg (by omega)
    have expired : ∀ i, DateTime.sqlLe ((eveTime i).plusSeconds (15 * 60)) (.ofSecs 253402300200) =
        true := by
      intro i
      unfold eveTime
      split_ifs
      · decide +kernel
      · decide +kernel
    have dead : ∀ i, (eveRow i).pendingAt (eveTime (2560 + k)) = false := by
      intro i
      have text := expired i
      rw [DateTime.sqlLe, Bool.not_eq_true'] at text
      rw [eveRow_pendingAt, late, text]
    rw [show 2560 + (k + 1) = 2560 + k + 1 by omega, eve_succ, Machine.after_concat]
    refine (eve_call (2560 + k) (by omega) (store.after (eve (2560 + k)))
      (List.range' (512 * k) (2560 + k - 512 * k))
      (List.range' (512 * (k + 1)) (2560 + k - 512 * (k + 1))) rows ?_ ?_ ?_ ?_ ?_).trans ?_
    · intro i hi
      have bounds := List.mem_range'_1.mp hi
      omega
    · intro i hi
      have bounds := List.mem_range'_1.mp hi
      refine List.mem_range'_1.mpr ⟨?_, ?_⟩
      · omega
      · omega
    · have start : 512 * k + 1 * 512 = 512 * (k + 1) := by omega
      have length : 2560 + k - 512 * k - 512 = 2560 + k - 512 * (k + 1) := by omega
      rw [cleanup_all, rows, ← List.map_drop, List.drop_range', start, length]
      · intro p hp
        rw [Table.mem_def, rows] at hp
        obtain ⟨i, hi, rfl⟩ := List.mem_map.mp hp
        rw [eveRow_disposable, late]
        exact expired i
      · rw [rows, List.pairwise_map]
        refine List.Pairwise.imp ?_ List.pairwise_lt_range'
        intro i j h
        have le := (eveTime_mono i j h.le).1
        simp only [createdBefore, Bool.or_eq_true, Bool.and_eq_true]
        exact Or.inr ⟨le, decide_eq_true (le_refl 0)⟩
    · rw [List.countP_eq_zero.mpr]
      · decide
      · intro p hp
        obtain ⟨i, hi, rfl⟩ := List.mem_map.mp hp
        rw [dead i]
        exact Bool.false_ne_true
    · rw [List.countP_eq_zero.mpr]
      · decide
      · intro p hp
        obtain ⟨i, hi, rfl⟩ := List.mem_map.mp hp
        rw [dead i, Bool.and_false]
        exact Bool.false_ne_true
    · have last : 512 * (k + 1) + (2560 + k - 512 * (k + 1)) = 2560 + k := by omega
      have length : 2560 + k + 1 - 512 * (k + 1) = 2560 + k - 512 * (k + 1) + 1 := by omega
      rw [length, List.range'_1_concat, last]

theorem eve_forwards (n : Nat) : (readings (eve n)).Pairwise (· ≤ ·) ∧
    ∀ u ∈ readings (eve n), u ≤ eveTime n := by
  induction n with
  | zero => exact ⟨List.Pairwise.nil, fun u hu => absurd hu List.not_mem_nil⟩
  | succ n ih =>
    obtain ⟨sorted, before⟩ := ih
    have next := (eveTime_mono n (n + 1) (Nat.le_succ n)).2
    rw [eve_succ, readings_concat]
    constructor
    · rw [List.pairwise_append]
      refine ⟨sorted, by simp [Op.readings], fun u hu v hv => ?_⟩
      have same : v = eveTime n := by simpa [Op.readings] using hv
      rw [same]
      exact before u hu
    · intro u hu
      obtain hu | hu := List.mem_append.mp hu
      · exact (before u hu).trans next
      · have same : u = eveTime n := by simpa [Op.readings] using hu
        rw [same]
        exact next

/-- Expiries in the year 10000 sort before the clock of 9999, so the cap of one
device does not see them. -/
theorem pairing_storage_unbounded :
    ¬((∀ ops, (store.after ops).pairings.count PairingRequest.isPending ≤ MAX_PENDING) ∧
      ∀ ops t, Forwards ops t → ∀ hostId, liveRequests hostId t (store.after ops) ≤ 4) := by
  rintro ⟨_, claim⟩
  have forwards : Forwards (eve 2565) (eveTime 2565) := by
    obtain ⟨sorted, before⟩ := eve_forwards 2565
    refine List.pairwise_append.mpr ⟨sorted, List.pairwise_singleton _ _, fun u hu v hv => ?_⟩
    rw [List.mem_singleton.mp hv]
    exact before u hu
  have five := claim (eve 2565) (eveTime 2565) forwards (eveId 640)
  have rows := eve_rush 5 (le_refl 5)
  have counted : liveRequests (eveId 640) (eveTime 2565) (store.after (eve 2565)) = 5 := by
    unfold liveRequests Table.count
    rw [rows]
    decide +kernel
  omega

end HostMonitoring.Store
