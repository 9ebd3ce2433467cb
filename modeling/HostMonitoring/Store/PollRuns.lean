import HostMonitoring.Store.Polls

namespace HostMonitoring.Store

open HostMonitoring.Framework
open HostMonitoring.Protocol

/-- A clock reading after a poll is not older than the poll's. -/
theorem Schedule.read_after {requestId : Uuid} {secretHash : String} {now read : DateTime}
    {call : ActivateCall} {mid : List Moment} (before rest since : List Moment)
    (s : Schedule (before ++ .poll requestId secretHash now :: mid))
    (h : mid = rest ++ .reads call read :: since) : now ≤ read := by
  have clock := s.clock
  rw [h, List.flatMap_append, List.pairwise_append] at clock
  have ordered := clock.2.1
  rw [List.flatMap_cons, List.pairwise_append] at ordered
  exact ordered.2.2 now (by simp [Moment.clock]) read (by simp [Moment.clock])

/-- Only a committing moment activates. -/
theorem Schedule.commit_of_activate {past : List Moment} {m : Moment} {f : Faults}
    {call : ActivateCall} {read auditedAt : DateTime} (s : Schedule (past ++ [m]))
    (h : m.ops = [.activate f call.requestId call.activationHash call.actor call.credentialId read
      auditedAt]) : m = .commits call read auditedAt := by
  cases m with
  | commits call' read' auditedAt' =>
    simp only [Moment.ops, List.cons.injEq, Op.activate.injEq, and_true] at h
    obtain ⟨_, hid, hhash, hactor, hcredential, rfl, rfl⟩ := h
    cases call
    cases call'
    simp_all
  | calls op =>
    have same := (List.cons.inj h).1
    exact absurd (by rw [same]; trivial) (s.apart op (by simp))
  | poll _ _ _ => cases h
  | reads _ _ => cases h

/-- The request is not active, and still expires when it did. -/
def Unactivated (requestId : Uuid) (secretHash : String) (expiresAt : DateTime) (db : Db) : Prop :=
  ∀ r ∈ db.pairings, r.requestId = requestId →
    r.status = .pending ∧ r.expiresAt = expiresAt ∧ r.pollingSecretHash = secretHash

/-- Once a poll saw a request expired, no prompt activation makes it active. -/
theorem unactivated_later (before mid : List Moment) (requestId : Uuid) (secretHash : String)
    (now expiresAt : DateTime) (s : Schedule (before ++ .poll requestId secretHash now :: mid))
    (prompt : Prompt (before ++ .poll requestId secretHash now :: mid))
    (drawn_before : requestId ∈ drawn (opsOf before)) (late : expiresAt ≤ now)
    (h : Unactivated requestId secretHash expiresAt (dbAfter before)) :
    Unactivated requestId secretHash expiresAt
      (dbAfter (before ++ .poll requestId secretHash now :: mid)) := by
  induction mid using List.reverseRecOn with
  | nil =>
    have same : dbAfter (before ++ [.poll requestId secretHash now]) = dbAfter before := by
      simp [dbAfter, opsOf, Moment.ops]
    rw [same]
    exact h
  | append_singleton mid m ih =>
    have shape : before ++ .poll requestId secretHash now :: (mid ++ [m]) =
        (before ++ .poll requestId secretHash now :: mid) ++ [m] := by simp
    rw [shape] at s prompt ⊢
    have kept := ih (s.closed _ _) (prompt.closed _ _)
    obtain same | ⟨op, hop, he⟩ :=
      dbAfter_concat (before ++ .poll requestId secretHash now :: mid) m
    · rw [same]
      exact kept
    · rw [he]
      intro r hr hid
      obtain old | ⟨f, request, now', createdAt, rfl, _⟩ |
          ⟨r₀, f, call, read, auditedAt, ready, hid₀, hexp₀, rfl⟩ :=
        (exec_change op _).pairing_fate r hr
      · exact kept r old hid
      · -- the identifier of a new request was not drawn before
        exfalso
        have fresh := s.fresh
        rw [opsOf_append] at fresh
        refine (fresh_append _ _ fresh).2.1 requestId ?_ ?_
        · rw [opsOf_append, drawn, List.flatMap_append]
          exact List.mem_append_left _ drawn_before
        · simp [opsOf, hop, drawn, Op.uuids, hid]
      · -- an activation commits: it read its clock after the poll, or before it
        exfalso
        have commit : m = .commits call read auditedAt := s.commit_of_activate hop
        rw [commit] at prompt
        obtain ⟨earlier, since, hpast, soon⟩ := prompt _ _ _ _ (List.prefix_refl _)
        obtain ⟨_, hexp, hsecret⟩ := kept r₀ ready.mem (hid₀.trans hid)
        have unread : read < expiresAt := by
          rw [← hexp]
          exact ready.unexpired
        obtain ⟨rest, tail⟩ | ⟨rest, tail⟩ := before_or_after _ _ _ _ _ _ hpast Moment.noConfusion
        · have older : now ≤ read := (s.closed _ _).read_after before rest since tail
          exact absurd (late.trans older) (not_le.mpr unread)
        · have soon_enough : now < r₀.expiresAt := by
            refine soon r₀ ready now ?_
            rw [tail, hsecret, ← ready.request, hid₀, hid]
            exact List.mem_append_right _ List.mem_cons_self
          rw [hexp] at soon_enough
          exact absurd late (not_le.mpr soon_enough)

/-- An active request keeps its instance until the deletion of that instance
removes it. -/
theorem active_later (past later : List Op) (fresh : Fresh (past ++ later)) (i : Uuid)
    (r : PairingRequest) (hr : r ∈ (store.after past).pairings) (active : r.status = .active)
    (hi : r.instanceId = some i) :
    r ∈ (store.after (past ++ later)).pairings ∨
      ((∃ mid next, (mid ++ [next]).IsPrefix later ∧ Deleted (past ++ mid) next i) ∧
        ∀ r' ∈ (store.after (past ++ later)).pairings, r'.requestId ≠ r.requestId) := by
  have known := (bound_after past (fresh_append _ _ fresh).1).pairing_drawn r hr
  refine lasting_fresh (fun db => r ∈ db.pairings ∨
    ((∃ mid next, (mid ++ [next]).IsPrefix later ∧ Deleted (past ++ mid) next i) ∧
      ∀ r' ∈ db.pairings, r'.requestId ≠ r.requestId)) past later fresh (Or.inl hr) ?_
  intro mid op db' hp he b uuids _ change now
  obtain here | ⟨deleted, absent⟩ := now
  · obtain ⟨v, hv, bound⟩ := b.pairing_active r here active
    have instance_eq : v.instanceId = i := Option.some.inj (bound.2.2.2.symm.trans hi)
    obtain ⟨kept, _⟩ | ⟨⟨f, actor, auditedAt, hop⟩, _, gone⟩ :=
      change.keeps_bound r v here hv active bound.2.1 bound.2.2.2
    · exact Or.inl kept
    · have removed : r ∉ db'.pairings := fun hm => (gone r hm).2 bound.2.2.2
      right
      refine ⟨⟨mid, op, hp, ⟨f, actor, auditedAt, instance_eq ▸ hop⟩, ?_⟩, fun r' hr' hid => ?_⟩
      · rw [hop] at he ⊢
        refine congrArg Reply.changed (deleteHost_changed f _ actor auditedAt _ fun same => ?_)
        refine removed ?_
        rw [he]
        change r ∈ (deleteHost f v.instanceId actor auditedAt (store.after (past ++ mid))).2.pairings
        rw [same]
        exact here
      · obtain ⟨old, other⟩ := gone r' hr'
        rw [(store.after (past ++ mid)).pairings.eq_of_clash r' r old here (Or.inl hid)] at other
        exact other bound.2.2.2
  · refine Or.inr ⟨deleted, fun r' hr' hid => ?_⟩
    obtain ⟨r₀, hr₀, hid₀⟩ | new := (change.pairing_origin r' hr').1
    · exact absent r₀ hr₀ (hid₀.trans hid)
    · rw [hid] at new
      exact uuids r.requestId known new

theorem poll_active (r : PairingRequest) (db : Db) (hr : r ∈ db.pairings)
    (active : r.status = .active) (t : DateTime) :
    pairingStatus r.requestId r.pollingSecretHash t db =
      some (.active, r.instanceId.map Uuid.toText) := by
  have found : db.pairings.find? (fun x => decide (x.requestId = r.requestId) &&
      decide (x.pollingSecretHash = r.pollingSecretHash)) = some r := by
    refine Table.find?_eq_some _ _ _ hr (by simp) fun x hx hp => ?_
    simp only [Bool.and_eq_true, decide_eq_true_eq] at hp
    exact db.pairings.eq_of_clash x r hx hr (Or.inl hp.1)
  unfold pairingStatus
  rw [found, Option.map_some, active]

theorem poll_unknown (requestId : Uuid) (secretHash : String) (t : DateTime) (db : Db)
    (absent : ∀ r ∈ db.pairings, r.requestId ≠ requestId) :
    pairingStatus requestId secretHash t db = none := by
  cases h : pairingStatus requestId secretHash t db with
  | none => rfl
  | some answer =>
    obtain ⟨r, hr, hid, _⟩ := polled _ _ _ _ _ h
    exact absurd hid (absent r hr)

/-- What a poll saw is final at a later moment: expired never becomes active, and
active stays active as the same instance until the deletion of that instance
removes the request. -/
def Terminal (before mid : List Moment) (requestId : Uuid) (secretHash : String) (now : DateTime) :
    Prop :=
  (pairingStatus requestId secretHash now (dbAfter before) = some (.expired, none) →
    ∀ secretHash' t i, pairingStatus requestId secretHash' t
      (dbAfter (before ++ .poll requestId secretHash now :: mid)) ≠ some (.active, i)) ∧
  ∀ i, pairingStatus requestId secretHash now (dbAfter before) = some (.active, i) →
    ∃ instanceId : Uuid, i = some instanceId.toText ∧
      ((∀ t, pairingStatus requestId secretHash t
          (dbAfter (before ++ .poll requestId secretHash now :: mid)) = some (.active, i)) ∨
        (∃ past op, (past ++ [op]).IsPrefix (opsOf mid) ∧
          Deleted (opsOf before ++ past) op instanceId) ∧
        ∀ secretHash' t, pairingStatus requestId secretHash' t
          (dbAfter (before ++ .poll requestId secretHash now :: mid)) = none)

theorem terminal_after (before mid : List Moment) (requestId : Uuid) (secretHash : String)
    (now : DateTime) (s : Schedule (before ++ .poll requestId secretHash now :: mid))
    (era : InEra (before ++ .poll requestId secretHash now :: mid))
    (prompt : Prompt (before ++ .poll requestId secretHash now :: mid)) :
    Terminal before mid requestId secretHash now := by
  have bound := bound_after (opsOf before) (s.closed before _).fresh
  refine ⟨fun expired secretHash' t i active => ?_, fun i active => ?_⟩
  · obtain ⟨r, hr, hid, hsecret, pending, hle⟩ := polled_expired _ _ _ _ _ expired
    have late : r.expiresAt ≤ now := by
      refine (DateTime.sqlLe_iff _ _ (Or.inr ⟨?_, ?_⟩)).mp hle
      · exact expiry_inEra before (era.closed before _) r hr
      · exact era.polls requestId secretHash now (by simp)
    have start : Unactivated requestId secretHash r.expiresAt (dbAfter before) := by
      intro r' hr' hid'
      rw [(dbAfter before).pairings.eq_of_clash r' r hr' hr (Or.inl (hid'.trans hid.symm))]
      exact ⟨pending, rfl, hsecret⟩
    have drawn_before : requestId ∈ drawn (opsOf before) := by
      rw [← hid]
      exact bound.pairing_drawn r hr
    have kept := unactivated_later before mid requestId secretHash now r.expiresAt s prompt
      drawn_before late start
    obtain ⟨r', hr', hid', _, status, _⟩ := polled_active _ _ _ _ _ active
    rw [(kept r' hr' hid').1] at status
    cases status
  · obtain ⟨r, hr, rfl, rfl, status, rfl⟩ := polled_active _ _ _ _ _ active
    obtain ⟨v, _, bv⟩ := bound.pairing_active r hr status
    refine ⟨v.instanceId, by rw [bv.2.2.2]; rfl, ?_⟩
    have after : dbAfter (before ++ .poll r.requestId r.pollingSecretHash now :: mid) =
        store.after (opsOf before ++ opsOf mid) := by
      rw [dbAfter, opsOf_append]
      rfl
    have fresh : Fresh (opsOf before ++ opsOf mid) := by
      have whole := s.fresh
      rw [opsOf_append] at whole
      exact whole
    rw [after]
    obtain here | ⟨deleted, absent⟩ := active_later _ (opsOf mid) fresh _ r hr status bv.2.2.2
    · exact Or.inl fun t => poll_active r _ here status t
    · exact Or.inr ⟨deleted, fun secretHash' t => poll_unknown _ _ _ _ absent⟩

/-- In a run whose activations commit promptly every status a poll saw is final. -/
theorem polls_terminal (moments : List Moment) (s : Schedule moments) (era : InEra moments)
    (prompt : Prompt moments) (before mid : List Moment) (requestId : Uuid) (secretHash : String)
    (now : DateTime) (hp : (before ++ .poll requestId secretHash now :: mid).IsPrefix moments) :
    Terminal before mid requestId secretHash now := by
  obtain ⟨later, rfl⟩ := hp
  exact terminal_after before mid requestId secretHash now (s.closed _ _) (era.closed _ _)
    (prompt.closed _ _)

def Moment.Commits : Moment → Prop
  | .commits _ _ _ => True
  | _ => False

/-- A run with one commit is cut at that commit in one way. -/
theorem only_commit (pre post past : List Moment) (call call' : ActivateCall)
    (now auditedAt now' auditedAt' : DateTime) (hpre : ∀ m ∈ pre, ¬m.Commits)
    (hpost : ∀ m ∈ post, ¬m.Commits)
    (h : (past ++ [Moment.commits call' now' auditedAt']).IsPrefix
      (pre ++ Moment.commits call now auditedAt :: post)) : past = pre ∧ call' = call ∧ now' = now := by
  obtain ⟨rest, he⟩ := h
  rw [List.append_assoc] at he
  obtain ⟨mid, hp, hm⟩ | ⟨mid, hp, hm⟩ := List.append_eq_append_iff.mp he
  · cases mid with
    | nil =>
      have same := (List.cons.inj hm).1
      cases same
      exact ⟨by simpa using hp.symm, rfl, rfl⟩
    | cons first mid =>
      have same := (List.cons.inj hm).1
      exact absurd trivial (hpre (.commits call' now' auditedAt') (by simp [hp, ← same]))
  · cases mid with
    | nil =>
      have same := (List.cons.inj hm).1
      cases same
      exact ⟨by simpa using hp, rfl, rfl⟩
    | cons first mid =>
      have tail := (List.cons.inj hm).2
      exact absurd trivial (hpost (.commits call' now' auditedAt') (by simp [tail]))

def laptopCall : ActivateCall := ⟨⟨3⟩, "code hash", "admin", ⟨4⟩⟩

/-- The laptop polls after its activation has read the clock. -/
def laptopPolling (readAt polledAt : DateTime) : List Moment :=
  laptopPaired.map .calls ++ [.reads laptopCall readAt, .poll ⟨3⟩ "secret" polledAt]

theorem silent_laptopPolling (readAt polledAt : DateTime) :
    ∀ m ∈ laptopPolling readAt polledAt, ¬m.Commits := by
  simp [laptopPolling, laptopPaired, Moment.Commits]

/-- And the activation commits, before later polls. -/
def laptopPolls (readAt polledAt : DateTime) (later : List DateTime) : List Moment :=
  laptopPolling readAt polledAt ++ .commits laptopCall readAt polledAt ::
    later.map (.poll ⟨3⟩ "secret")

theorem silent_polls (later : List DateTime) :
    ∀ m ∈ later.map (Moment.poll ⟨3⟩ "secret"), ¬m.Commits := by
  simp [Moment.Commits]

theorem schedule_laptopPolls (readAt polledAt : DateTime) (later : List DateTime)
    (h : (readAt :: polledAt :: later).Pairwise (· ≤ ·)) :
    Schedule (laptopPolls readAt polledAt later) where
  fresh := by
    have calls : opsOf (laptopPolls readAt polledAt later) =
        laptopPaired ++ [.activate .none ⟨3⟩ "code hash" "admin" ⟨4⟩ readAt polledAt] := by
      simp [laptopPolls, laptopPolling, laptopPaired, laptopCall, opsOf, Moment.ops,
        List.flatMap_map, List.flatMap_eq_nil_iff]
    rw [calls]
    simp [Fresh, drawn, codes, laptopPaired, Op.uuids, Op.codes]
  clock := by
    have readings : (laptopPolls readAt polledAt later).flatMap Moment.clock =
        readAt :: polledAt :: later := by
      simp [laptopPolls, laptopPolling, laptopPaired, Moment.clock, List.flatMap_map]
    rw [readings]
    exact h
  begun past call now auditedAt hp := by
    obtain ⟨rfl, rfl, rfl⟩ := only_commit (laptopPolling readAt polledAt) _ past _ _ _ _ _ _
      (silent_laptopPolling readAt polledAt) (silent_polls later) hp
    simp [laptopPolling]
  apart op hm := by
    simp only [laptopPolls, laptopPolling, laptopPaired, List.map_cons, List.map_nil, List.cons_append,
      List.nil_append, List.mem_cons, List.mem_map, Moment.calls.injEq, reduceCtorEq, and_false,
      exists_false, or_false] at hm
    obtain rfl | rfl := hm
    · exact id
    · exact id

theorem inEra_laptopPolls (readAt polledAt : DateTime) (later : List DateTime)
    (h : ∀ t ∈ polledAt :: later, t.FourDigits) : InEra (laptopPolls readAt polledAt later) where
  polls requestId secretHash now hm := by
    apply h
    simp only [laptopPolls, laptopPolling, laptopPaired, List.map_cons, List.map_nil,
      List.cons_append, List.nil_append, List.mem_cons, List.mem_map, Moment.poll.injEq,
      reduceCtorEq, false_or] at hm
    rcases hm with polled | ⟨t, ht, _, _, rfl⟩
    · exact List.mem_cons.mpr (Or.inl polled.2.2)
    · exact List.mem_cons_of_mem _ ht
  expiries f request requestId now createdAt hm := by
    simp only [laptopPolls, laptopPolling, laptopPaired, List.map_cons, List.map_nil,
      List.cons_append, List.nil_append, List.mem_cons, List.mem_map, Moment.calls.injEq,
      Op.createPairing.injEq, reduceCtorEq, and_false, exists_false, or_false, false_or] at hm
    rw [hm.2.2.2.2]
    change _ ∧ _
    decide +kernel

/-- The laptop polls in time, its activation is prompt, and it polls again twice. -/
theorem polls_terminal_laptop :
    pairingStatus ⟨3⟩ "secret" (noon.plusSeconds 30) (dbAfter (laptopPolls (noon.plusSeconds 10)
      (noon.plusSeconds 20) [])) = some (.active, some (Uuid.toText ⟨2⟩)) ∧
    Terminal (laptopPolls (noon.plusSeconds 10) (noon.plusSeconds 20) [])
      [.poll ⟨3⟩ "secret" (noon.plusSeconds 1000)] ⟨3⟩ "secret" (noon.plusSeconds 30) := by
  have years : ∀ t ∈ [noon.plusSeconds 20, noon.plusSeconds 30, noon.plusSeconds 1000],
      t.FourDigits := by
    change ∀ t ∈ _, _ ∧ _
    decide +kernel
  have era : InEra (laptopPolls (noon.plusSeconds 10) (noon.plusSeconds 20)
      [noon.plusSeconds 30, noon.plusSeconds 1000]) := inEra_laptopPolls _ _ _ years
  have prompt : Prompt (laptopPolls (noon.plusSeconds 10) (noon.plusSeconds 20)
      [noon.plusSeconds 30, noon.plusSeconds 1000]) := by
    intro past call now auditedAt hp
    obtain ⟨rfl, rfl, rfl⟩ := only_commit _ _ past _ _ _ _ _ _
      (silent_laptopPolling (noon.plusSeconds 10) (noon.plusSeconds 20)) (silent_polls _) hp
    refine ⟨laptopPaired.map .calls, _, by rfl, fun r ready t ht => ?_⟩
    have polled : t = noon.plusSeconds 20 := by
      simp only [List.mem_singleton, Moment.poll.injEq] at ht
      exact ht.2.2
    have unexpired : ∀ r ∈ (dbAfter (laptopPolling (noon.plusSeconds 10)
        (noon.plusSeconds 20))).pairings.rows, noon.plusSeconds 20 < r.expiresAt := by
      decide +kernel
    rw [polled]
    exact unexpired r ready.mem
  refine ⟨by decide +kernel, ?_⟩
  exact polls_terminal _ (schedule_laptopPolls _ _ _ (by decide +kernel)) era prompt _ _ _ _ _
    (List.prefix_refl _)

/-- An activation that read its clock just before the expiry commits after a poll
that saw the request expired. -/
theorem expired_polled_active : ¬∀ moments : List Moment, Schedule moments → InEra moments →
    ∀ before mid requestId secretHash now,
      (before ++ Moment.poll requestId secretHash now :: mid).IsPrefix moments →
        Terminal before mid requestId secretHash now := by
  intro h
  have era : InEra (laptopPolls (noon.plusSeconds 899) (noon.plusSeconds 900) []) := by
    apply inEra_laptopPolls
    change ∀ t ∈ _, _ ∧ _
    decide +kernel
  have terminal := h _ (schedule_laptopPolls _ _ _ (by decide +kernel)) era
    (laptopPaired.map .calls ++ [.reads laptopCall (noon.plusSeconds 899)])
    [.commits laptopCall (noon.plusSeconds 899) (noon.plusSeconds 900)] ⟨3⟩ "secret"
    (noon.plusSeconds 900) (List.prefix_refl _)
  have expired : pairingStatus ⟨3⟩ "secret" (noon.plusSeconds 900) (dbAfter (laptopPaired.map
      .calls ++ [.reads laptopCall (noon.plusSeconds 899)])) = some (.expired, none) := by
    decide +kernel
  have active : pairingStatus ⟨3⟩ "secret" (noon.plusSeconds 900)
      (dbAfter (laptopPolls (noon.plusSeconds 899) (noon.plusSeconds 900) [])) =
        some (.active, some (Uuid.toText ⟨2⟩)) := by decide +kernel
  exact terminal.1 expired _ _ _ active

end HostMonitoring.Store
