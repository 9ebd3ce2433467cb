import HostMonitoring.Store.Changes

namespace HostMonitoring.Store

open HostMonitoring.Framework
open HostMonitoring.Protocol

/-- The call invites the instance and draws the code. -/
def Op.Invites (instanceId : Uuid) (activationHash : String) : Op → Prop
  | .createInvite _ _ _ _ drawn _ drawnHash _ _ => drawn = instanceId ∧ drawnHash = activationHash
  | _ => False

/-- A device asks to be paired, under the identifier drawn for it. -/
def Op.Requests (requestId : Uuid) (tokenHash pollingSecretHash : String) : Op → Prop
  | .createPairing _ request drawn _ _ => drawn = requestId ∧ request.tokenHash = tokenHash ∧
    request.pollingSecretHash = pollingSecretHash
  | _ => False

/-- The call presents the code for the device. -/
def Op.Presents (requestId : Uuid) (activationHash : String) : Op → Prop
  | .activate _ asked presented _ _ _ _ => asked = requestId ∧ presented = activationHash
  | _ => False

/-- The call makes the invite of the instance, with the code. -/
structure InviteMade (instanceId : Uuid) (activationHash : String) (db db' : Db) (op : Op) : Prop where
  invites : op.Invites instanceId activationHash
  made : ∃ v ∈ db'.invites, v ∉ db.invites ∧ v.instanceId = instanceId ∧
    v.activationCodeHash = activationHash

/-- The call makes the pairing request, with the hashes of its token and its secret. -/
structure RequestMade (requestId : Uuid) (tokenHash pollingSecretHash : String) (db db' : Db)
    (op : Op) : Prop where
  requests : op.Requests requestId tokenHash pollingSecretHash
  made : ∃ p ∈ db'.pairings, p ∉ db.pairings ∧ p.requestId = requestId ∧ p.tokenHash = tokenHash ∧
    p.pollingSecretHash = pollingSecretHash

/-- The call makes the pending request active, as the instance whose code it presents. -/
structure CodeAccepted (instanceId requestId : Uuid) (activationHash : String) (db db' : Db)
    (op : Op) : Prop where
  presents : op.Presents requestId activationHash
  pending : ∃ p ∈ db.pairings, p.requestId = requestId ∧ p.status = .pending
  active : ∃ p ∈ db'.pairings, p.requestId = requestId ∧ p.status = .active ∧
    p.instanceId = some instanceId

/-- One of the calls, from the state it met to the state it left. -/
def Happens (ops : List Op) (P : Db → Db → Op → Prop) : Prop :=
  ∃ past op later, ops = past ++ op :: later ∧ P (store.after past) (store.after (past ++ [op])) op

theorem Happens.later {past : List Op} {P : Db → Db → Op → Prop} (h : Happens past P)
    (rest : List Op) : Happens (past ++ rest) P := by
  obtain ⟨pre, op, post, split, held⟩ := h
  exact ⟨pre, op, post ++ rest, by simp [split], held⟩

/-- An instance was invited, a device asked to be paired, and then the code of the invite was
presented for the device; each of the three calls succeeded. -/
structure Enrolls (ops : List Op) (instanceId requestId : Uuid)
    (tokenHash pollingSecretHash activationHash : String) : Prop where
  order : ∃ past op later, ops = past ++ op :: later ∧
    CodeAccepted instanceId requestId activationHash (store.after past) (store.after (past ++ [op])) op ∧
    Happens past (InviteMade instanceId activationHash) ∧
    Happens past (RequestMade requestId tokenHash pollingSecretHash)

theorem Enrolls.mono {ops ops' : List Op} {instanceId requestId : Uuid}
    {tokenHash pollingSecretHash activationHash : String}
    (h : Enrolls ops instanceId requestId tokenHash pollingSecretHash activationHash)
    (onward : ops <+: ops') :
    Enrolls ops' instanceId requestId tokenHash pollingSecretHash activationHash := by
  obtain ⟨past, op, later, rfl, rest⟩ := h.order
  obtain ⟨more, rfl⟩ := onward
  exact ⟨past, op, later ++ more, by simp, rest⟩

/-- The call activates the pairing with the code of the invite; both were there. -/
def Binds (db db' : Db) (op : Op) (instanceId : Uuid) (pairing : PairingRequest) : Prop :=
  ∃ v ∈ db.invites, v.instanceId = instanceId ∧ pairing ∈ db.pairings ∧
    CodeAccepted instanceId pairing.requestId v.activationCodeHash db db' op

namespace Change

variable {db db' : Db} {op : Op}

theorem activated_of_activation {f : Faults} {pairing : PairingRequest} {invite : InstanceInvite}
    {requestId : Uuid} {activationHash actor : String} {credentialId : Uuid}
    {now auditedAt : DateTime}
    (h : Activation pairing invite requestId activationHash actor credentialId now auditedAt db db') :
    CodeAccepted invite.instanceId pairing.requestId invite.activationCodeHash db db'
      (.activate f requestId activationHash actor credentialId now auditedAt) where
  presents := ⟨h.pairing_id.symm, h.invite_code.symm⟩
  pending := ⟨pairing, h.pairing_mem, rfl, h.pairing_pending⟩
  active := ⟨_, (h.mem_pairings _).mpr (Or.inl rfl), rfl, rfl, rfl⟩

/-- An invite was there with the same instance and code, or the call makes it. -/
theorem invite_made (h : Change db op db') (v : InstanceInvite) (hv : v ∈ db'.invites) :
    (∃ v₀ ∈ db.invites, v₀.instanceId = v.instanceId ∧
      v₀.activationCodeHash = v.activationCodeHash) ∨
    InviteMade v.instanceId v.activationCodeHash db db' op := by
  cases h with
  | columns h => exact Or.inl ⟨v, h.invites ▸ hv, rfl, rfl⟩
  | invited h =>
    rcases (Table.mem_insert? _ _ _ _ h).mp hv with hv | made
    · exact Or.inl ⟨v, hv, rfl, rfl⟩
    · have new : v ∉ db.invites := fun old =>
        ((Table.insert?_eq_some _ _ _).mp h).1 v old (Or.inl (congrArg InstanceInvite.inviteId made))
      refine Or.inr ⟨?_, v, hv, new, rfl, rfl⟩
      rw [made]
      exact ⟨rfl, rfl⟩
  | cancelled mem id pending h =>
    rcases (mem_cancelled _ _ _ _ _ mem id h v).mp hv with cancelled | hv
    · rw [cancelled]
      exact Or.inl ⟨_, mem, rfl, rfl⟩
    · exact Or.inl ⟨v, hv.1, rfl, rfl⟩
  | cleaned => exact Or.inl ⟨v, hv, rfl, rfl⟩
  | requested h => exact Or.inl ⟨v, hv, rfl, rfl⟩
  | activated h =>
    rcases (h.mem_invites v).mp hv with bound | hv
    · rw [bound]
      exact Or.inl ⟨_, h.invite_mem, rfl, rfl⟩
    · exact Or.inl ⟨v, hv.1, rfl, rfl⟩
  | deleted h => exact Or.inl ⟨v, ((Table.mem_delete _ _ _).mp hv).1, rfl, rfl⟩

/-- A pairing was there with the same identifier and hashes, or the call makes it. -/
theorem pairing_made (h : Change db op db') (p : PairingRequest) (hp : p ∈ db'.pairings) :
    (∃ p₀ ∈ db.pairings, p₀.requestId = p.requestId ∧ p₀.tokenHash = p.tokenHash ∧
      p₀.pollingSecretHash = p.pollingSecretHash) ∨
    RequestMade p.requestId p.tokenHash p.pollingSecretHash db db' op := by
  cases h with
  | columns h => exact Or.inl ⟨p, h.pairings ▸ hp, rfl, rfl, rfl⟩
  | invited h => exact Or.inl ⟨p, hp, rfl, rfl, rfl⟩
  | cancelled mem id pending h => exact Or.inl ⟨p, hp, rfl, rfl, rfl⟩
  | cleaned => exact Or.inl ⟨p, (mem_cleanup _ _ _ _).1 hp, rfl, rfl, rfl⟩
  | requested h =>
    rcases (Table.mem_insert? _ _ _ _ h).mp hp with kept | made
    · exact Or.inl ⟨p, (mem_cleanup _ _ _ _).1 kept, rfl, rfl, rfl⟩
    · by_cases old : p ∈ db.pairings
      · exact Or.inl ⟨p, old, rfl, rfl, rfl⟩
      · refine Or.inr ⟨?_, p, hp, old, rfl, rfl, rfl⟩
        rw [made]
        exact ⟨rfl, rfl, rfl⟩
  | activated h =>
    rcases (h.mem_pairings p).mp hp with bound | hp
    · rw [bound]
      exact Or.inl ⟨_, h.pairing_mem, rfl, rfl, rfl⟩
    · exact Or.inl ⟨p, hp.1, rfl, rfl, rfl⟩
  | deleted h => exact Or.inl ⟨p, ((Table.mem_delete _ _ _).mp hp).1, rfl, rfl, rfl⟩

/-- A credential was there, or the call issues it for the pairing that it binds. -/
theorem credential_issued (h : Change db op db') (c : ClientCredential)
    (hc : c ∈ db'.credentials) :
    (∃ c₀ ∈ db.credentials, c₀.hostId = c.hostId ∧ c₀.tokenHash = c.tokenHash) ∨
    ∃ p, p.tokenHash = c.tokenHash ∧ Binds db db' op c.hostId p := by
  cases h with
  | columns h =>
    obtain ⟨c₀, hc₀, same⟩ := Table.mem_of_map_eq _ _ _ h.credentials c hc
    exact Or.inl ⟨c₀, hc₀, congrArg (fun x => x.2.1) same, congrArg (fun x => x.2.2.1) same⟩
  | invited h => exact Or.inl ⟨c, hc, rfl, rfl⟩
  | cancelled mem id pending h => exact Or.inl ⟨c, hc, rfl, rfl⟩
  | cleaned => exact Or.inl ⟨c, hc, rfl, rfl⟩
  | requested h => exact Or.inl ⟨c, hc, rfl, rfl⟩
  | activated h =>
    rcases (Table.mem_insert? _ _ _ _ h.credentials).mp hc with hc | issued
    · exact Or.inl ⟨c, hc, rfl, rfl⟩
    · rw [issued]
      exact Or.inr ⟨_, rfl, _, h.invite_mem, rfl, h.pairing_mem, activated_of_activation h⟩
  | deleted h => exact Or.inl ⟨c, ((Table.mem_delete _ _ _).mp hc).1, rfl, rfl⟩

/-- An active pairing was active already, or the call binds it. -/
theorem pairing_bound (h : Change db op db') (p : PairingRequest) (hp : p ∈ db'.pairings)
    (active : p.status = .active) : p ∈ db.pairings ∨ ∃ p₀ instanceId,
      p₀.requestId = p.requestId ∧ p₀.tokenHash = p.tokenHash ∧
      p₀.pollingSecretHash = p.pollingSecretHash ∧ p.instanceId = some instanceId ∧
      Binds db db' op instanceId p₀ := by
  cases h with
  | columns h => exact Or.inl (h.pairings ▸ hp)
  | invited h => exact Or.inl hp
  | cancelled mem id pending h => exact Or.inl hp
  | cleaned => exact Or.inl ((mem_cleanup _ _ _ _).1 hp)
  | requested h =>
    rcases (Table.mem_insert? _ _ _ _ h).mp hp with hp | made
    · exact Or.inl ((mem_cleanup _ _ _ _).1 hp)
    · rw [made] at active
      cases active
  | @activated f requestId activationHash actor credentialId now auditedAt pairing invite _ h =>
    rcases (h.mem_pairings p).mp hp with bound | hp
    · rw [bound]
      exact Or.inr ⟨pairing, invite.instanceId, rfl, rfl, rfl, rfl, invite, h.invite_mem, rfl,
        h.pairing_mem, activated_of_activation h⟩
    · exact Or.inl hp.1
  | deleted h => exact Or.inl ((Table.mem_delete _ _ _).mp hp).1

end Change

theorem invite_made (ops : List Op) (v : InstanceInvite) (hv : v ∈ (store.after ops).invites) :
    Happens ops (InviteMade v.instanceId v.activationCodeHash) := by
  induction ops using List.reverseRecOn generalizing v with
  | nil => cases hv
  | append_singleton past op ih =>
    rw [Machine.after_concat] at hv
    rcases (exec_change op _).invite_made v hv with ⟨v₀, hv₀, instance_, code⟩ | made
    · have earlier := ih v₀ hv₀
      rw [instance_, code] at earlier
      exact earlier.later [op]
    · refine ⟨past, op, [], rfl, ?_⟩
      rw [Machine.after_concat]
      exact made

theorem pairing_made (ops : List Op) (p : PairingRequest) (hp : p ∈ (store.after ops).pairings) :
    Happens ops (RequestMade p.requestId p.tokenHash p.pollingSecretHash) := by
  induction ops using List.reverseRecOn generalizing p with
  | nil => cases hp
  | append_singleton past op ih =>
    rw [Machine.after_concat] at hp
    rcases (exec_change op _).pairing_made p hp with ⟨p₀, hp₀, id, token, secret⟩ | made
    · have earlier := ih p₀ hp₀
      rw [id, token, secret] at earlier
      exact earlier.later [op]
    · refine ⟨past, op, [], rfl, ?_⟩
      rw [Machine.after_concat]
      exact made

/-- What a call binds was invited and requested before. -/
theorem Binds.enrolls {past : List Op} {op : Op} {instanceId : Uuid} {p : PairingRequest}
    (h : Binds (store.after past) (op.exec (store.after past)).2 op instanceId p) :
    ∃ activationHash,
      Enrolls (past ++ [op]) instanceId p.requestId p.tokenHash p.pollingSecretHash
        activationHash := by
  obtain ⟨v, hv, named, hp, activated⟩ := h
  have invited := invite_made past v hv
  rw [named] at invited
  refine ⟨v.activationCodeHash, past, op, [], rfl, ?_, invited, pairing_made past p hp⟩
  rw [Machine.after_concat]
  exact activated

/-- A credential is that of a device that asked to be paired, for the instance whose code was
presented. -/
theorem credential_enrolls (ops : List Op) (c : ClientCredential)
    (hc : c ∈ (store.after ops).credentials) : ∃ requestId pollingSecretHash activationHash,
      Enrolls ops c.hostId requestId c.tokenHash pollingSecretHash activationHash := by
  induction ops using List.reverseRecOn generalizing c with
  | nil => cases hc
  | append_singleton past op ih =>
    rw [Machine.after_concat] at hc
    rcases (exec_change op _).credential_issued c hc with ⟨c₀, hc₀, host, token⟩ | ⟨p, token, binds⟩
    · obtain ⟨requestId, pollingSecretHash, activationHash, enrolls⟩ := ih c₀ hc₀
      rw [host, token] at enrolls
      exact ⟨requestId, pollingSecretHash, activationHash, enrolls.mono (List.prefix_append _ _)⟩
    · obtain ⟨activationHash, enrolls⟩ := binds.enrolls
      rw [token] at enrolls
      exact ⟨_, _, activationHash, enrolls⟩

/-- The same of an active pairing. -/
theorem active_enrolls (ops : List Op) (p : PairingRequest) (hp : p ∈ (store.after ops).pairings)
    (active : p.status = .active) : ∃ instanceId activationHash, p.instanceId = some instanceId ∧
      Enrolls ops instanceId p.requestId p.tokenHash p.pollingSecretHash activationHash := by
  induction ops using List.reverseRecOn generalizing p with
  | nil => cases hp
  | append_singleton past op ih =>
    rw [Machine.after_concat] at hp
    rcases (exec_change op _).pairing_bound p hp active with
      earlier | ⟨p₀, instanceId, id, token, secret, named, binds⟩
    · obtain ⟨instanceId, activationHash, named, enrolls⟩ := ih p earlier active
      exact ⟨instanceId, activationHash, named, enrolls.mono (List.prefix_append _ _)⟩
    · obtain ⟨activationHash, enrolls⟩ := binds.enrolls
      rw [id, token, secret] at enrolls
      exact ⟨instanceId, activationHash, named, enrolls⟩

/-- A host is reported for by a device that was paired with it. -/
theorem token_enrolls (ops : List Op) (tokenHash : String) (hostId : Uuid)
    (h : hostForToken tokenHash (store.after ops) = some hostId) :
    ∃ requestId pollingSecretHash activationHash,
      Enrolls ops hostId requestId tokenHash pollingSecretHash activationHash := by
  obtain ⟨c, found, named⟩ := Option.map_eq_some_iff.mp h
  have kept := List.find?_some found
  simp only [Bool.and_eq_true, decide_eq_true_eq] at kept
  have enrolls := credential_enrolls ops c (List.mem_of_find?_eq_some found)
  rw [named, kept.1.1] at enrolls
  exact enrolls

/-- Who polls an active pairing knows the secret of the device that asked for it. -/
theorem poll_enrolls (ops : List Op) (requestId : Uuid) (secretHash : String) (now : DateTime)
    (text : Option String)
    (h : pairingStatus requestId secretHash now (store.after ops) = some (.active, text)) :
    ∃ instanceId tokenHash activationHash, text = some instanceId.toText ∧
      Enrolls ops instanceId requestId tokenHash secretHash activationHash := by
  obtain ⟨p, found, told⟩ := Option.map_eq_some_iff.mp h
  have kept := List.find?_some found
  simp only [Bool.and_eq_true, decide_eq_true_eq] at kept
  have active : p.status = .active := by
    split at told
    · split_ifs at told <;> cases told
    · assumption
    · cases told
  obtain ⟨instanceId, activationHash, named, enrolls⟩ :=
    active_enrolls ops p (List.mem_of_find?_eq_some found) active
  rw [kept.1, kept.2] at enrolls
  refine ⟨instanceId, p.tokenHash, activationHash, ?_, enrolls⟩
  rw [active, named] at told
  exact (Prod.mk.inj told).2.symm

end HostMonitoring.Store
