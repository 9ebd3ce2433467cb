import HostMonitoring.Store.Binding

namespace HostMonitoring.Store

open HostMonitoring.Framework
open HostMonitoring.Framework.Tx
open HostMonitoring.Protocol

/-- An active pairing with its invite, its host and its credential. -/
structure Linked (db : Db) (p : PairingRequest) (v : InstanceInvite) (h : MonitoredHost)
    (c : ClientCredential) : Prop where
  pairing_mem : p ∈ db.pairings
  invite_mem : v ∈ db.invites
  host_mem : h ∈ db.hosts
  credential_mem : c ∈ db.credentials
  bound : p.BoundTo v
  host : h.hostId = v.instanceId
  credential : c.hostId = h.hostId ∧ c.tokenHash = p.tokenHash

/-- Active pairings, active invites, hosts and credentials correspond one to one,
and what is not active has neither host nor credential. -/
structure Correspondence (db : Db) : Prop where
  pairing : ∀ p ∈ db.pairings, p.status = .active → ∃ v h c, Linked db p v h c
  invite : ∀ v ∈ db.invites, v.status = .active → ∃ p h c, Linked db p v h c
  host : ∀ h ∈ db.hosts, ∃ p v c, Linked db p v h c
  credential : ∀ c ∈ db.credentials, ∃ p v h, Linked db p v h c
  one : ∀ p v h c p' v' h' c', Linked db p v h c → Linked db p' v' h' c' →
    (p.inviteId = p'.inviteId ∨ p.instanceId = p'.instanceId ∨ p.tokenHash = p'.tokenHash) →
    p = p' ∧ v = v' ∧ h = h' ∧ c = c'
  idle_invite : ∀ v ∈ db.invites, v.status ≠ .active →
    (∀ h ∈ db.hosts, h.hostId ≠ v.instanceId) ∧ ∀ c ∈ db.credentials, c.hostId ≠ v.instanceId
  idle_pairing : ∀ p ∈ db.pairings, p.status ≠ .active →
    p.inviteId = none ∧ p.instanceId = none ∧ ∀ c ∈ db.credentials, c.tokenHash ≠ p.tokenHash

namespace Bound

variable {past : List Op} {db : Db}

theorem linked_invite (b : Bound past db) (v : InstanceInvite) (hv : v ∈ db.invites)
    (ha : v.status = .active) : ∃ p h c, Linked db p v h c := by
  obtain ⟨⟨h, hm, hid⟩, p, hp, hbound, c, hc, hch, hct⟩ := b.invite_active v hv ha
  exact ⟨p, h, c, hp, hv, hm, hc, hbound, hid, hch.trans hid.symm, hct⟩

/-- Whatever names the instance of an active invite belongs to that invite's four rows. -/
theorem linked_pairing (b : Bound past db) (p : PairingRequest) (hp : p ∈ db.pairings)
    (ha : p.status = .active) : ∃ v h c, Linked db p v h c := by
  obtain ⟨v, hv, hbound⟩ := b.pairing_active p hp ha
  obtain ⟨p', h, c, link⟩ := b.linked_invite v hv hbound.2.1
  have same : p = p' := b.pairing_unique p p' hp link.pairing_mem v.instanceId ha link.bound.1
    hbound.2.2.2 link.bound.2.2.2
  exact ⟨v, h, c, same ▸ link⟩

theorem linked_host (b : Bound past db) (h : MonitoredHost) (hm : h ∈ db.hosts) :
    ∃ p v c, Linked db p v h c := by
  obtain ⟨_, v, hv, ha, hi⟩ := b.host_active h hm
  obtain ⟨p, h', c, link⟩ := b.linked_invite v hv ha
  have same : h' = h := db.hosts.eq_of_clash h' h link.host_mem hm (link.host.trans hi)
  exact ⟨p, v, c, same ▸ link⟩

theorem linked_credential (b : Bound past db) (c : ClientCredential) (hc : c ∈ db.credentials) :
    ∃ p v h, Linked db p v h c := by
  obtain ⟨_, p, hp, ha, _, hct⟩ := b.credential_active c hc
  obtain ⟨v, h, c', link⟩ := b.linked_pairing p hp ha
  have same : c' = c := db.credentials.eq_of_clash c' c link.credential_mem hc
    (Or.inr (link.credential.2.trans hct))
  exact ⟨p, v, h, same ▸ link⟩

theorem linked_one (b : Bound past db) (p : PairingRequest) (v : InstanceInvite)
    (h : MonitoredHost) (c : ClientCredential) (p' : PairingRequest) (v' : InstanceInvite)
    (h' : MonitoredHost) (c' : ClientCredential) (link : Linked db p v h c)
    (link' : Linked db p' v' h' c')
    (shared : p.inviteId = p'.inviteId ∨ p.instanceId = p'.instanceId ∨
      p.tokenHash = p'.tokenHash) : p = p' ∧ v = v' ∧ h = h' ∧ c = c' := by
  have pairings : p = p' := by
    obtain he | he | he := shared
    · refine db.pairings.eq_of_clash p p' link.pairing_mem link'.pairing_mem
        (Or.inr (Or.inr (Or.inr ⟨he, ?_⟩)))
      rw [link.bound.2.2.1]
      exact Option.some_ne_none _
    · exact b.pairing_unique p p' link.pairing_mem link'.pairing_mem v.instanceId link.bound.1
        link'.bound.1 link.bound.2.2.2 (he ▸ link.bound.2.2.2)
    · exact db.pairings.eq_of_clash p p' link.pairing_mem link'.pairing_mem (Or.inr (Or.inl he))
  subst pairings
  have instances : v.instanceId = v'.instanceId :=
    Option.some.inj (link.bound.2.2.2.symm.trans link'.bound.2.2.2)
  have invites : v = v' := b.one_invite v link.invite_mem v' link'.invite_mem instances
  have hosts : h = h' := db.hosts.eq_of_clash h h' link.host_mem link'.host_mem
    (link.host.trans (instances.trans link'.host.symm))
  have credentials : c = c' := db.credentials.eq_of_clash c c' link.credential_mem
    link'.credential_mem (Or.inr (link.credential.2.trans link'.credential.2.symm))
  exact ⟨rfl, invites, hosts, credentials⟩

theorem correspondence (b : Bound past db) : Correspondence db where
  pairing := b.linked_pairing
  invite := b.linked_invite
  host := b.linked_host
  credential := b.linked_credential
  one := b.linked_one
  idle_invite v hv hidle := by
    have noHost : ∀ h ∈ db.hosts, h.hostId ≠ v.instanceId := by
      intro h hm he
      obtain ⟨_, v', hv', ha', hi⟩ := b.host_active h hm
      rw [b.one_invite v hv v' hv' (he.symm.trans hi.symm)] at hidle
      exact hidle ha'
    refine ⟨noHost, fun c hc he => ?_⟩
    obtain ⟨p, v', h, link⟩ := b.linked_credential c hc
    exact noHost h link.host_mem (link.credential.1.symm.trans he)
  idle_pairing p hp hidle := by
    obtain ⟨_, hinv, hinst⟩ := b.pairing_pending p hp hidle
    refine ⟨hinv, hinst, fun c hc he => ?_⟩
    obtain ⟨_, p', hp', ha', _, hct⟩ := b.credential_active c hc
    have same : p' = p := db.pairings.eq_of_clash p' p hp' hp (Or.inr (Or.inl (hct.trans he)))
    exact hidle (same ▸ ha')

/-- A token opens the host of the one active pairing that brought it. -/
theorem hostForToken_eq (b : Bound past db) (tokenHash : String) (i : Uuid) :
    hostForToken tokenHash db = some i ↔ ∃ p ∈ db.pairings, p.status = .active ∧
      p.tokenHash = tokenHash ∧ p.instanceId = some i := by
  unfold hostForToken
  rw [Option.map_eq_some_iff]
  constructor
  · rintro ⟨c, hc, rfl⟩
    obtain ⟨hm, hp⟩ := Table.mem_of_find? _ _ _ hc
    simp only [Bool.and_eq_true, decide_eq_true_eq] at hp
    obtain ⟨_, p, hpm, ha, hi, hct⟩ := b.credential_active c hm
    exact ⟨p, hpm, ha, hct.trans hp.1.1, hi⟩
  · rintro ⟨p, hp, ha, rfl, hi⟩
    obtain ⟨v, h, c, link⟩ := b.linked_pairing p hp ha
    have hid : v.instanceId = i := Option.some.inj (link.bound.2.2.2.symm.trans hi)
    refine ⟨c, ?_, link.credential.1.trans (link.host.trans hid)⟩
    apply Table.find?_eq_some _ _ _ link.credential_mem
    · have host : (db.hosts.any fun h => decide (h.hostId = c.hostId) &&
          decide (h.lifecycleStatus = .active)) = true := by
        refine (Table.any_eq_true _ _).mpr ⟨h, link.host_mem, ?_⟩
        simp [link.credential.1, (b.host_active h link.host_mem).1]
      simp [link.credential.2, (b.credential_active c link.credential_mem).1, host]
    · intro c' hc' hp'
      simp only [Bool.and_eq_true, decide_eq_true_eq] at hp'
      exact db.credentials.eq_of_clash c' c hc' link.credential_mem
        (Or.inr (hp'.1.1.trans link.credential.2.symm))

/-- No key refuses the rows that activating a pending pairing with a pending
invite writes, and these are afterwards there, linked to each other. -/
theorem activate_succeeds (b : Bound past db) (p : PairingRequest) (v : InstanceInvite)
    (actor : String) (credentialId : Uuid) (now auditedAt : DateTime) (hp : p ∈ db.pairings)
    (hv : v ∈ db.invites) (pending : p.status = .pending) (unexpired : now < p.expiresAt)
    (invited : v.status = .pending) (fresh : credentialId ∉ drawn past) :
    ∃ db', activate .none p.requestId v.activationCodeHash actor credentialId now auditedAt db =
      (.ok (.active v.instanceId), db') ∧
      Linked db' (bindPairing v.inviteId v.instanceId now p) (bindInvite now v)
        (registeredHost v p now)
        { credentialId, hostId := v.instanceId, tokenHash := p.tokenHash, issuedAt := now } := by
  have idleInvite := b.correspondence.idle_invite v hv (by simp [invited])
  have idlePairing := b.correspondence.idle_pairing p hp (by simp [pending])
  obtain ⟨hosts, hhosts⟩ := Option.ne_none_iff_exists'.mp fun hn => by
    obtain ⟨h, hm, hclash⟩ := (db.hosts.insert?_eq_none (registeredHost v p now)).mp hn
    exact idleInvite.1 h hm hclash
  obtain ⟨credentials, hcredentials⟩ := Option.ne_none_iff_exists'.mp fun hn => by
    obtain ⟨c, hc, hid | htoken⟩ := (db.credentials.insert?_eq_none
      { credentialId, hostId := v.instanceId, tokenHash := p.tokenHash, issuedAt := now }).mp hn
    · have drawnBefore := b.credential_drawn c hc
      rw [hid] at drawnBefore
      exact fresh drawnBefore
    · exact idlePairing.2.2 c hc htoken
  have onePairing : ∀ r ∈ db.pairings, decide (r.requestId = p.requestId) = true → r = p :=
    fun r hr hid => db.pairings.eq_of_clash r p hr hp (Or.inl (of_decide_eq_true hid))
  have oneInvite : ∀ r ∈ db.invites, decide (r.inviteId = v.inviteId) = true → r = v :=
    fun r hr hid => db.invites.eq_of_clash r v hr hv (Or.inl (of_decide_eq_true hid))
  obtain ⟨pairings, hpairings⟩ := db.pairings.exists_update?_one
    (fun r => decide (r.requestId = p.requestId)) (bindPairing v.inviteId v.instanceId now) p hp
    (Or.inl rfl) onePairing
    (by
      rintro r hr hne (hid | htoken | hsecret | hinvite)
      · exact hne (db.pairings.eq_of_clash r p hr hp (Or.inl hid.symm))
      · exact hne (db.pairings.eq_of_clash r p hr hp (Or.inr (Or.inl htoken.symm)))
      · exact hne (db.pairings.eq_of_clash r p hr hp (Or.inr (Or.inr (Or.inl hsecret.symm))))
      · have hinv : r.inviteId = some v.inviteId := hinvite.1.symm
        have active : r.status = .active := by
          by_contra hidle
          rw [(b.pairing_pending r hr hidle).2.1] at hinv
          cases hinv
        obtain ⟨v', hv', hbound⟩ := b.pairing_active r hr active
        have hid : v'.inviteId = v.inviteId :=
          Option.some.inj (hbound.2.2.1.symm.trans hinv)
        have same : v' = v := db.invites.eq_of_clash v' v hv' hv (Or.inl hid)
        rw [← same, hbound.2.1] at invited
        cases invited)
  obtain ⟨invites, hinvites⟩ := db.invites.exists_update?_one
    (fun r => decide (r.inviteId = v.inviteId)) (bindInvite now) v hv (Or.inl rfl) oneInvite
    (by
      rintro r hr hne (hid | hcode | hpending)
      · exact hne (db.invites.eq_of_clash r v hr hv (Or.inl hid.symm))
      · exact hne (db.invites.eq_of_clash r v hr hv (Or.inr (Or.inl hcode.symm)))
      · cases hpending.1)
  have writes := activate_writes p v actor credentialId now auditedAt hosts credentials pairings
    invites db hp hv pending unexpired invited hhosts hcredentials hpairings hinvites
  refine ⟨_, writes, ⟨?_, ?_, ?_, ?_, ⟨rfl, rfl, rfl, rfl⟩, rfl, rfl, rfl⟩⟩
  · exact (Table.mem_update?_one _ _ _ _ p _ hp (decide_eq_true rfl) onePairing hpairings).mpr
      (Or.inl rfl)
  · exact (Table.mem_update?_one _ _ _ _ v _ hv (decide_eq_true rfl) oneInvite hinvites).mpr
      (Or.inl rfl)
  · exact (Table.mem_insert? _ _ _ _ hhosts).mpr (Or.inr rfl)
  · exact (Table.mem_insert? _ _ _ _ hcredentials).mpr (Or.inr rfl)

end Bound

/-- In every state the store can reach, active pairings, active invites, hosts and
credentials correspond one to one, a token opens the host of its active pairing
and no other, and a pending unexpired pairing can be activated with any pending
invite: the four rows are then there, linked, and the token opens the new host. -/
theorem pairing_binding_bijective (ops : List Op) (fresh : Fresh ops) :
    Correspondence (store.after ops) ∧
    (∀ tokenHash i, hostForToken tokenHash (store.after ops) = some i ↔
      ∃ p ∈ (store.after ops).pairings, p.status = .active ∧ p.tokenHash = tokenHash ∧
        p.instanceId = some i) ∧
    ∀ p ∈ (store.after ops).pairings, ∀ v ∈ (store.after ops).invites, ∀ actor credentialId now
      auditedAt, p.status = .pending → v.status = .pending → now < p.expiresAt →
      Fresh (ops ++ [.activate .none p.requestId v.activationCodeHash actor credentialId now
        auditedAt]) →
      ∃ db', activate .none p.requestId v.activationCodeHash actor credentialId now auditedAt
          (store.after ops) = (.ok (.active v.instanceId), db') ∧
        Linked db' (bindPairing v.inviteId v.instanceId now p) (bindInvite now v)
          (registeredHost v p now)
          { credentialId, hostId := v.instanceId, tokenHash := p.tokenHash, issuedAt := now } ∧
        Correspondence db' ∧ hostForToken p.tokenHash db' = some v.instanceId := by
  have b := bound_after ops fresh
  refine ⟨b.correspondence, b.hostForToken_eq, ?_⟩
  intro p hp v hv actor credentialId now auditedAt pending invited unexpired freshId
  have undrawn : credentialId ∉ drawn ops := fun hd =>
    (fresh_append _ _ freshId).2.1 credentialId hd (by simp [drawn, Op.uuids])
  obtain ⟨db', answer, linked⟩ := b.activate_succeeds p v actor credentialId now auditedAt hp hv
    pending unexpired invited undrawn
  have after := bound_after _ freshId
  rw [store.after_concat] at after
  have state : (Op.exec (.activate .none p.requestId v.activationCodeHash actor credentialId now
      auditedAt) (store.after ops)).2 = db' := congrArg Prod.snd answer
  change Bound _ (Op.exec _ (store.after ops)).2 at after
  rw [state] at after
  refine ⟨db', answer, linked, after.correspondence, ?_⟩
  exact (after.hostForToken_eq p.tokenHash v.instanceId).mpr
    ⟨_, linked.pairing_mem, rfl, rfl, rfl⟩

theorem pairing_binding_bijective_laptop :
    Correspondence (store.after laptopActive) ∧
    ∃ p v db', activate .none ⟨3⟩ "code hash" "admin" ⟨4⟩ noon noon (store.after laptopPaired) =
        (.ok (.active ⟨2⟩), db') ∧
      Linked db' (bindPairing v.inviteId ⟨2⟩ noon p) (bindInvite noon v) (registeredHost v p noon)
        { credentialId := ⟨4⟩, hostId := ⟨2⟩, tokenHash := "token", issuedAt := noon } ∧
      hostForToken "token" db' = some ⟨2⟩ := by
  have fresh : Fresh laptopActive := (fresh_append laptopActive _ fresh_laptopReported).1
  obtain ⟨p, hp, hid, htoken, pending, unexpired⟩ : ∃ p ∈ (store.after laptopPaired).pairings.rows,
      p.requestId = ⟨3⟩ ∧ p.tokenHash = "token" ∧ p.status = .pending ∧ noon < p.expiresAt := by
    decide +kernel
  obtain ⟨v, hv, hcode, hinst, invited⟩ : ∃ v ∈ (store.after laptopPaired).invites.rows,
      v.activationCodeHash = "code hash" ∧ v.instanceId = ⟨2⟩ ∧ v.status = .pending := by
    decide +kernel
  have freshId : Fresh (laptopPaired ++ [.activate .none p.requestId v.activationCodeHash "admin" ⟨4⟩
      noon noon]) := by
    rw [hid, hcode]
    exact fresh
  obtain ⟨db', answer, linked, _, opens⟩ := (pairing_binding_bijective laptopPaired
    (fresh_append _ _ fresh).1).2.2 p hp v hv "admin" ⟨4⟩ noon noon pending invited unexpired freshId
  rw [hid, hcode, hinst] at answer
  rw [hinst, htoken] at linked opens
  exact ⟨(pairing_binding_bijective laptopActive fresh).1, p, v, db', answer, linked, opens⟩

end HostMonitoring.Store
