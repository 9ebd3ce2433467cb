import HostMonitoring.Store.Changes

namespace HostMonitoring.Store

open HostMonitoring.Framework
open HostMonitoring.Protocol

/-- The active pairing that an active invite was used for. -/
def PairingRequest.BoundTo (p : PairingRequest) (v : InstanceInvite) : Prop :=
  p.status = .active ∧ v.status = .active ∧ p.inviteId = some v.inviteId ∧
    p.instanceId = some v.instanceId

/-- How the four tables hang together after the operations `past`. -/
structure Bound (past : List Op) (db : Db) : Prop where
  invite_drawn : ∀ v ∈ db.invites, v.inviteId ∈ drawn past ∧ v.instanceId ∈ drawn past
  invite_code : ∀ v ∈ db.invites, v.activationCodeHash ∈ codes past
  pairing_drawn : ∀ p ∈ db.pairings, p.requestId ∈ drawn past
  credential_drawn : ∀ c ∈ db.credentials, c.credentialId ∈ drawn past
  one_invite : ∀ v ∈ db.invites, ∀ v' ∈ db.invites, v.instanceId = v'.instanceId → v = v'
  pairing_active : ∀ p ∈ db.pairings, p.status = .active → ∃ v ∈ db.invites, p.BoundTo v
  pairing_pending : ∀ p ∈ db.pairings, p.status ≠ .active →
    p.status = .pending ∧ p.inviteId = none ∧ p.instanceId = none
  invite_active : ∀ v ∈ db.invites, v.status = .active →
    HasHost db v.instanceId ∧ ∃ p ∈ db.pairings, p.BoundTo v ∧
      ∃ c ∈ db.credentials, c.hostId = v.instanceId ∧ c.tokenHash = p.tokenHash
  host_active : ∀ h ∈ db.hosts, h.lifecycleStatus = .active ∧
    ∃ v ∈ db.invites, v.status = .active ∧ v.instanceId = h.hostId
  credential_active : ∀ c ∈ db.credentials, c.revokedAt = none ∧
    ∃ p ∈ db.pairings, p.status = .active ∧ p.instanceId = some c.hostId ∧
      p.tokenHash = c.tokenHash
  report_host : ∀ r ∈ db.reports, HasHost db r.hostId
  hourly_host : ∀ r ∈ db.hourly, HasHost db r.hostId

theorem drawn_concat (past : List Op) (op : Op) : drawn (past ++ [op]) = drawn past ++ op.uuids := by
  simp [drawn]

theorem codes_concat (past : List Op) (op : Op) : codes (past ++ [op]) = codes past ++ op.codes := by
  simp [codes]

theorem mem_drawn_concat (past : List Op) (op : Op) (u : Uuid) (h : u ∈ drawn past) :
    u ∈ drawn (past ++ [op]) := by
  rw [drawn_concat]
  exact List.mem_append_left _ h

theorem mem_codes_concat (past : List Op) (op : Op) (c : String) (h : c ∈ codes past) :
    c ∈ codes (past ++ [op]) := by
  rw [codes_concat]
  exact List.mem_append_left _ h

theorem bound_empty : Bound [] .empty := by
  constructor
  all_goals
    intro x hx
    exact absurd hx (Table.not_mem_empty x)

namespace Bound

variable {past : List Op} {db db' : Db}

/-- An invite, the pairing bound to it and that pairing's credential are unique. -/
theorem pairing_unique (b : Bound past db) (p p' : PairingRequest) (hp : p ∈ db.pairings)
    (hp' : p' ∈ db.pairings) (i : Uuid) (ha : p.status = .active) (ha' : p'.status = .active)
    (hi : p.instanceId = some i) (hi' : p'.instanceId = some i) : p = p' := by
  obtain ⟨v, hv, _, _, hinv, hinst⟩ := b.pairing_active p hp ha
  obtain ⟨v', hv', _, _, hinv', hinst'⟩ := b.pairing_active p' hp' ha'
  have same : v = v' := by
    apply b.one_invite v hv v' hv'
    rw [hi] at hinst
    rw [hi'] at hinst'
    rw [← Option.some.inj hinst, ← Option.some.inj hinst']
  subst same
  refine db.pairings.eq_of_clash p p' hp hp' (Or.inr (Or.inr (Or.inr ⟨?_, ?_⟩)))
  · rw [hinv, hinv']
  · rw [hinv]
    exact Option.some_ne_none _

theorem columns (b : Bound past db) (op : Op) (h : ColumnsOnly db db') :
    Bound (past ++ [op]) db' where
  invite_drawn v hv := by
    rw [h.invites] at hv
    exact (b.invite_drawn v hv).imp (mem_drawn_concat _ _ _) (mem_drawn_concat _ _ _)
  invite_code v hv := mem_codes_concat _ _ _ (b.invite_code v (h.invites ▸ hv))
  pairing_drawn p hp := mem_drawn_concat _ _ _ (b.pairing_drawn p (h.pairings ▸ hp))
  credential_drawn c hc := by
    obtain ⟨c₀, hc₀, he⟩ := Table.mem_of_map_eq _ _ _ h.credentials c hc
    have hid : c₀.credentialId = c.credentialId := congrArg Prod.fst he
    rw [← hid]
    exact mem_drawn_concat _ _ _ (b.credential_drawn c₀ hc₀)
  one_invite v hv v' hv' := b.one_invite v (h.invites ▸ hv) v' (h.invites ▸ hv')
  pairing_active p hp ha := by
    rw [h.invites]
    exact b.pairing_active p (h.pairings ▸ hp) ha
  pairing_pending p hp := b.pairing_pending p (h.pairings ▸ hp)
  invite_active v hv ha := by
    obtain ⟨hh, p, hp, hbound, c, hc, hch, hct⟩ := b.invite_active v (h.invites ▸ hv) ha
    obtain ⟨c', hc', he⟩ := Table.mem_of_map_eq _ _ _ h.credentials.symm c hc
    have hid : c'.hostId = c.hostId := congrArg (fun x => x.2.1) he
    have htok : c'.tokenHash = c.tokenHash := congrArg (fun x => x.2.2.1) he
    exact ⟨(h.hasHost _).mpr hh, p, h.pairings.symm ▸ hp, hbound, c', hc', hid.trans hch,
      htok.trans hct⟩
  host_active host hm := by
    obtain ⟨host₀, hm₀, he⟩ := Table.mem_of_map_eq _ _ _ h.hosts host hm
    have hid : host₀.hostId = host.hostId := congrArg Prod.fst he
    have hst : host₀.lifecycleStatus = host.lifecycleStatus := congrArg Prod.snd he
    rw [h.invites, ← hid, ← hst]
    exact b.host_active host₀ hm₀
  credential_active c hc := by
    obtain ⟨c₀, hc₀, he⟩ := Table.mem_of_map_eq _ _ _ h.credentials c hc
    have hid : c₀.hostId = c.hostId := congrArg (fun x => x.2.1) he
    have htok : c₀.tokenHash = c.tokenHash := congrArg (fun x => x.2.2.1) he
    have hrev : c₀.revokedAt = c.revokedAt := congrArg (fun x => x.2.2.2) he
    rw [h.pairings, ← hid, ← htok, ← hrev]
    exact b.credential_active c₀ hc₀
  report_host r hr := by
    rw [h.hasHost]
    obtain ⟨r₀, hr₀, he⟩ | hh := h.reports r hr
    · rw [← he]
      exact b.report_host r₀ hr₀
    · exact hh
  hourly_host r hr := by
    rw [h.hasHost]
    obtain ⟨r₀, hr₀, he⟩ | hh := h.hourly r hr
    · rw [← he]
      exact b.hourly_host r₀ hr₀
    · exact hh

/-- Only the invite table changes, and its active rows stay as they are. -/
theorem invites_changed (b : Bound past db) (op : Op) (invites : Table InstanceInvite)
    (audit : List AuditEvent)
    (hdrawn : ∀ v ∈ invites, v.inviteId ∈ drawn (past ++ [op]) ∧ v.instanceId ∈ drawn (past ++ [op]))
    (hcode : ∀ v ∈ invites, v.activationCodeHash ∈ codes (past ++ [op]))
    (hone : ∀ v ∈ invites, ∀ v' ∈ invites, v.instanceId = v'.instanceId → v = v')
    (hactive : ∀ v, v.status = .active → (v ∈ invites ↔ v ∈ db.invites)) :
    Bound (past ++ [op]) { db with invites, audit } where
  invite_drawn := hdrawn
  invite_code := hcode
  pairing_drawn p hp := mem_drawn_concat _ _ _ (b.pairing_drawn p hp)
  credential_drawn c hc := mem_drawn_concat _ _ _ (b.credential_drawn c hc)
  one_invite := hone
  pairing_active p hp ha := by
    obtain ⟨v, hv, hbound⟩ := b.pairing_active p hp ha
    exact ⟨v, (hactive v hbound.2.1).mpr hv, hbound⟩
  pairing_pending := b.pairing_pending
  invite_active v hv ha := b.invite_active v ((hactive v ha).mp hv) ha
  host_active h hm := by
    obtain ⟨hst, v, hv, ha, hi⟩ := b.host_active h hm
    exact ⟨hst, v, (hactive v ha).mpr hv, ha, hi⟩
  credential_active := b.credential_active
  report_host := b.report_host
  hourly_host := b.hourly_host

/-- Only the pairing table changes, and its active rows stay as they are. -/
theorem pairings_changed (b : Bound past db) (op : Op) (pairings : Table PairingRequest)
    (hdrawn : ∀ p ∈ pairings, p.requestId ∈ drawn (past ++ [op]))
    (hpending : ∀ p ∈ pairings, p.status ≠ .active →
      p.status = .pending ∧ p.inviteId = none ∧ p.instanceId = none)
    (hactive : ∀ p, p.status = .active → (p ∈ pairings ↔ p ∈ db.pairings)) :
    Bound (past ++ [op]) { db with pairings } where
  invite_drawn v hv := (b.invite_drawn v hv).imp (mem_drawn_concat _ _ _) (mem_drawn_concat _ _ _)
  invite_code v hv := mem_codes_concat _ _ _ (b.invite_code v hv)
  pairing_drawn := hdrawn
  credential_drawn c hc := mem_drawn_concat _ _ _ (b.credential_drawn c hc)
  one_invite := b.one_invite
  pairing_active p hp ha := b.pairing_active p ((hactive p ha).mp hp) ha
  pairing_pending := hpending
  invite_active v hv ha := by
    obtain ⟨hh, p, hp, hbound, hc⟩ := b.invite_active v hv ha
    exact ⟨hh, p, (hactive p hbound.1).mpr hp, hbound, hc⟩
  host_active := b.host_active
  credential_active c hc := by
    obtain ⟨hrev, p, hp, ha, hi⟩ := b.credential_active c hc
    exact ⟨hrev, p, (hactive p ha).mpr hp, ha, hi⟩
  report_host := b.report_host
  hourly_host := b.hourly_host

theorem cleanup_active {ties : Uuid → Nat} (now deniedCutoff : DateTime) (pairings : Table PairingRequest)
    (p : PairingRequest) (ha : p.status = .active) :
    p ∈ cleanup ties now deniedCutoff pairings ↔ p ∈ pairings := by
  refine ⟨(mem_cleanup now deniedCutoff pairings p).1, fun hp => ?_⟩
  exact (mem_cleanup now deniedCutoff pairings p).2 hp (by simp [PairingRequest.disposable, ha])

theorem cleaned (b : Bound past db) (op : Op) (ties : Uuid → Nat) (now deniedCutoff : DateTime) :
    Bound (past ++ [op]) { db with pairings := cleanup ties now deniedCutoff db.pairings } := by
  have kept (p : PairingRequest) : p ∈ cleanup ties now deniedCutoff db.pairings → p ∈ db.pairings :=
    (mem_cleanup now deniedCutoff db.pairings p).1
  refine b.pairings_changed op _ ?_ ?_ (cleanup_active now deniedCutoff db.pairings)
  · exact fun p hp => mem_drawn_concat _ _ _ (b.pairing_drawn p (kept p hp))
  · exact fun p hp => b.pairing_pending p (kept p hp)

theorem requested (b : Bound past db) (f : Faults) (request : ClientPairingRequest)
    (requestId requestedHostId : Uuid) (now createdAt deniedCutoff : DateTime)
    (pairings : Table PairingRequest)
    (h : (cleanup f.ties now deniedCutoff db.pairings).insert?
      (pendingPairing request requestId requestedHostId createdAt) = some pairings) :
    Bound (past ++ [.createPairing f request requestId now createdAt]) { db with pairings } := by
  have clean := b.cleaned (.createPairing f request requestId now createdAt) f.ties now deniedCutoff
  have mem (p : PairingRequest) := Table.mem_insert? _ _ _ p h
  refine b.pairings_changed _ _ ?_ ?_ ?_
  · intro p hp
    obtain hp | rfl := (mem p).mp hp
    · exact clean.pairing_drawn p hp
    · rw [drawn_concat]
      exact List.mem_append_right _ (by simp [Op.uuids, pendingPairing])
  · intro p hp hne
    obtain hp | rfl := (mem p).mp hp
    · exact clean.pairing_pending p hp hne
    · exact ⟨rfl, rfl, rfl⟩
  · intro p ha
    rw [mem, cleanup_active _ _ _ p ha]
    constructor
    · rintro (hp | rfl)
      · exact hp
      · cases ha
    · exact Or.inl

theorem invited (b : Bound past db) (f : Faults) (displayName actor : String)
    (inviteId instanceId : Uuid) (activationCode activationHash : String)
    (createdAt auditedAt : DateTime) (invites : Table InstanceInvite) (audit : List AuditEvent)
    (fresh : instanceId ∉ drawn past)
    (h : db.invites.insert? (pendingInvite inviteId instanceId activationHash displayName
      createdAt) = some invites) :
    Bound (past ++ [.createInvite f displayName actor inviteId instanceId activationCode
      activationHash createdAt auditedAt]) { db with invites, audit } := by
  have mem (v : InstanceInvite) := Table.mem_insert? _ _ _ v h
  have old : ∀ v ∈ db.invites, v.instanceId ≠ instanceId :=
    fun v hv he => fresh (he ▸ (b.invite_drawn v hv).2)
  refine b.invites_changed _ _ _ ?_ ?_ ?_ ?_
  · intro v hv
    rw [drawn_concat]
    obtain hv | rfl := (mem v).mp hv
    · exact (b.invite_drawn v hv).imp (List.mem_append_left _) (List.mem_append_left _)
    · simp [Op.uuids, pendingInvite]
  · intro v hv
    rw [codes_concat]
    obtain hv | rfl := (mem v).mp hv
    · exact List.mem_append_left _ (b.invite_code v hv)
    · simp [Op.codes, pendingInvite]
  · intro v hv v' hv' he
    rcases (mem v).mp hv with hv | rfl <;> rcases (mem v').mp hv' with hv' | rfl
    · exact b.one_invite v hv v' hv' he
    · exact absurd he (old v hv)
    · exact absurd he.symm (old v' hv')
    · rfl
  · intro v ha
    rw [mem]
    constructor
    · rintro (hv | rfl)
      · exact hv
      · cases ha
    · exact Or.inl

theorem cancelled (b : Bound past db) (op : Op) (inviteId : Uuid) (cancelledAt : DateTime)
    (row : InstanceInvite) (invites : Table InstanceInvite) (audit : List AuditEvent)
    (hm : row ∈ db.invites) (hid : row.inviteId = inviteId) (hp : row.status = .pending)
    (h : db.invites.update? (fun r => decide (r.inviteId = inviteId))
      (fun r => { r with status := .cancelled, cancelledAt := some cancelledAt }) = some invites) :
    Bound (past ++ [op]) { db with invites, audit } := by
  have mem := mem_cancelled _ _ _ _ row hm hid h
  refine b.invites_changed op _ _ ?_ ?_ ?_ ?_
  · intro v hv
    have hv₀ : ∃ v₀ ∈ db.invites, v₀.inviteId = v.inviteId ∧ v₀.instanceId = v.instanceId := by
      obtain rfl | ⟨hv, _⟩ := (mem v).mp hv
      · exact ⟨row, hm, rfl, rfl⟩
      · exact ⟨v, hv, rfl, rfl⟩
    obtain ⟨v₀, hv₀, he, he'⟩ := hv₀
    rw [← he, ← he']
    exact (b.invite_drawn v₀ hv₀).imp (mem_drawn_concat _ _ _) (mem_drawn_concat _ _ _)
  · intro v hv
    obtain rfl | ⟨hv, _⟩ := (mem v).mp hv
    · exact mem_codes_concat _ _ _ (b.invite_code row hm)
    · exact mem_codes_concat _ _ _ (b.invite_code v hv)
  · intro v hv v' hv' he
    rcases (mem v).mp hv with rfl | ⟨hv, hne⟩ <;> rcases (mem v').mp hv' with rfl | ⟨hv', hne'⟩
    · rfl
    · exact absurd (b.one_invite v' hv' row hm he.symm) hne'
    · exact absurd (b.one_invite v hv row hm he) hne
    · exact b.one_invite v hv v' hv' he
  · intro v ha
    rw [mem]
    constructor
    · rintro (rfl | ⟨hv, _⟩)
      · cases ha
      · exact hv
    · refine fun hv => Or.inr ⟨hv, ?_⟩
      rintro rfl
      rw [hp] at ha
      cases ha

theorem activated (b : Bound past db) (op : Op) {pairing : PairingRequest}
    {invite : InstanceInvite} {requestId : Uuid} {activationHash actor : String}
    {credentialId : Uuid} {now auditedAt : DateTime} (hop : credentialId ∈ op.uuids)
    (h : Activation pairing invite requestId activationHash actor credentialId now auditedAt
      db db') : Bound (past ++ [op]) db' := by
  have invites := h.mem_invites
  have pairings := h.mem_pairings
  have hosts (x : MonitoredHost) := Table.mem_insert? _ _ _ x h.hosts
  have credentials (c : ClientCredential) := Table.mem_insert? _ _ _ c h.credentials
  have keptHost : ∀ i, HasHost db i → HasHost db' i :=
    fun i ⟨host, hm, hid⟩ => ⟨host, (hosts host).mpr (Or.inl hm), hid⟩
  have newInvite : bindInvite now invite ∈ db'.invites := (invites _).mpr (Or.inl rfl)
  have newPairing : bindPairing invite.inviteId invite.instanceId now pairing ∈ db'.pairings :=
    (pairings _).mpr (Or.inl rfl)
  have newBound : (bindPairing invite.inviteId invite.instanceId now pairing).BoundTo
      (bindInvite now invite) := ⟨rfl, rfl, rfl, rfl⟩
  constructor
  · intro v hv
    have hv₀ : ∃ v₀ ∈ db.invites, v₀.inviteId = v.inviteId ∧ v₀.instanceId = v.instanceId := by
      obtain rfl | ⟨hv, _⟩ := (invites v).mp hv
      · exact ⟨invite, h.invite_mem, rfl, rfl⟩
      · exact ⟨v, hv, rfl, rfl⟩
    obtain ⟨v₀, hv₀, he, he'⟩ := hv₀
    rw [← he, ← he']
    exact (b.invite_drawn v₀ hv₀).imp (mem_drawn_concat _ _ _) (mem_drawn_concat _ _ _)
  · intro v hv
    obtain rfl | ⟨hv, _⟩ := (invites v).mp hv
    · exact mem_codes_concat _ _ _ (b.invite_code invite h.invite_mem)
    · exact mem_codes_concat _ _ _ (b.invite_code v hv)
  · intro p hp
    obtain rfl | ⟨hp, _⟩ := (pairings p).mp hp
    · exact mem_drawn_concat _ _ _ (b.pairing_drawn pairing h.pairing_mem)
    · exact mem_drawn_concat _ _ _ (b.pairing_drawn p hp)
  · intro c hc
    obtain hc | rfl := (credentials c).mp hc
    · exact mem_drawn_concat _ _ _ (b.credential_drawn c hc)
    · rw [drawn_concat]
      exact List.mem_append_right _ hop
  · intro v hv v' hv' he
    rcases (invites v).mp hv with rfl | ⟨hv, hne⟩ <;>
      obtain rfl | ⟨hv', hne'⟩ := (invites v').mp hv'
    · rfl
    · exact absurd (b.one_invite v' hv' invite h.invite_mem he.symm) hne'
    · exact absurd (b.one_invite v hv invite h.invite_mem he) hne
    · exact b.one_invite v hv v' hv' he
  · intro p hp ha
    obtain rfl | ⟨hp, _⟩ := (pairings p).mp hp
    · exact ⟨_, newInvite, newBound⟩
    · obtain ⟨v, hv, hbound⟩ := b.pairing_active p hp ha
      exact ⟨v, h.keeps_invite v hv hbound.2.1, hbound⟩
  · intro p hp ha
    obtain rfl | ⟨hp, _⟩ := (pairings p).mp hp
    · exact absurd rfl ha
    · exact b.pairing_pending p hp ha
  · intro v hv ha
    obtain rfl | ⟨hv, _⟩ := (invites v).mp hv
    · refine ⟨⟨_, (hosts _).mpr (Or.inr rfl), rfl⟩, _, newPairing, newBound, ?_⟩
      exact ⟨_, (credentials _).mpr (Or.inr rfl), rfl, rfl⟩
    · obtain ⟨hh, p, hp, hbound, c, hc, hcp⟩ := b.invite_active v hv ha
      exact ⟨keptHost _ hh, p, h.keeps_pairing p hp hbound.1, hbound, c,
        (credentials c).mpr (Or.inl hc), hcp⟩
  · intro host hm
    obtain hm | rfl := (hosts host).mp hm
    · obtain ⟨hst, v, hv, ha, hi⟩ := b.host_active host hm
      exact ⟨hst, v, h.keeps_invite v hv ha, ha, hi⟩
    · exact ⟨rfl, _, newInvite, rfl, rfl⟩
  · intro c hc
    obtain hc | rfl := (credentials c).mp hc
    · obtain ⟨hrev, p, hp, ha, hi⟩ := b.credential_active c hc
      exact ⟨hrev, p, h.keeps_pairing p hp ha, ha, hi⟩
    · exact ⟨rfl, _, newPairing, rfl, rfl, rfl⟩
  · intro r hr
    rw [h.reports] at hr
    exact keptHost _ (b.report_host r hr)
  · intro r hr
    rw [h.hourly] at hr
    exact keptHost _ (b.hourly_host r hr)

theorem deleted (b : Bound past db) (op : Op) (hostId : Uuid) (audit : List AuditEvent) :
    Bound (past ++ [op])
      (cascadeHost hostId (removeInvites hostId (removePairings hostId { db with audit }))) := by
  have invites (v : InstanceInvite) := Table.mem_delete db.invites
    (fun r => decide (r.instanceId = hostId)) v
  have pairings (p : PairingRequest) := Table.mem_delete db.pairings
    (PairingRequest.ofHost hostId) p
  have hosts (x : MonitoredHost) := Table.mem_delete db.hosts (fun r => decide (r.hostId = hostId)) x
  have credentials (c : ClientCredential) := Table.mem_delete db.credentials
    (fun r => decide (r.hostId = hostId)) c
  have keptInvite : ∀ v ∈ db.invites, v.instanceId ≠ hostId →
      v ∈ db.invites.delete fun r => decide (r.instanceId = hostId) :=
    fun v hv hne => (invites v).mpr ⟨hv, decide_eq_false hne⟩
  have keptPairing : ∀ p ∈ db.pairings, p.status = .active → p.instanceId ≠ some hostId →
      p ∈ db.pairings.delete (PairingRequest.ofHost hostId) := by
    intro p hp ha hne
    exact (pairings p).mpr ⟨hp, by simp [PairingRequest.ofHost, ha, hne]⟩
  have keptHost : ∀ i, i ≠ hostId → HasHost db i → HasHost (cascadeHost hostId (removeInvites hostId
      (removePairings hostId { db with audit }))) i := by
    rintro i hne ⟨host, hm, rfl⟩
    exact ⟨host, (hosts host).mpr ⟨hm, decide_eq_false hne⟩, rfl⟩
  constructor
  · exact fun v hv => (b.invite_drawn v ((invites v).mp hv).1).imp (mem_drawn_concat _ _ _)
      (mem_drawn_concat _ _ _)
  · exact fun v hv => mem_codes_concat _ _ _ (b.invite_code v ((invites v).mp hv).1)
  · exact fun p hp => mem_drawn_concat _ _ _ (b.pairing_drawn p ((pairings p).mp hp).1)
  · exact fun c hc => mem_drawn_concat _ _ _ (b.credential_drawn c ((credentials c).mp hc).1)
  · exact fun v hv v' hv' => b.one_invite v ((invites v).mp hv).1 v' ((invites v').mp hv').1
  · intro p hp ha
    obtain ⟨hp, hkeep⟩ := (pairings p).mp hp
    obtain ⟨v, hv, hbound⟩ := b.pairing_active p hp ha
    refine ⟨v, keptInvite v hv ?_, hbound⟩
    rintro rfl
    simp [PairingRequest.ofHost, hbound.2.2.2] at hkeep
  · exact fun p hp => b.pairing_pending p ((pairings p).mp hp).1
  · intro v hv ha
    obtain ⟨hv, hne⟩ := (invites v).mp hv
    have hne := of_decide_eq_false hne
    obtain ⟨hh, p, hp, hbound, c, hc, hch, hct⟩ := b.invite_active v hv ha
    refine ⟨keptHost _ hne hh, p, keptPairing p hp hbound.1 ?_, hbound, c, ?_, hch, hct⟩
    · rw [hbound.2.2.2]
      exact fun he => hne (Option.some.inj he)
    · exact (credentials c).mpr ⟨hc, decide_eq_false (hch ▸ hne)⟩
  · intro host hm
    obtain ⟨hm, hne⟩ := (hosts host).mp hm
    obtain ⟨hst, v, hv, ha, hi⟩ := b.host_active host hm
    exact ⟨hst, v, keptInvite v hv (hi ▸ of_decide_eq_false hne), ha, hi⟩
  · intro c hc
    obtain ⟨hc, hne⟩ := (credentials c).mp hc
    obtain ⟨hrev, p, hp, ha, hi, hct⟩ := b.credential_active c hc
    refine ⟨hrev, p, keptPairing p hp ha ?_, ha, hi, hct⟩
    rw [hi]
    exact fun he => of_decide_eq_false hne (Option.some.inj he)
  · intro r hr
    obtain ⟨hr, hne⟩ := (Table.mem_delete _ _ _).mp hr
    exact keptHost _ (of_decide_eq_false hne) (b.report_host r hr)
  · intro r hr
    obtain ⟨hr, hne⟩ := (Table.mem_delete _ _ _).mp hr
    exact keptHost _ (of_decide_eq_false hne) (b.hourly_host r hr)

theorem step (b : Bound past db) (op : Op) (fresh : Fresh (past ++ [op])) :
    Bound (past ++ [op]) (op.exec db).2 := by
  have new : ∀ u ∈ op.uuids, u ∉ drawn past := by
    intro u hu hd
    exact (fresh_append past [op] fresh).2.1 u hd (by simpa [drawn] using hu)
  have change := exec_change op db
  generalize (op.exec db).2 = db' at change
  cases change with
  | columns h => exact b.columns _ h
  | invited h => exact b.invited _ _ _ _ _ _ _ _ _ _ _ (new _ (by simp [Op.uuids])) h
  | cancelled mem id pending h => exact b.cancelled _ _ _ _ _ _ mem id pending h
  | cleaned => exact b.cleaned _ _ _ _
  | requested h => exact b.requested _ _ _ _ _ _ _ _ h
  | activated h => exact b.activated _ (by simp [Op.uuids]) h
  | deleted h => exact b.deleted _ _ _

end Bound

/-- The tables hang together in every state the store can reach. -/
theorem bound_after (ops : List Op) (fresh : Fresh ops) : Bound ops (store.after ops) :=
  store.invariant Fresh Bound fresh_closed bound_empty
    (fun _ op _ hf hb => hb.step op hf) ops fresh

end HostMonitoring.Store
