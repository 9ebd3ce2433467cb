import HostMonitoring.Model.ValidReports
import HostMonitoring.Store.LatestRuns

namespace HostMonitoring.Store

open HostMonitoring.Framework
open HostMonitoring.Framework.Checks
open HostMonitoring.Protocol
open HostMonitoring.Model

/-- The request handlers have checked the arguments of the call. -/
def Op.Validated : Op → Prop
  | .createInvite _ displayName _ _ _ _ _ _ _ =>
    ∃ requested, createClientInstanceRequestValidated requested = .ok displayName
  | .createPairing _ request _ _ _ => validatePairing request = .ok ()
  | .storeReport _ write _ => ∃ now, validateReport now write.report = .ok write.metrics
  | .storeReportBatch _ reports =>
    ∀ item ∈ reports, ∃ now, validateReport now item.write.report = .ok item.write.metrics
  | .updateRemark _ _ remark _ _ =>
    ∃ requested, updateMonitoringRemarkRequestValidated requested = .ok remark
  | _ => True

theorem Op.Validated.writes {op : Op} (h : op.Validated) (w : ReportWrite) (hw : w ∈ op.writes) :
    ∃ now, validateReport now w.report = .ok w.metrics := by
  cases op with
  | storeReport f write receivedAt =>
    rw [List.mem_singleton.mp hw]
    exact h
  | storeReportBatch boundary reports =>
    obtain ⟨item, hi, rfl⟩ := List.mem_map.mp hw
    exact h item hi
  | _ => exact absurd hw List.not_mem_nil

/-- The texts of a host that a reader needs are there. -/
structure MonitoredHost.Titled (h : MonitoredHost) : Prop where
  name : h.name ≠ ""
  os : h.os ≠ ""
  arch : h.arch ≠ ""
  client_version : h.clientVersion ≠ ""
  capabilities : ∀ c ∈ h.capabilities, c.name ≠ "" ∧ c.source ≠ ""

/-- So are the texts that hosts are made from. -/
structure Presentable (db : Db) : Prop where
  invites : ∀ v ∈ db.invites, v.displayName ≠ ""
  pairings : ∀ p ∈ db.pairings, p.os ≠ "" ∧ p.arch ≠ "" ∧ p.clientVersion ≠ ""
  hosts : ∀ h ∈ db.hosts, h.Titled

theorem ne_empty_of_trim (s : String) (h : trim s ≠ "") : s ≠ "" := by
  rintro rfl
  exact h rfl

theorem displayName_ne_empty (requested : Option String) (displayName : String)
    (h : createClientInstanceRequestValidated requested = .ok displayName) : displayName ≠ "" := by
  unfold createClientInstanceRequestValidated at h
  simp only [bind_ok, validateRequired_ok, pure_ok] at h
  obtain ⟨_, named, _, _, rfl⟩ := h
  exact ne_empty_of_trim _ named.named

theorem remark_ne_empty (requested remark : String)
    (h : updateMonitoringRemarkRequestValidated requested = .ok remark) : remark ≠ "" := by
  unfold updateMonitoringRemarkRequestValidated at h
  simp only [bind_ok, validateRequired_ok, pure_ok] at h
  obtain ⟨_, named, _, _, rfl⟩ := h
  exact ne_empty_of_trim _ named.named

/-- Where a host comes from in a call that stores no report. -/
inductive HostOrigin (db : Db) : Op → MonitoredHost → Prop where
  | kept {op : Op} {h : MonitoredHost} (mem : h ∈ db.hosts) : HostOrigin db op h
  | renamed {f : Faults} {hostId : Uuid} {remark actor : String} {auditedAt : DateTime}
      {h : MonitoredHost} (mem : h ∈ db.hosts) :
      HostOrigin db (.updateRemark f hostId remark actor auditedAt) { h with name := remark }
  | registered {op : Op} {invite : InstanceInvite} {pairing : PairingRequest} {now : DateTime}
      (invite_mem : invite ∈ db.invites) (pairing_mem : pairing ∈ db.pairings) :
      HostOrigin db op (registeredHost invite pairing now)

theorem host_origin (op : Op) (db : Db) (hs : ¬op.Stores) (h : MonitoredHost)
    (hm : h ∈ (op.exec db).2.hosts) : HostOrigin db op h := by
  by_cases he : op.Enrolls
  · obtain ⟨hosts, _⟩ := enrolls_frame op he db
    exact .kept (hosts ▸ hm)
  by_cases hr : op.Retains
  · obtain ⟨hosts, _⟩ := retains_keepsLatest op hr db
    exact .kept (hosts ▸ hm)
  cases op with
  | activate f requestId activationHash actor credentialId now auditedAt =>
    obtain ⟨same, _⟩ | ⟨pairing, invite, _, act⟩ := activate_cases f requestId activationHash actor
      credentialId now auditedAt db _ _ Prod.mk.eta.symm
    · exact .kept ((congrArg Db.hosts same :) ▸ hm)
    · obtain hm | rfl := (Table.mem_insert? _ _ _ _ act.hosts).mp hm
      · exact .kept hm
      · exact .registered act.invite_mem act.pairing_mem
  | updateRemark f hostId remark actor auditedAt =>
    change h ∈ (updateRemark f hostId remark actor auditedAt db).2.hosts at hm
    obtain ⟨same, _⟩ | ⟨_, _, changed⟩ := updateRemark_cases f hostId remark actor auditedAt db _ _
      Prod.mk.eta.symm
    · exact .kept (same ▸ hm)
    · rw [changed] at hm
      obtain ⟨h₀, hm₀, _, rfl⟩ | ⟨hm, _⟩ := (Table.mem_updated db.hosts.rows _ _ h).mp hm
      · exact .renamed hm₀
      · exact .kept hm
  | deleteHost f hostId actor auditedAt =>
    change h ∈ (deleteHost f hostId actor auditedAt db).2.hosts at hm
    obtain ⟨same, _⟩ | ⟨_, _, changed⟩ := deleteHost_cases f hostId actor auditedAt db _ _
      Prod.mk.eta.symm
    · exact .kept (same ▸ hm)
    · rw [changed] at hm
      exact .kept ((Table.mem_delete _ _ _).mp hm).1
  | createInvite => exact absurd trivial he
  | cancelInvite => exact absurd trivial he
  | createPairing => exact absurd trivial he
  | storeReport => exact absurd trivial hs
  | storeReportBatch => exact absurd trivial hs
  | aggregateRawBatch => exact absurd trivial hr
  | deleteAggregatedRawBatch => exact absurd trivial hr
  | deleteExpiredAggregateBatch => exact absurd trivial hr

namespace Presentable

variable {db db' : Db}

theorem empty : Presentable .empty :=
  ⟨fun v hv => absurd hv (Table.not_mem_empty v), fun p hp => absurd hp (Table.not_mem_empty p),
    fun h hm => absurd hm (Table.not_mem_empty h)⟩

theorem accept (p : Presentable db) (write : ReportWrite)
    (valid : ∃ now, validateReport now write.report = .ok write.metrics) (receivedAt : DateTime)
    (hostId reportId : Uuid) (host : MonitoredHost) (inserted : Table MetricReport)
    (acc : Accepted write receivedAt hostId reportId host inserted db db') : Presentable db' := by
  obtain ⟨now, hv⟩ := valid
  obtain ⟨v, _⟩ := (validateReport_ok _ _ _).mp hv
  refine ⟨acc.invites ▸ p.invites, acc.pairings ▸ p.pairings, fun h hm => ?_⟩
  rw [acc.hosts] at hm
  split_ifs at hm with newest
  · obtain ⟨h₀, hm₀, _, rfl⟩ | ⟨hm, _⟩ := (mem_promoteHost _ _ _ _ _ _).mp hm
    · refine ⟨(p.hosts h₀ hm₀).name, v.host.os.named, v.host.arch.named,
        v.host.client_version.named, fun c hc => ?_⟩
      have cap := v.capabilities c hc
      exact ⟨ne_empty_of_trim _ cap.name.named, ne_empty_of_trim _ cap.source.named⟩
    · exact p.hosts h hm
  · exact p.hosts h hm

theorem step (p : Presentable db) (op : Op) (valid : op.Validated) : Presentable (op.exec db).2 := by
  by_cases hs : op.Stores
  · exact stores_keeps op hs (fun _ db => Presentable db)
      (fun _ _ _ write receivedAt hostId reportId host inserted hw h _ acc =>
        h.accept write (valid.writes write hw) receivedAt hostId reportId host inserted acc) [] db p
  have change := exec_change op db
  have hosts : ∀ h ∈ (op.exec db).2.hosts, h.Titled := by
    intro h hm
    have origin := host_origin op db hs h hm
    cases origin with
    | kept mem => exact p.hosts h mem
    | @renamed f hostId remark actor auditedAt h mem =>
      obtain ⟨requested, hr⟩ := valid
      have t := p.hosts h mem
      exact ⟨remark_ne_empty _ _ hr, t.os, t.arch, t.client_version, t.capabilities⟩
    | registered invite_mem pairing_mem =>
      obtain ⟨os, arch, version⟩ := p.pairings _ pairing_mem
      exact ⟨p.invites _ invite_mem, os, arch, version, fun c hc => absurd hc List.not_mem_nil⟩
  generalize (op.exec db).2 = db' at change hosts
  refine ⟨fun v hv => ?_, fun r hr => ?_, hosts⟩
  · cases change with
    | columns h => exact p.invites v (h.invites ▸ hv)
    | invited h =>
      obtain hv | rfl := (Table.mem_insert? _ _ _ _ h).mp hv
      · exact p.invites v hv
      · obtain ⟨requested, hn⟩ := valid
        exact displayName_ne_empty _ _ hn
    | cancelled mem id pending h =>
      obtain rfl | ⟨hv, _⟩ := (mem_cancelled _ _ _ _ _ mem id h v).mp hv
      · exact (p.invites _ mem :)
      · exact p.invites v hv
    | cleaned => exact p.invites v hv
    | requested h => exact p.invites v hv
    | activated h =>
      obtain rfl | ⟨hv, _⟩ := (h.mem_invites v).mp hv
      · exact (p.invites _ h.invite_mem :)
      · exact p.invites v hv
    | deleted h => exact p.invites v ((Table.mem_delete _ _ _).mp hv).1
  · cases change with
    | columns h => exact p.pairings r (h.pairings ▸ hr)
    | invited h => exact p.pairings r hr
    | cancelled mem id pending h => exact p.pairings r hr
    | cleaned => exact p.pairings r ((mem_cleanup _ _ _ _).1 hr)
    | requested h =>
      obtain hr | rfl := (Table.mem_insert? _ _ _ _ h).mp hr
      · exact p.pairings r ((mem_cleanup _ _ _ _).1 hr)
      · have v := (validatePairing_ok _ _).mp valid
        exact ⟨v.host.os.named, v.host.arch.named, v.host.client_version.named⟩
    | activated h =>
      obtain rfl | ⟨hr, _⟩ := (h.mem_pairings r).mp hr
      · exact (p.pairings _ h.pairing_mem :)
      · exact p.pairings r hr
    | deleted h => exact p.pairings r ((Table.mem_delete _ _ _).mp hr).1

end Presentable

theorem presentable_after (ops : List Op) (valid : ∀ op ∈ ops, op.Validated) :
    Presentable (store.after ops) := by
  refine store.invariant (fun ops => ∀ op ∈ ops, op.Validated) (fun _ => Presentable)
    (fun past op h op' hm => h op' (List.mem_append_left _ hm)) Presentable.empty
    (fun past op db h p => p.step op (h op ?_)) ops valid
  exact List.mem_append_right _ (List.mem_singleton.mpr rfl)

end HostMonitoring.Store
