import Mathlib.Data.List.Perm.Subperm
import HostMonitoring.Admission.IdealRefinement
import HostMonitoring.Admission.RateBound
import HostMonitoring.Server.Guarantees

namespace HostMonitoring.Server

open HostMonitoring.Framework
open HostMonitoring.Framework.World (Allowed shared_invariant)
open HostMonitoring.Admission
open HostMonitoring.Protocol
open HostMonitoring.Store
open HostMonitoring.Telemetry (TelemetryWriterConfig)

section
variable {D : Type}

/-- The checks of reports are a run of the buckets whose clock never goes back, and whoever was let
through is among them. -/
structure Metered (s : Recorded D) : Prop where
  run : BoundedBuckets.Checks ReportBuckets.production (s.1.reportChecks.map Prod.snd)
    s.1.reportBuckets s.1.lastWrites
  sorted : ((s.1.reportChecks.map Prod.snd).map Admission.Call.now).Pairwise (· ≤ ·)
  past : ∀ check ∈ s.1.reportChecks.map Prod.snd, check.now ≤ s.1.clock
  passed : ∀ c hostId, (s.2 c).Got (.allowReport hostId) (.ok ()) → ∃ check,
    (c, check) ∈ s.1.reportChecks ∧ check.key = hostId ∧ check.admitted = true

def State.meters (s : State D) :=
  (s.reportChecks, s.reportBuckets, s.lastWrites, s.clock)

/-- A call that is no check of a report leaves them alone. -/
theorem Metered.idle {s s' : Recorded D} (h : Metered s) (same : s'.1.meters = s.1.meters)
    (hist : ∀ c hostId, (s'.2 c).Got (.allowReport hostId) (.ok ()) →
      (s.2 c).Got (.allowReport hostId) (.ok ())) : Metered s' := by
  simp only [State.meters, Prod.mk.injEq] at same
  obtain ⟨checks, buckets, writes, clock⟩ := same
  refine ⟨?_, ?_, ?_, ?_⟩
  · rw [checks, buckets, writes]
    exact h.run
  · rw [checks]
    exact h.sorted
  · rw [checks, clock]
    exact h.past
  · rw [checks]
    exact fun c hostId got => h.passed c hostId (hist c hostId got)

theorem Metered.check {s s' : Recorded D} (h : Metered s) {c : Connection} {hostId : String}
    {m : BoundedBuckets String} {now : Instant} (order : s.1.reportBuckets.Reorders m)
    (later : s.1.clock ≤ now)
    (hist : s'.2 = Function.update s.2 c
      (s.2 c ++ [⟨.allowReport hostId, (ReportBuckets.allowAt m hostId now).1⟩]))
    (checked : s'.1 = s.1.checked c hostId m now) : Metered s' := by
  have checks : s'.1.reportChecks = s.1.reportChecks ++ [(c,
      ⟨hostId, now, s.1.lastWrites hostId, (ReportBuckets.allowAt m hostId now).1⟩)] := by
    rw [checked]
    rfl
  have clock : s'.1.clock = now := by
    rw [checked]
    rfl
  refine ⟨?_, ?_, ?_, ?_⟩
  · rw [checks, checked, List.map_append]
    exact h.run.call order hostId now
  · rw [checks, List.map_append, List.map_append, List.pairwise_append]
    refine ⟨h.sorted, by simp, ?_⟩
    intro t ht u hu
    obtain ⟨check, hc, rfl⟩ := List.mem_map.mp ht
    have latest : u = now := by simpa using hu
    rw [latest]
    exact (h.past check hc).trans later
  · intro check hc
    rw [checks, List.map_append] at hc
    rw [clock]
    rcases List.mem_append.mp hc with hc | hc
    · exact (h.past check hc).trans later
    · have latest : check.now = now := by
        rw [List.mem_singleton.mp hc]
      exact latest.le
  · intro u hostId' got
    rw [hist, got_update] at got
    rw [checks]
    rcases got with got | ⟨rfl, same⟩
    · obtain ⟨check, hc, key, admitted⟩ := h.passed u hostId' got
      exact ⟨check, List.mem_append_left _ hc, key, admitted⟩
    · obtain ⟨call, answer⟩ := Sigma.mk.inj same
      cases call
      refine ⟨_, List.mem_append_right _ (List.mem_singleton.mpr rfl), rfl, ?_⟩
      rw [Admission.Call.admitted, ← eq_of_heq answer]

variable [DecidableEq D] {config : TelemetryWriterConfig} {digests : Digests D} {before : List Op}
  {clock : Instant} {P : Pool Connection Call Answer (Recorded D)}

theorem metered_exec {s s' : Recorded D} {c : Connection} {o : Call} {a : Answer o}
    (h : Metered s) (exec : (server config digests).recorded.exec c o s a s') : Metered s' := by
  obtain ⟨exec, hist⟩ := exec
  by_cases isCheck : ∃ hostId, o = .allowReport hostId
  · obtain ⟨hostId, rfl⟩ := isCheck
    obtain ⟨m, now, order, later, rfl, checked⟩ := exec
    exact h.check order later hist checked
  · have seen : ∀ u hostId, (s'.2 u).Got (.allowReport hostId) (.ok ()) →
        (s.2 u).Got (.allowReport hostId) (.ok ()) := by
      intro u hostId got
      rw [hist, got_update] at got
      rcases got with got | ⟨_, same⟩
      · exact got
      · exact absurd ⟨hostId, (congrArg Sigma.fst same).symm⟩ isCheck
    cases o with
    | allowReport hostId => exact absurd ⟨hostId, rfl⟩ isCheck
    | authenticate headers request =>
      obtain ⟨same, _⟩ := exec
      exact h.idle (by rw [same]) seen
    | checkAdmission check =>
      obtain ⟨m, now, _, _, same⟩ := exec
      exact h.idle (by rw [same]; rfl) seen
    | query q =>
      obtain ⟨same, _⟩ := exec
      exact h.idle (by rw [same]) seen
    | mutate m =>
      obtain ⟨luck, _, same⟩ := exec
      exact h.idle (by rw [same]; rfl) seen
    | submit write =>
      obtain ⟨telemetry, _, _, same⟩ := exec
      exact h.idle (by rw [same]; rfl) seen
    | submitted i =>
      obtain ⟨same, _⟩ := exec
      exact h.idle (by rw [same]) seen
    | panic => exact exec.elim
    | _ =>
      have same : s'.1 = s.1 := exec
      exact h.idle (by rw [same]) seen

theorem Reachable.metered (h : Reachable config digests before clock P) : Metered P.shared := by
  apply shared_invariant _ _ Metered _ ?_ ?_ ?_ ?_ P h
  · exact
      { run := .start
        sorted := by simp [boot]
        past := by simp [boot]
        passed := by intro c hostId got; cases got }
  · exact fun c o s a s' metered exec => metered_exec metered exec
  · intro c s s' metered reaped
    obtain ⟨⟨i, telemetry, _, _, same⟩, hist⟩ := reaped
    exact metered.idle (by rw [same]; rfl) (by simp [hist])
  · intro s s' metered changed
    obtain ⟨⟨move, telemetry, _, _, same⟩ | ⟨op, _, same⟩, hist⟩ := changed
    · exact metered.idle (by rw [same]; rfl) (by simp [hist])
    · exact metered.idle (by rw [same]; rfl) (by simp [hist])

/-- The reports queued for a host by connections whose check read the clock in between. -/
def State.queuedIn (s : State D) (hostId : String) (fromTime toTime : Instant) :
    List (Connection × Telemetry.Call) :=
  (s.callers.zip s.telemetry.calls).filter fun (c, call) =>
    decide (call.write.report.host.id = hostId) && s.reportChecks.any fun (u, check) =>
      decide (u = c) && (decide (check.key = hostId) && check.admitted &&
        decide (fromTime ≤ check.now ∧ check.now ≤ toTime))

omit [DecidableEq D] in
theorem Sound.callers_nodup {s : Recorded D} (sound : Sound digests.tokenHash config before s) :
    s.1.callers.Nodup := by
  rw [List.nodup_iff_getElem?_ne_getElem?]
  intro i j hij hj same
  have hi : i < s.1.callers.length := hij.trans hj
  have queued : ∀ k c, s.1.callers[k]? = some c → ∃ write, (s.2 c).Got (.submit write) k := by
    intro k c hc
    have known := (List.getElem?_eq_some_iff.mp hc).1
    rw [sound.reports.callers] at known
    exact ⟨_, (sound.reports.submitted c _ k).mpr
      ⟨hc, s.1.telemetry.calls[k], List.getElem?_eq_getElem known, rfl⟩⟩
  obtain ⟨write, got⟩ := queued i _ (List.getElem?_eq_getElem hi)
  obtain ⟨write', got'⟩ := queued j _ (same ▸ List.getElem?_eq_getElem hi)
  have again := submitted_once (sound.allowed _) got got'
  omega

omit [DecidableEq D] in
/-- As many checks let a report through. -/
theorem queuedIn_le {s : Recorded D} (sound : Sound digests.tokenHash config before s)
    (hostId : String) (fromTime toTime : Instant) :
    (s.1.queuedIn hostId fromTime toTime).length ≤
      (admittedIn hostId fromTime toTime (s.1.reportChecks.map Prod.snd)).length := by
  rw [admittedIn, List.filter_map, List.length_map]
  rw [← List.length_map Prod.fst, ← (List.filter _ _).length_map Prod.fst]
  apply (List.Nodup.subperm ?_ ?_).length_le
  · have callers : ((s.1.queuedIn hostId fromTime toTime).map Prod.fst).Sublist s.1.callers := by
      have whole : (s.1.callers.zip s.1.telemetry.calls).map Prod.fst = s.1.callers :=
        List.map_fst_zip sound.reports.callers.le
      rw [← whole]
      exact List.filter_sublist.map Prod.fst
    exact callers.nodup sound.callers_nodup
  · intro c hc
    obtain ⟨⟨c', call⟩, queued, rfl⟩ := List.mem_map.mp hc
    have met := (List.mem_filter.mp queued).2
    rw [Bool.and_eq_true, List.any_eq_true] at met
    obtain ⟨_, ⟨u, check⟩, hu, met⟩ := met
    rw [Bool.and_eq_true] at met
    refine List.mem_map.mpr ⟨(u, check), List.mem_filter.mpr ⟨hu, met.2⟩, of_decide_eq_true met.1⟩

/-- However many connections report for a host, only so many reports are queued in a while, and
none without a check. -/
theorem report_rate (h : Reachable config digests before clock P) (hostId : String)
    (fromTime toTime : Instant) (order : fromTime ≤ toTime) :
    ((P.shared.1.queuedIn hostId fromTime toTime).length : ℚ) ≤ 64 + 16 * (toTime - fromTime) ∧
    ∀ e ∈ P.shared.1.callers.zip P.shared.1.telemetry.calls, ∃ checkedAt ≤ P.shared.1.clock,
      ∀ hostId fromTime toTime, e.2.write.report.host.id = hostId → fromTime ≤ checkedAt →
        checkedAt ≤ toTime → e ∈ P.shared.1.queuedIn hostId fromTime toTime := by
  have sound := h.sound
  have metered := h.metered
  constructor
  · have refills : ReportBuckets.production.rule.burst * ReportBuckets.production.rule.interval ≤
        ReportBuckets.production.entryTtl := by
      decide +kernel
    have inOrder := BoundedBuckets.checks_inOrder metered.run metered.sorted
    have paid := (BoundedBuckets.checks_track metered.run rfl refills hostId
      fun check hc _ => inOrder check hc).2
    have bound := paid.count_window fromTime toTime order
    rw [← admittedIn_length] at bound
    have fewer : ((P.shared.1.queuedIn hostId fromTime toTime).length : ℚ) ≤ _ :=
      Nat.cast_le.mpr (queuedIn_le sound hostId fromTime toTime)
    apply fewer.trans (bound.trans (le_of_eq ?_))
    show REPORT_BUCKET_BURST + (toTime - fromTime) / (1 / REPORT_BUCKET_REFILL_PER_SECOND) = _
    norm_num [REPORT_BUCKET_BURST, REPORT_BUCKET_REFILL_PER_SECOND]
    ring
  · intro e he
    obtain ⟨c, call⟩ := e
    obtain ⟨i, hi⟩ := List.mem_iff_getElem?.mp he
    obtain ⟨mine, hc⟩ := List.getElem?_zip_eq_some.mp hi
    have got := (sound.reports.submitted c call.write i).mpr ⟨mine, call, hc, rfl⟩
    have submits := submitted_validly (sound.allowed c) got
    obtain ⟨check, passed, key, admitted⟩ := metered.passed c _ submits.allowed
    refine ⟨check.now, metered.past check (List.mem_map_of_mem passed), ?_⟩
    intro hostId fromTime toTime same early late
    simp only at same
    refine List.mem_filter.mpr ⟨he, ?_⟩
    rw [Bool.and_eq_true, List.any_eq_true]
    refine ⟨decide_eq_true same, (c, check), passed, ?_⟩
    simp [key, same, admitted, early, late]

end

theorem laptop_rate : ∃ P, Reachable .production (⟨id, id⟩ : Digests String) laptopActive 0 P ∧
    ((P.shared.1.queuedIn "00000000-0000-0000-0000-000000000002" 0 1).length : ℚ) ≤
      64 + 16 * (1 - 0) := by
  obtain ⟨P, reachable, _⟩ := laptop_played
  exact ⟨P, reachable, (report_rate reachable _ 0 1 (by norm_num)).1⟩

end HostMonitoring.Server
