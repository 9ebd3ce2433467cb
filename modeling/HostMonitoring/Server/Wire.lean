import HostMonitoring.Data.TimeOrder
import HostMonitoring.Protocol.Documents
import HostMonitoring.Server.Provenance
import HostMonitoring.Web.HostList

namespace HostMonitoring.Server

open HostMonitoring.Framework
open HostMonitoring.Framework.Json (Within)
open HostMonitoring.Admission
open HostMonitoring.Model
open HostMonitoring.Protocol
open HostMonitoring.Protocol.JsonU64 (Number)
open HostMonitoring.Protocol.Wire (canonical_toText)
open HostMonitoring.Store
open HostMonitoring.Telemetry (TelemetryWriterConfig)

/-- What is sent of a response to a client; a browser is sent the others. -/
def Body.document (times : TimeText) : Body → Option (Json Number)
  | .ack hostId reportId accepted receivedAt =>
    some ((ClientReportAck.codec times).encode ⟨hostId, reportId, accepted, receivedAt⟩)
  | .pairing requestId activationUrl expiresIn pollInterval =>
    some (ClientPairingResponse.codec.encode
      ⟨requestId, activationUrl, .ofNat expiresIn, .ofNat pollInterval⟩)
  | .pairingStatus status instanceId =>
    some (ClientPairingStatusResponse.codec.encode ⟨status, instanceId⟩)
  | .active instanceId => some (ActivateClientResponse.codec.encode ⟨instanceId, .active⟩)
  | _ => none

def Request.ofClient : Request → Bool
  | .report .. => true
  | .createPairing .. => true
  | .pairingStatus .. => true
  | .activateCapability .. => true
  | .console _ (.activateAdmin ..) => true
  | _ => false

/-- A client reads a document as the answer to its request. -/
def Request.Understands (times : TimeText) (j : Json Number) : Request → Prop
  | .report _ sent => ∃ ack, (ClientReportAck.codec times).decode j = some ack ∧
    ack.hostId = sent.host.id ∧ ack.reportId = sent.reportId
  | .createPairing .. => ∃ answer, ClientPairingResponse.codec.decode j = some answer ∧
    answer.activationUrl = "/activate/" ++ answer.requestId ∧ answer.pollInterval = 5
  | .pairingStatus .. => ∃ answer, ClientPairingStatusResponse.codec.decode j = some answer ∧
    (answer.status = .active ↔ answer.instanceId ≠ none)
  | .activateCapability .. => ∃ answer, ActivateClientResponse.codec.decode j = some answer
  | .console .. => ∃ answer, ActivateClientResponse.codec.decode j = some answer
  | _ => False

theorem understands_active (u : Uuid) :
    ActivateClientResponse.codec.decode
      (ActivateClientResponse.codec.encode ⟨u.toText, .active⟩) = some ⟨u.toText, .active⟩ := by
  apply Codec.decode_encode
  simp

theorem understands_ack (times : TimeText) {sent : ClientReport} {now : DateTime}
    {metrics : MetricSummary} (valid : validateReport now sent = .ok metrics) (headers : HeaderMap)
    (accepted : Bool) (receivedAt : DateTime) :
    (Request.report headers sent).Understands times
      ((ClientReportAck.codec times).encode ⟨sent.host.id, sent.reportId, accepted, receivedAt⟩) := by
  obtain ⟨report, _⟩ := (validateReport_ok _ _ _).mp valid
  obtain ⟨reportId, sameReport⟩ := report.report_id
  obtain ⟨hostId, sameHost⟩ := report.host.id
  refine ⟨⟨sent.host.id, sent.reportId, accepted, receivedAt⟩, ?_, rfl, rfl⟩
  apply Codec.decode_encode
  simp [← sameReport, ← sameHost]

section
variable {D : Type} [DecidableEq D] {config : TelemetryWriterConfig} {digests : Digests D}
  {before : List Op} {clock : Instant} {P : Pool Connection Call Answer (Recorded D)}

/-- What the store tells of a pairing goes with an instance where it is active, and only there. -/
theorem polled_instance (ops : List Op) (requestId : Uuid) (secretHash : String) (now : DateTime)
    (status : PairingStatus) (text : Option String)
    (h : Store.pairingStatus requestId secretHash now (store.after ops) = some (status, text)) :
    (status = .active ↔ text ≠ none) ∧ ∀ value, text = some value → ∃ u : Uuid, u.toText = value := by
  by_cases active : status = .active
  · subst active
    obtain ⟨instanceId, _, _, rfl, _⟩ := poll_enrolls ops requestId secretHash now text h
    refine ⟨by simp, ?_⟩
    intro value same
    exact ⟨instanceId, Option.some.inj same⟩
  · obtain ⟨p, _, told⟩ := Option.map_eq_some_iff.mp h
    have absent : text = none := by
      split at told
      · split_ifs at told
        · exact (Prod.mk.inj told).2.symm
        · exact (Prod.mk.inj told).2.symm
      · exact absurd (Prod.mk.inj told).1.symm active
      · exact (Prod.mk.inj told).2.symm
    subst absent
    simp [active]

/-- The strict reader of a client reads every positive answer. -/
theorem answers_understood (times : TimeText) (h : Reachable config digests before clock P)
    (c : Connection) (r : Response) (responded : (P.shared.2 c).Got (.respond r) ())
    (success : r.status < 300) (request : Request)
    (received : (P.shared.2 c).Got .receive request) (client : request.ofClient = true) :
    ∃ j, r.body.document times = some j ∧ request.Understands times j := by
  have sound := h.sound
  obtain ⟨past, keeps, answered⟩ := response_answers (sound.allowed c) received responded
  have mutated : ∀ mutates : request.mutates = true, ∃ m a, m.Confirms r.body a ∧
      request.Permits digests.tokenHash (P.shared.2 c) m := by
    intro mutates
    obtain ⟨m, a, got, confirms⟩ := answered.done success mutates
    obtain ⟨asked, receivedIt, permits⟩ := mutated_rightly (sound.allowed c) (keeps _ _ got)
    rw [received_once (sound.allowed c) received receivedIt] at permits
    exact ⟨m, a, confirms, permits⟩
  cases request with
  | report headers sent =>
    obtain ⟨_, _, _, _, accepted, receivedAt, _, _, _, valid, body⟩ := answered.told success rfl
    rw [body]
    exact ⟨_, rfl, understands_ack times valid headers accepted receivedAt⟩
  | createPairing peer asked =>
    obtain ⟨m, a, confirms, permits⟩ := mutated rfl
    cases m with
    | createPairing _ =>
      obtain ⟨requestId, _, _, expiresIn, _, body⟩ := confirms
      rw [body]
      refine ⟨_, rfl, ⟨requestId.toText, activationUrl requestId, .ofNat expiresIn, .ofNat 5⟩, ?_,
        rfl, rfl⟩
      apply Codec.decode_encode
      simp
    | _ => exact permits.elim
  | pairingStatus peer headers id =>
    obtain ⟨requestId, secret, status, text, _, _, found, body⟩ := answered.told success rfl
    obtain ⟨first, later, now, split, reads⟩ := sound.journal.read c _ _ (keeps _ _ found)
    obtain ⟨active, canonical⟩ := polled_instance _ _ _ _ _ _ (Eq.symm reads)
    rw [body]
    refine ⟨_, rfl, ⟨status, text⟩, ?_, active⟩
    apply Codec.decode_encode
    rw [ClientPairingStatusResponse.codec_kept]
    intro value given
    obtain ⟨u, rfl⟩ := canonical value given
    simp
  | activateCapability peer asked =>
    obtain ⟨m, a, confirms, permits⟩ := mutated rfl
    cases m with
    | activate _ _ _ =>
      obtain ⟨instanceId, _, body⟩ := confirms
      rw [body]
      exact ⟨_, rfl, _, understands_active instanceId⟩
    | _ => exact permits.elim
  | console headers request =>
    cases request with
    | activateAdmin peer asked =>
      obtain ⟨m, a, confirms, principal, _, permits⟩ := mutated rfl
      cases m with
      | activate _ _ _ =>
        obtain ⟨instanceId, _, body⟩ := confirms
        rw [body]
        exact ⟨_, rfl, _, understands_active instanceId⟩
      | _ => exact permits.elim
    | _ => cases client
  | pairingPublic peer id => cases client

end

theorem toText_timestampText (t : DateTime) :
    t.toText = (Web.timestampText t).dropLast ++ ['+', '0', '0', ':', '0', '0'] := by
  have ends : Web.timestampText t = (DateTime.hourText (t.secs / 3600) ++
      ':' :: (digits 2 (t.secs % 3600 / 60).toNat ++
        (':' :: (digits 2 ((t.secs % 60).toNat + t.nanos / 1000000000) ++
          DateTime.fractionText (t.nanos % 1000000000))))) ++ ['Z'] := by
    simp [Web.timestampText]
  rw [ends, List.dropLast_concat]
  simp [DateTime.toText, DateTime.tailText]

/-- Times can be read back from their texts. -/
theorem times_readable : ∃ times : TimeText,
    ∀ t, times.format t = String.ofList (Web.timestampText t) := by
  classical
  have injective : ∀ t u, String.ofList (Web.timestampText t) = String.ofList (Web.timestampText u) →
      t = u := by
    intro t u same
    apply DateTime.toText_injective
    rw [toText_timestampText, toText_timestampText, String.ofList_injective same]
  refine ⟨⟨fun t => String.ofList (Web.timestampText t), fun s =>
    if h : ∃ t, String.ofList (Web.timestampText t) = s then some h.choose else none, ?_⟩,
    fun _ => rfl⟩
  intro t
  have written : ∃ u, String.ofList (Web.timestampText u) = String.ofList (Web.timestampText t) :=
    ⟨t, rfl⟩
  rw [dif_pos written, injective _ _ written.choose_spec]

/-- What is read as a report has no key that the protocol does not know, on no level, and canonical
identifiers. -/
theorem report_strict (times : TimeText) (floats : FloatText) (j : Json Number) (r : ClientReport)
    (h : (ClientReport.codec times floats).decode j = some r) :
    Within ClientReport.shape j ∧ (∃ u : Uuid, u.toText = r.reportId) ∧
    ∃ u : Uuid, u.toText = r.host.id := by
  obtain ⟨valid, within⟩ := (ClientReport.codec times floats).sound j r h
  rw [ClientReport.codec_shape] at within
  have canonical := ClientReport.codec_valid valid
  exact ⟨within, (Wire.canonical_iff _).mp canonical.1, (Wire.canonical_iff _).mp canonical.2⟩

theorem noon_strict : ∃ times : TimeText,
    Within ClientReport.shape ((ClientReport.codec times ⟨id⟩).encode (datedReport noon)) := by
  obtain ⟨times, _⟩ := times_readable
  refine ⟨times, (report_strict times ⟨id⟩ _ (datedReport noon) ?_).1⟩
  apply Codec.decode_encode
  rw [ClientReport.codec_kept]
  refine ⟨by decide +kernel, by decide +kernel, fun _ _ => rfl⟩

theorem ofClient_enrolAsks {c : Connection} {request : Request} (h : enrolAsks c request = true) :
    request.ofClient = true := by
  unfold enrolAsks at h
  split at h
  · rfl
  · rfl
  · rfl
  · rfl
  · cases h

/-- The pairing, the activation, the poll and the report are understood. -/
theorem enrol_understood : ∃ (times : TimeText) (P : Pool Connection Call Answer (Recorded String)),
    Reachable .production ⟨id, id⟩ [] 0 P ∧ ∀ c ∈ [1, 2, 3, 4], ∃ request r j,
      enrolAsks c request = true ∧ (P.shared.2 c).Got .receive request ∧
      (P.shared.2 c).Got (.respond r) () ∧ r.body.document times = some j ∧
      request.Understands times j := by
  obtain ⟨times, _⟩ := times_readable
  obtain ⟨P, reachable, answered, _⟩ := enrol_played
  refine ⟨times, P, reachable, ?_⟩
  intro c hc
  obtain ⟨request, r, asks, received, responded, success⟩ := answered c hc
  obtain ⟨j, sent, understood⟩ := answers_understood times reachable c r responded success request
    received (ofClient_enrolAsks asks)
  exact ⟨request, r, j, asks, received, responded, sent, understood⟩

end HostMonitoring.Server
