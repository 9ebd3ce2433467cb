import HostMonitoring.Admission.RateBound
import HostMonitoring.Admission.IdealRefinement
import HostMonitoring.Framework.Stats
import HostMonitoring.Store.Batching
import HostMonitoring.Store.Correspondence
import HostMonitoring.Store.PollRuns
import HostMonitoring.Store.AuditLog
import HostMonitoring.Store.PairingBounds
import HostMonitoring.Store.Isolation
import HostMonitoring.Retention.Ingestion
import HostMonitoring.Retention.Pace
import HostMonitoring.Retention.Settled
import HostMonitoring.Telemetry.Protocol
import HostMonitoring.Model.MetricRange
import HostMonitoring.Store.Points
import HostMonitoring.Store.HostDetail
import HostMonitoring.Store.Presentable
import HostMonitoring.Web.HostList
import HostMonitoring.Release.ExactTree
import HostMonitoring.Framework.JsonRoundTrip
import HostMonitoring.Release.WriterAgrees
import HostMonitoring.Release.Spelling
import HostMonitoring.Protocol.JsonU64
import HostMonitoring.Store.Retries
import HostMonitoring.Store.LastSeen
import HostMonitoring.Admission.Delays
import HostMonitoring.Admission.RetryAfter
import HostMonitoring.Workflow.Checkout
import HostMonitoring.Workflow.HiddenUses
import HostMonitoring.Locks.Exclusion
import HostMonitoring.Locks.Contention
import HostMonitoring.Server.Rate
import HostMonitoring.Server.Wire
