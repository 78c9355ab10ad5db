import CadHarness.Undo.Theorems
import CadHarness.Journal.Theorems
import CadHarness.Journal.DurableCommitCoordinator
import CadHarness.Canonical.Theorems
import CadHarness.Domain.PlanHash
import CadHarness.Ipc.Framing
import CadHarness.Ipc.CancellationTheorems
import CadHarness.Persistence.JobStore
import CadHarness.Persistence.LeaseTheorems
import CadHarness.Persistence.AuditTheorems
import CadHarness.Service.Ports
import CadHarness.Service.OutcomeTheorems
import CadHarness.Service.ApprovalTheorems
import CadHarness.Geometry.Theorems
import CadHarness.Checkpoint.CatalogTheorems
import CadHarness.Checkpoint.IsolationTheorems
import CadHarness.Checkpoint.RestoreCoordinator
import CadHarness.Checkpoint.RestoreTheorems
import CadHarness.Lib.Guarded
import CadHarness.Inspection.ChangeTheorems
import CadHarness.Drawing.DxfTheorems
import CadHarness.Drawing.SummaryTheorems
import CadHarness.Annotation.Theorems
import CadHarness.Validation.PlacementTheorems
import CadHarness.Com.CommitTheorems
import CadHarness.Catalog.Lemmas.Compilers
import CadHarness.Com.UnitTheorems
import CadHarness.Com.ReadTheorems
import CadHarness.Takeoff.LengthTheorems
import CadHarness.Execution.Theorems
import CadHarness.Geometry.TracingTheorems
import CadHarness.Process.Theorems
import CadHarness.Remediation.Theorems
import CadHarness.Takeoff.NetAreaTheorems
import CadHarness.Security.Redaction
import CadHarness.Com.WorkerInvocation
import CadHarness.Takeoff.WeldTheorems
import CadHarness.Fake.Theorems
import CadHarness.Lib.JsonReader
import CadHarness.Geometry.FilletTheorems
import CadHarness.Geometry.CrossingTheorems
import CadHarness.Geometry.AreaTheorems
import CadHarness.Geometry.Forest
import CadHarness.Lib.Containment
import CadHarness.Lib.Trail
import CadHarness.Geometry.PolylineTheorems
import CadHarness.Geometry.ComponentTheorems
import CadHarness.Geometry.ContainmentTheorems
import CadHarness.Geometry.ForestTheorems
import CadHarness.Validation.DrawingAuditTheorems
import CadHarness.Lib.Levels
import CadHarness.Comprehension.Recognizer
import CadHarness.Comprehension.GridTheorems
import CadHarness.Comprehension.RingTheorems
import CadHarness.Comprehension.RecognizerTheorems
import CadHarness.Security.Retention
import CadHarness.Annotation.OverlapTheorems
import CadHarness.Comprehension.RasterTrace
import CadHarness.Comprehension.RasterTheorems
import CadHarness.Validation.DrawingAuditRules
import CadHarness.Validation.OverlapRuleTheorems
import CadHarness.Lib.PlaneDistance
import CadHarness.Geometry.Measure
import CadHarness.Lib.CircleArc
import CadHarness.Geometry.MeasureTheorems
import CadHarness.Geometry.ChordTheorems
import CadHarness.Service.Measurement
import CadHarness.Lib.AsciiText
import CadHarness.Com.RpcMessage
import CadHarness.Comprehension.ClosedLoops
import CadHarness.Lib.Spans
import CadHarness.Metrics.Effort
import CadHarness.Lib.Matching
import CadHarness.Golden.Comparison
import CadHarness.Golden.PairingTheorems
import CadHarness.Persistence.SchemaTheorems
import CadHarness.Ipc.NamedPipeTheorems
import CadHarness.Lib.Xml
import CadHarness.Preview.CompiledPlans
