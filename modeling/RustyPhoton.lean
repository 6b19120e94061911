import RustyPhoton.CameraCore.Geometry
import RustyPhoton.DoctorChecks.Relabelling
import RustyPhoton.FocusModel.NeverSilent
import RustyPhoton.FocusModel.Prediction
import RustyPhoton.Phd2Guider.CameraRuns
import RustyPhoton.Phd2Guider.GuiderRuns
import RustyPhoton.PlanetariumBridge.Durability
import RustyPhoton.PlanetariumBridge.Handover
import RustyPhoton.Rp.Cooling.Backstop
import RustyPhoton.Rp.Cooling.Supersession
import RustyPhoton.Rp.Equipment.Refocus
import RustyPhoton.Rp.Guiding.Trend
import RustyPhoton.Rp.Persistence.Sidecars
import RustyPhoton.Rp.Planner.Decision
import RustyPhoton.Rp.Planner.OneToOne
import RustyPhoton.Rp.Safety.Soundness
import RustyPhoton.Rp.Targets.Edits
import RustyPhoton.Rp.TrainLease.Isolation
import RustyPhoton.RpAuth.GateRuns
import RustyPhoton.Sentinel.Consistency
import RustyPhoton.Sentinel.Deadlines
import RustyPhoton.Sentinel.Gate
import RustyPhoton.SessionRunner.Document.Surface
import RustyPhoton.SessionRunner.Engine.Events
import RustyPhoton.SessionRunner.Engine.Firing
import RustyPhoton.SessionRunner.Engine.Once
import RustyPhoton.SessionRunner.Engine.Pause
import RustyPhoton.SessionRunner.Engine.Stop
import RustyPhoton.SessionRunner.Engine.Sync
import RustyPhoton.SessionRunner.Engine.Transparent
import RustyPhoton.SessionRunner.Events.Chunking
import RustyPhoton.SessionRunner.Expr.Equality
import RustyPhoton.SessionRunner.Expr.Total
import RustyPhoton.SessionRunner.Runs.Crash
import RustyPhoton.SessionRunner.SetWrites
import RustyPhoton.SharedTransport.Framing
import RustyPhoton.SharedTransport.Refcount
import RustyPhoton.SharedTransport.Registered
import RustyPhoton.SharedTransport.Stops
import RustyPhoton.SkywatcherProtocol.Codec
import RustyPhoton.StarAdventurer.MountClaims
import RustyPhoton.StarAdventurer.Routing
import RustyPhoton.StarAdventurer.SampleRuns
