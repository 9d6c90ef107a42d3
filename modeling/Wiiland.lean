import Wiiland.Core.ConfigRoundTrip
import Wiiland.Core.AimGate
import Wiiland.Hid.Resync
import Wiiland.Ipc.ClientAccount
import Wiiland.Ipc.ClientRecovery
import Wiiland.Ipc.Session
import Wiiland.ControlCenter.EditHistory
import Wiiland.Daemon.Capture
import Wiiland.Daemon.Requests
import Wiiland.Daemon.QueueAccount
import Wiiland.Daemon.RequestAccount
import Wiiland.Daemon.Evictions
import Wiiland.Daemon.Report
import Wiiland.Core.RuleLines
import Wiiland.Core.ConfigLayers
import Wiiland.Daemon.CliConfig
import Wiiland.Core.EngineHeld
import Wiiland.ControlCenter.FormSave
import Wiiland.Daemon.SocketOwnership
import Wiiland.Xtask.Ownership
import Wiiland.Lib.Mean
import Wiiland.Core.AimRuns
import Wiiland.Core.AimSmoothing
import Wiiland.Core.PointerTracking
import Wiiland.Core.Calibration
import Wiiland.Core.Arithmetic
import Wiiland.Core.Overflow
import Wiiland.Hid.Normalizer
import Wiiland.Daemon.OpenMasks
import Wiiland.Daemon.OutputOwners
import Wiiland.Daemon.PackedReads
import Wiiland.Daemon.PipelinedRuns
import Wiiland.Daemon.LeaseRuns
import Wiiland.Core.AxisScaling
import Wiiland.Core.PointSelection
import Wiiland.Daemon.ReportDates
import Wiiland.Hid.Monitor
import Wiiland.ControlCenter.OutputLog
import Wiiland.Hid.SeededAxes
import Wiiland.Xtask.MarkerRoundTrip
import Wiiland.Hid.RecoveredTurns
import Wiiland.Hid.ConsumerView
import Wiiland.Hid.OpenedMask
import Wiiland.Daemon.TalkServer
