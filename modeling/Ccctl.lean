import Ccctl.Core.ControlFrame
import Ccctl.Core.Answering
import Ccctl.Server.Placeholders
import Ccctl.Server.SessionWatch
import Ccctl.Server.Attentions
import Ccctl.Server.Answers
import Ccctl.Server.Convergence
import Ccctl.Server.Launches
import Ccctl.Server.Terminals
import Ccctl.Server.Housekeeping
import Ccctl.Server.Retire
import Ccctl.Server.Stops
import Ccctl.Server.Polls
import Ccctl.Server.Relayed
import Ccctl.Server.Downstream
import Ccctl.Server.Silence
import Ccctl.Server.Idling
import Ccctl.Server.Clocked
import Ccctl.Server.Capacity
import Ccctl.Server.Shutdown
import Ccctl.Server.Captures
import Ccctl.WebUi.Enrichment
import Ccctl.Server.SessionStore
import Ccctl.Server.UnreadQueue
import Ccctl.Server.Renudge
import Ccctl.WebUi.Client
import Ccctl.WebUi.SteerQueue
import Ccctl.WebUi.StaleGuard
import Ccctl.WebUi.Picker
import Ccctl.Core.Loopback
import Ccctl.Server.Startup
import Ccctl.Server.TmuxLiveness
import Ccctl.Server.OwnedPty
import Ccctl.TunnelAdapters.Policy
import Ccctl.TunnelAdapters.StructuralEquality
import Ccctl.TunnelAdapters.Tailscale
import Ccctl.TunnelAdapters.AclFrame
import Ccctl.Cli.ServeTunnel
import Ccctl.Cli.ShutdownOrder
import Ccctl.Cli.TunnelRelease
import Ccctl.Core.UrlEncoding
import Ccctl.Core.Pairing
import Ccctl.WebUi.Pairing
import Ccctl.WebUi.EventStream
import Ccctl.WebUi.NeedsYou
import Ccctl.WebUi.AnswerCard
import Ccctl.Server.HookInstallSweep
import Ccctl.Server.WorkWire
import Ccctl.Server.RequestBody
import Ccctl.Server.TmuxLauncher
import Ccctl.Server.DeviceStore
import Ccctl.WebUi.Wake
import Ccctl.Lib.ShellWords
import Ccctl.Server.HookCapture
