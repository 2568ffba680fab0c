import Carlinkit.Machine.Run
import Carlinkit.Machine.Ownership
import Carlinkit.Machine.Window
import Carlinkit.Machine.Files
import Carlinkit.Machine.Arrays
import Carlinkit.Machine.Streaks
import Carlinkit.Machine.Handoff
import Carlinkit.Machine.Progress
import Carlinkit.Framing.Words
import Carlinkit.Framing.Scan
import Carlinkit.Framing.AnnexB
import Carlinkit.Protocol.Header
import Carlinkit.Protocol.Video
import Carlinkit.Protocol.ParameterSets
import Carlinkit.Protocol.StartCodes
import Carlinkit.Protocol.Audio
import Carlinkit.Driver.Dispatch
import Carlinkit.Driver.ReadLoop
import Carlinkit.Driver.Delivery
import Carlinkit.Driver.Resync
import Carlinkit.Driver.SendNow
import Carlinkit.Driver.InitSequence
import Carlinkit.Driver.MicAudio
import Carlinkit.Driver.WriteSide
import Carlinkit.Driver.WriteOrder
import Carlinkit.Driver.Closing
import Carlinkit.Driver.SendLoss
import Carlinkit.Driver.SendPriority
import Carlinkit.Driver.Uncaught
import Carlinkit.App.FileLog
import Carlinkit.App.LogFiles
import Carlinkit.App.LogRotation
import Carlinkit.App.LogRescue
import Carlinkit.App.VideoPath
import Carlinkit.App.Detaching
import Carlinkit.App.Activity
import Carlinkit.Manager.SteeringMenu
import Carlinkit.Manager.ProjectionVideo
import Carlinkit.App.PermissionRequests
import Carlinkit.App.ButtonDedupe
import Carlinkit.App.CodecLeaks
import Carlinkit.App.DecodeStats
import Carlinkit.App.SpsDetection
import Carlinkit.App.PhoneButton
import Carlinkit.App.Reopening
import Carlinkit.App.SurfaceReady
import Carlinkit.App.Heartbeat
import Carlinkit.App.Focus
import Carlinkit.App.OpenCommand
import Carlinkit.App.Background
import Carlinkit.App.Reconnects
import Carlinkit.App.Screen
import Carlinkit.App.MicCommands
import Carlinkit.App.AnnouncedFormat
import Carlinkit.App.MicUsers
import Carlinkit.App.EcNcSession
import Carlinkit.App.CaptureThreads
import Carlinkit.App.CaptureOwner
import Carlinkit.App.CaptureLabels
import Carlinkit.App.CaptureEnd
import Carlinkit.App.MicStop
import Carlinkit.App.MicCalls
import Carlinkit.App.AudioQueue
import Carlinkit.App.AudioPlayer
import Carlinkit.App.AudioWorker
import Carlinkit.App.AudioFill
import Carlinkit.App.PcmBuffers
import Carlinkit.App.PcmOwner
import Carlinkit.App.QueueMoves
import Carlinkit.App.QueueTrimming
import Carlinkit.App.QueueCount
import Carlinkit.App.MuteEvents
import Carlinkit.App.LogCap
import Carlinkit.Protocol.CachedCopies
import Carlinkit.Bench.Session
import Carlinkit.App.SilentSources
import Carlinkit.App.VideoStall
import Carlinkit.App.NightMode
import Carlinkit.App.EarlyLines
import Carlinkit.App.Pruning
import Carlinkit.Native.OmxSource
import Carlinkit.Native.VideoCodec
import Carlinkit.Native.CodecControl
import Carlinkit.Native.CodecProgress
import Carlinkit.Native.CodecBuffers
import Carlinkit.App.AudioStats
import Carlinkit.Bench.StartCodes
import Carlinkit.Bench.Windows
import Carlinkit.Bench.Numbers
import Carlinkit.App.Relaunch
import Carlinkit.App.StatusView
import Carlinkit.App.DongleMessages
import Carlinkit.Manager.DispMode
import Carlinkit.Manager.ModeMgr
import Carlinkit.App.KeyRoutes
import Carlinkit.Framing.Fields
import Carlinkit.App.LogTarget
import Carlinkit.Bench.Recording
import Carlinkit.App.CaptureVerdict
import Carlinkit.Bench.PhoneRequests
