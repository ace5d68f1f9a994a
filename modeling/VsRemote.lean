import VsRemote.Lib.Coro
import VsRemote.Lib.OrderedDict
import VsRemote.Lib.Runs
import VsRemote.Lib.Filtered
import VsRemote.Lib.TurnOrder
import VsRemote.Lib.CyclicAlloc
import VsRemote.Lib.RollingWindow
import VsRemote.Lib.Base85
import VsRemote.Codec
import VsRemote.Envelopes
import VsRemote.Metrics
import VsRemote.Runner
import VsRemote.Daemon
import VsRemote.Server
import VsRemote.Tasks
import VsRemote.HandlerRules
import VsRemote.HandlerKeeps
import VsRemote.ReplyMonitor
import VsRemote.Lifecycle
import VsRemote.OneReply
import VsRemote.PoolJobs
import VsRemote.TokenCheck
import VsRemote.NotFoundTeardown
import VsRemote.RunnerSteps
import VsRemote.LoadRace
import VsRemote.PartialLoad
import VsRemote.EvalGate
import VsRemote.RunnerEnvironment
import VsRemote.RenderEnvironment
import VsRemote.TokenIsolation
import VsRemote.Serve
import VsRemote.ServeShutdown
import VsRemote.EventStream
import VsRemote.EventDelivery
import VsRemote.HistoryOverlap
import VsRemote.LiveOrder
import VsRemote.FrameLifetime
import VsRemote.LoopSteps
import VsRemote.RequestSection
import VsRemote.InflightTable
import VsRemote.InflightAccounting
import VsRemote.FrameAccounting
import VsRemote.RollingMetrics
import VsRemote.CopyPlane
import VsRemote.FetchFrame
import VsRemote.PixelTransport
import VsRemote.Tracker
import VsRemote.Delivery
import VsRemote.OwnReplies
import VsRemote.ClientMethods
import VsRemote.ReplyDecoding
import VsRemote.ClientSteps
import VsRemote.CloseSettles
import VsRemote.ClientWorkers
import VsRemote.RunningWorker
import VsRemote.ClientMessages
import VsRemote.OrphanedRequests
import VsRemote.DoneCallbacks
import VsRemote.CallbackLock
import VsRemote.Prefetch
import VsRemote.PrefetchWindow
import VsRemote.IdAllocation
import VsRemote.FramingRoundTrip
import VsRemote.OutputStores
import VsRemote.PolicyOwnership
import VsRemote.Redirect
import VsRemote.StreamRestore
import VsRemote.NestedCapture
import VsRemote.Pipe
import VsRemote.PipeStream
import VsRemote.PipeWindow
import VsRemote.PipePrefetch
import VsRemote.CurveKeys
import VsRemote.Whitelist
import VsRemote.ZapLoop
import VsRemote.Lib.PercentFormat
import VsRemote.LogForwarder
import VsRemote.LogText
import VsRemote.Connection
import VsRemote.Agreement
import VsRemote.BroadcastReach
import VsRemote.FrameDelivery
import VsRemote.ClientEvents
import VsRemote.EventFeed
import VsRemote.EventMessages
import VsRemote.EventOrigin
import VsRemote.CancelReach
import VsRemote.Lib.Quiesce
import VsRemote.Lib.Y4m
import VsRemote.LoadOutcomes
import VsRemote.PlayedStream
import VsRemote.Quiescence
import VsRemote.LoadedOutputs
