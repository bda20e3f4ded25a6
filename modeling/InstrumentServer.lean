import InstrumentServer.Lib.Transition
import InstrumentServer.Lib.Lists
import InstrumentServer.Lib.Bytes
import InstrumentServer.Lib.SortedAssoc
import InstrumentServer.Lib.Double
import InstrumentServer.Lib.Barrier
import InstrumentServer.Lib.Json.Value
import InstrumentServer.Lib.Json.Library
import InstrumentServer.Lib.Json.Text
import InstrumentServer.Ipc.SerializedCommand
import InstrumentServer.Ipc.Codec
import InstrumentServer.Ipc.Message
import InstrumentServer.Worker.PluginInterface
import InstrumentServer.Worker.Instrument
import InstrumentServer.Worker.MainLoop
import InstrumentServer.Server.SyncCoordinator
import InstrumentServer.Server.BarrierRefinement
import InstrumentServer.Server.JobManager
import InstrumentServer.Server.JobMoves
import InstrumentServer.Server.JobQueue
import InstrumentServer.Server.JobDispatch
import InstrumentServer.Server.JobStatus
import InstrumentServer.Server.InstrumentWorkerProxy
import InstrumentServer.Server.ProxyPromises
import InstrumentServer.Server.Framing
import InstrumentServer.Server.WorkerLink
import InstrumentServer.Server.RuntimeContext
import InstrumentServer.Server.ResultBookkeeping
import InstrumentServer.Server.ResultAlignment
import InstrumentServer.Server.ResultOrder
import InstrumentServer.Server.Measurement
import InstrumentServer.Server.SyncResults
import InstrumentServer.Server.BarrierDetection
import InstrumentServer.Server.TokenIdentity
import InstrumentServer.Server.CoordinatorLifetime
import InstrumentServer.Server.ProxyStop
import InstrumentServer.Server.ProxyLifecycle
import InstrumentServer.Server.ProxyRestart
import InstrumentServer.Server.InstrumentRegistry
import InstrumentServer.Server.RegistryAtomicity
import InstrumentServer.Server.Lockstep
import InstrumentServer.Server.JobResults
import InstrumentServer.Server.PendingCommands
import InstrumentServer.Ipc.DataBufferManager
import InstrumentServer.Ipc.BufferReferences
import InstrumentServer.Server.LargeData
import InstrumentServer.Lib.Strings
import InstrumentServer.Server.HttpRequest
import InstrumentServer.Server.RequestBody
import InstrumentServer.Server.PidFile
import InstrumentServer.Server.DaemonStart
import InstrumentServer.Ipc.ProcessManager
import InstrumentServer.Server.ServerDaemon
import InstrumentServer.Server.CommandHandlers
import InstrumentServer.Server.DaemonStop
import InstrumentServer.Server.CommandLine
import InstrumentServer.Server.CliProcesses
import InstrumentServer.Worker.PluginCommand
import InstrumentServer.Worker.VisaPlugin
import InstrumentServer.Worker.WorkerMain
import InstrumentServer.Server.ConfiguredCommand
import InstrumentServer.Server.ScriptArguments
import InstrumentServer.Server.ParallelDispatch
import InstrumentServer.Server.BarrierMembership
import InstrumentServer.Worker.PluginParameters
import InstrumentServer.Server.BlockBarrier
import InstrumentServer.Server.TemporaryInstrument
import InstrumentServer.Server.PluginRegistry
import InstrumentServer.Lib.Validator
import InstrumentServer.Validation.SchemaValidator
import InstrumentServer.Validation.TemplateExpander
import InstrumentServer.Validation.ConfigurationGenerator
import InstrumentServer.Server.ResponseType
import InstrumentServer.Validation.QuantumDotDevice
import InstrumentServer.Validation.DeviceOrder
import InstrumentServer.Validation.DeviceWiring
import InstrumentServer.Ipc.BufferSizes
import InstrumentServer.Server.JobResultReply
import InstrumentServer.Validation.ChannelNames
import InstrumentServer.Server.ReturnedValues
import InstrumentServer.Lib.Placeholders
import InstrumentServer.Worker.TemplateBuffer
import InstrumentServer.Worker.PlaceholderNames
import InstrumentServer.Server.ChannelPlaceholder
import InstrumentServer.Lib.DocumentPath
import InstrumentServer.Server.ConvertedNames
import InstrumentServer.Server.RequestHeaders
import InstrumentServer.Server.ContentLength
import InstrumentServer.Server.CallNames
import InstrumentServer.Server.ProxyStatistics
import InstrumentServer.Server.CountingProxy
import InstrumentServer.Lib.Rounding
import InstrumentServer.Lib.JsonSchema
import InstrumentServer.Server.MeasurementSchema
import InstrumentServer.Server.RpcServerThread
import InstrumentServer.Lib.NumericText
import InstrumentServer.Server.TestParameters
import InstrumentServer.Worker.RenderedNumber
import InstrumentServer.Worker.VisaReply
import InstrumentServer.Server.TextReplies
import InstrumentServer.Server.IndexPartition
import InstrumentServer.Lib.CountedLoop
import InstrumentServer.Validation.ChannelLoops
import InstrumentServer.Lib.LengthFraming
import InstrumentServer.Server.HeaderBlock
import InstrumentServer.Server.HttpReply
import InstrumentServer.Server.PluginListing
import InstrumentServer.Lib.Progress
import InstrumentServer.Server.JobProgress
import InstrumentServer.Server.JobRecords
import InstrumentServer.Server.JobTimes
import InstrumentServer.Server.RpcDispatch
import InstrumentServer.Server.RpcExchange
import InstrumentServer.Lib.NamedQueues
import InstrumentServer.Ipc.QueueStore
import InstrumentServer.Server.MeasurePaths
import InstrumentServer.Worker.VisaSessions
import InstrumentServer.Server.AwaitedResponses
import InstrumentServer.Server.MeasurementProgress
import InstrumentServer.Server.MeasurementEnd
