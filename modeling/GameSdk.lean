import GameSdk.MixedRadix
import GameSdk.DigitSets
import GameSdk.Varint
import GameSdk.WireFormat
import GameSdk.Runs
import GameSdk.Checked
import GameSdk.AnnotationUtil
import GameSdk.AnnotationCodec
import GameSdk.AnnotationRoundTrip
import GameSdk.ValidationUtil
import GameSdk.Histogram
import GameSdk.Prong
import GameSdk.UploadThread
import GameSdk.ClearcutLog
import GameSdk.Nanopb
import GameSdk.TuningForkImpl
import GameSdk.TuningForkSteps
import GameSdk.SetAnnotation
import GameSdk.CacheSafety
import GameSdk.Safety
import GameSdk.SampleAccounting
import GameSdk.ClearcutSerializer
import GameSdk.SampleCounts
import GameSdk.TickTimes
import GameSdk.SampleKeys
import GameSdk.HistogramSettings
import GameSdk.FrameDuration
import GameSdk.SwappyCommon
import GameSdk.SwappySteps
import GameSdk.SwapInterval
import GameSdk.PipelineMode
import GameSdk.ConfigChanged
import GameSdk.RefreshPlan
import GameSdk.Settling
import GameSdk.SwappySettings
import GameSdk.FenceWaiter
import GameSdk.SyncObjects
import GameSdk.FenceReuse
import GameSdk.QueuePresent
import GameSdk.SyncFence
import GameSdk.FrameStatistics
import GameSdk.FlushTimes
import GameSdk.FidelityParams
import GameSdk.FPDownload
import GameSdk.DownloadThread
import GameSdk.SharedKeys
import GameSdk.AnnotationIds
import GameSdk.ChoreographerThread
import GameSdk.HistogramBuckets
import GameSdk.HistogramRuns
import GameSdk.SettingsListeners
import GameSdk.SwappyGL
import GameSdk.SwappyTraces
import GameSdk.TraceHandles
import GameSdk.SwappyVk
import GameSdk.TableSizes
import GameSdk.SwapPeriods
import GameSdk.SlidingWindow
import GameSdk.FrameWindow
import GameSdk.RunningBest
import GameSdk.RefreshSearch
import GameSdk.Base128
import GameSdk.WhileLoop
import GameSdk.ChoreographerFilter
import GameSdk.PieceQueue
import GameSdk.ProtobufUtil
import GameSdk.DeveloperTuningforkParser
import GameSdk.Scanner
import GameSdk.Json11
import GameSdk.JsonParser
import GameSdk.JsonText
import GameSdk.JsonGrammar
import GameSdk.JsonRoundTrip
import GameSdk.RequestJson
import GameSdk.FramePacing
import GameSdk.ThreadPool
import GameSdk.FilterThreads
import GameSdk.FilterSafety
import GameSdk.FilterProgress
import GameSdk.SwappySystem
import GameSdk.CrashHandler
import GameSdk.CrashSafety
import GameSdk.SyncShutdown
import GameSdk.CPUTracer
import GameSdk.UploadLifecycle
import GameSdk.VkFrames
