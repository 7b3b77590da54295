import Hitrace.Define
import Hitrace.Library.Transition
import Hitrace.Utils.TraceFileUtils
import Hitrace.TracedumpExecutor.DumpState
import Hitrace.HitraceDump.LoopControl
import Hitrace.HitraceDump.LoopExclusion
import Hitrace.HitraceDump.LoopToken
import Hitrace.Library.Accounting
import Hitrace.TraceFactory.BufferManager
import Hitrace.Library.LittleEndian
import Hitrace.Library.PosixFile
import Hitrace.TraceFactory.TraceContent
import Hitrace.TraceFactory.CpuRaw
import Hitrace.TracedumpExecutor.DumpStrategy
import Hitrace.TracedumpExecutor.BlockLifetime
import Hitrace.TracedumpExecutor.DumpExecutor
import Hitrace.TracedumpExecutor.ReplyProtocol
import Hitrace.TracedumpExecutor.FailedRead
import Hitrace.TraceFactory.Segment
import Hitrace.HitraceConverter.TraceFile
import Hitrace.TraceFactory.Container
import Hitrace.TraceFactory.RawSegments
import Hitrace.HitraceConverter.RoundTrip
import Hitrace.TraceFactory.Framing
import Hitrace.TraceFactory.CaptureAgreement
import Hitrace.TraceFactory.DumpStatus
import Hitrace.HitraceConverter.SegmentDispatch
import Hitrace.HitraceDump.AsyncSession
import Hitrace.HitraceDump.SessionIsolation
import Hitrace.HitraceDump.AsyncCallback
import Hitrace.TracedumpExecutor.TaskWindow
import Hitrace.Utils.TraceFileInfo
import Hitrace.HitraceDump.DumpResult
import Hitrace.HitraceDump.FileInfoAgreement
import Hitrace.HitraceMeter.AppTrace
import Hitrace.HitraceMeter.AppCapture
import Hitrace.Utils.FileAgeing
import Hitrace.HitraceDump.OpenTrace
import Hitrace.HitraceDump.TraceSession
import Hitrace.HitraceDump.OpenAtomicity
import Hitrace.HitraceConverter.TextSegments
import Hitrace.HitraceConverter.SegmentOperators
import Hitrace.HitraceConverter.CutFiles
import Hitrace.HitraceConverter.SysTraceViewer
import Hitrace.HitraceConverter.DirectoryMode
import Hitrace.Library.BitField
import Hitrace.HitraceChain.HiTraceId
import Hitrace.HitraceChain.HiTraceChain
import Hitrace.HitraceChain.ChainState
import Hitrace.HitraceChain.ChainIdUniqueness
import Hitrace.HitraceDump.TimeWindow
import Hitrace.HitraceMeter.TraceMarker
import Hitrace.Library.Bracket
import Hitrace.HitraceMeter.Scopes
import Hitrace.HitraceMeter.SystemIndependence
import Hitrace.HitraceMeter.TraceListeners
import Hitrace.HitraceMeter.TagUpdate
import Hitrace.HitraceCmd.BootTrace
import Hitrace.HitraceDump.CacheFiles
import Hitrace.HitraceDump.CacheResults
import Hitrace.Library.FixedBuffer
import Hitrace.TraceFactory.GlobalBuffer
import Hitrace.TraceFactory.TextContents
import Hitrace.TraceFactory.PageCapture
import Hitrace.TraceFactory.SizeAccounting
import Hitrace.TraceFactory.StoredPages
import Hitrace.TracedumpExecutor.NamedFile
import Hitrace.HitraceDump.OverflowFlag
import Hitrace.HitraceDump.RetInfo
import Hitrace.HitraceDump.Coverage
import Hitrace.HitraceDump.LateResult
import Hitrace.HitraceDump.OutstandingTasks
import Hitrace.Library.Eviction
import Hitrace.Utils.SnapshotAgeing
import Hitrace.Utils.RecordAgeing
import Hitrace.HitraceDump.CacheCleaning
import Hitrace.Library.LexicalPath
import Hitrace.Utils.OutputPath
import Hitrace.HitraceConverter.PageDecoding
import Hitrace.HitraceDump.FileSizeThreshold
import Hitrace.TracedumpExecutor.ReplacedFile
import Hitrace.TracedumpExecutor.CacheSlice
import Hitrace.Library.BoundedWriter
import Hitrace.HitraceMeter.MarkerRecord
import Hitrace.HitraceMeter.RecordLength
import Hitrace.Library.Decimal
import Hitrace.Utils.ScanNumber
import Hitrace.Utils.FileNameTime
import Hitrace.Library.Occurrence
import Hitrace.Utils.WordSearch
import Hitrace.HitraceOption.AppFilter
import Hitrace.HitraceDump.LinkCounter
import Hitrace.HitraceDump.LocalParams
import Hitrace.Library.Squeeze
import Hitrace.HitraceDump.ArgString
import Hitrace.HitraceDump.TagArgs
import Hitrace.Library.SortedSet
import Hitrace.Library.Overwrite
import Hitrace.HitraceDump.TraceNodes
import Hitrace.HitraceOption.TraceContext
import Hitrace.Library.Json
import Hitrace.Library.JsonReader
import Hitrace.Library.QuotedText
import Hitrace.HitraceCmd.BootTraceJson
import Hitrace.HitraceCmd.BootTraceLoading
import Hitrace.HitraceCmd.BootTraceRoundTrip
import Hitrace.HitraceCmd.BootTraceText
import Hitrace.HitraceCmd.BootTraceOptions
import Hitrace.Library.JsonPrinter
import Hitrace.HitraceCmd.BootTraceUpdate
import Hitrace.HitraceCmd.BootTraceRuns
import Hitrace.HitraceCmd.BootTraceFields
import Hitrace.HitraceCmd.BootTraceNumbering
import Hitrace.HitraceCmd.CommandLine
import Hitrace.HitraceCmd.OptionOrder
import Hitrace.Library.Words
import Hitrace.HitraceDump.ClockSelection
import Hitrace.HitraceDump.DynamicBuffer
import Hitrace.Library.Numeral
import Hitrace.Utils.StringToNumber
import Hitrace.Library.Utf8
import Hitrace.Library.JoinedText
import Hitrace.HitraceConverter.DynamicArrays
import Hitrace.Library.StableSort
import Hitrace.HitraceConverter.OutputFile
import Hitrace.HitraceConverter.TextTables
import Hitrace.Library.Loop
import Hitrace.HitraceCmd.CompressedTrace
import Hitrace.Library.LastWrite
import Hitrace.HitraceChain.Accessors
import Hitrace.Library.Positional
import Hitrace.HitraceMeter.StringUtil
import Hitrace.Library.BitIndices
import Hitrace.HitraceMeter.TagBits
import Hitrace.HitraceConverter.Conversion
import Hitrace.HitraceConverter.AsyncConversion
import Hitrace.Utils.StoppableThread
import Hitrace.TracedumpExecutor.DumpLoops
import Hitrace.TracedumpExecutor.DumpEnd
import Hitrace.Library.Delimited
import Hitrace.HitraceMeter.RecordReading
import Hitrace.HitraceMeter.JsListeners
import Hitrace.HitraceCmd.Recording
import Hitrace.HitraceCmd.CollectorRequests
import Hitrace.HitraceCmd.TextDump
import Hitrace.Common.SmartFd
import Hitrace.Library.Trimming
import Hitrace.HitraceDump.RecordSession
import Hitrace.Library.SortedMap
import Hitrace.Utils.TraceJsonParser
import Hitrace.HitraceConverter.RecordConversion
