import Hitrace.HitraceConverter.Conversion
import Hitrace.TracedumpExecutor.RecordSlice

namespace Hitrace.HitraceConverter

open Library TraceContent CpuRaw TextTables

/-! From the kernel through a file of a recording and the converter. -/

section Around

variable {isHm : Bool} {contents : TraceContents} {tables : KernelTables} {io : TraceIo}

end Around

/-! What is recorded. -/

section Recorded

end Recorded

/-! A file of a recording. -/

section Record

variable {isHm : Bool} {contents : TraceContents} {tables : KernelTables}
  {request : TraceDumpRequest} {turns : List (List RawPipe)} {ret : TraceDumpRet}
  {io : TraceIo}

end Record

end Hitrace.HitraceConverter
