import Hitrace.HitraceConverter.Conversion
import Hitrace.TracedumpExecutor.BlockLifetime

namespace Hitrace.HitraceConverter

open Library TraceContent CpuRaw TextTables

/-! From the pipes through blocks of memory and a file written later. -/

section Blocks

variable (isHm : Bool) (request : TraceDumpRequest)

end Blocks

/-! The segments of the blocks. -/

section Async

variable {source : RawSource} {contents : TraceContents} {tables : KernelTables}
  {request : TraceDumpRequest} {taskBuffers : Multimap UInt64 BufferBlock} {io : TraceIo}

end Async

end Hitrace.HitraceConverter
