import Hitrace.HitraceConverter.SegmentOperators

namespace Hitrace.HitraceConverter

open Library

/-! The event lines of `SysTraceViewer`.  Of the functions in `print_fmt_func_map`
two read the dict of the process; the others are a parameter of the model.  A function
without a result raises. -/

/-! Texts. -/

def rjust (width : Nat) (text : List Char) : List Char :=
  List.replicate (width - text.length) ' ' ++ text

def ljust (width : Nat) (text : List Char) : List Char :=
  text ++ List.replicate (width - text.length) ' '

def zfill (width : Nat) (text : List Char) : List Char :=
  List.replicate (width - text.length) '0' ++ text

def natText (number : Nat) : List Char :=
  (toString number).toList

/-- `%d`. -/
def intText (number : Int) : List Char :=
  if number < 0 then '-' :: natText number.natAbs else natText number.natAbs

/-- `%03d`. -/
def paddedText (number : Int) : List Char :=
  if number < 0 then '-' :: zfill 2 (natText number.natAbs)
  else zfill 3 (natText number.natAbs)

/-- `data[start:stop]`; a negative index counts from the end. -/
def pySlice (data : List UInt8) (start stop : Int) : List UInt8 :=
  let index (position : Int) : Nat :=
    if position < 0 then (position + data.length).toNat else position.toNat
  (data.take (index stop)).drop (index start)

/-- `int.from_bytes` in little endian. -/
def intFromBytes (bytes : List UInt8) (signed : Bool) : Int :=
  let value : Int := LittleEndian.decode bytes
  if signed && decide (2 * value ≥ 256 ^ bytes.length) then value - 256 ^ bytes.length
  else value

/-! `parse_functions.py`. -/

structure OneEvent where
  name : List Char
  printFmt : List Char
  fields : List (List Char × List UInt8)
  cpuId : Nat
deriving Repr, DecidableEq

def parseIntField (oneEvent : OneEvent) (name : List Char) (signed : Bool) : Option Int :=
  (oneEvent.fields.lookup name).map fun bytes => intFromBytes bytes signed

/-- `cmd_lines.get(tid, "")`. -/
def cmdLineOf (cmdLines : Dict (List Char)) (tid : Int) : List Char :=
  (cmdLines.lookup tid).getD []

/-- The name that the two functions print for a thread. -/
def liteName (names : Int → List Char) (oneEvent : OneEvent) (tid : Int) : List Char :=
  if tid = 0 then "tppmgr-idle-".toList ++ natText oneEvent.cpuId else names tid

def pidField : List Char := "pid".toList
def prevTidField : List Char := "prev_tid".toList
def nextTidField : List Char := "next_tid".toList

def parseSchedWakeupHmLite (names : Int → List Char) (oneEvent : OneEvent) :
    Option (List Char) := do
  let pid ← parseIntField oneEvent pidField true
  let pname := liteName names oneEvent pid
  let prio ← parseIntField oneEvent "prio".toList true
  let targetCpu ← parseIntField oneEvent "target_cpu".toList true
  some ("comm=".toList ++ pname ++ (" pid=".toList ++ intText pid ++
    " prio=".toList ++ intText prio ++ " target_cpu=".toList ++ paddedText targetCpu))

/-- The fields packed into `ninfo`. -/
def nextInfo (ninfo : List UInt8) : List Char :=
  let affinity := (Nat.toDigits 16 (LittleEndian.decode (ninfo.take 4))).dropWhile (· == '0')
  let affinity := if affinity.isEmpty then ['0'] else affinity
  let remaining := LittleEndian.decode (ninfo.drop 4)
  let bits (low width : Nat) : Nat := remaining / 2 ^ low % 2 ^ width
  List.intercalate [','] [affinity, natText (bits 0 10 * 2), natText (bits 10 2),
    natText (bits 12 1), natText (bits 13 3), natText (bits 16 5), natText (bits 21 7)]

def prevState (pstate : Int) : List Char :=
  if pstate = 0 then ['R']
  else if pstate = 1 then ['S']
  else if pstate = 2 then ['D']
  else if pstate = 0x10 then ['X']
  else if pstate = 0x100 then ['R', '+']
  else ['?']

def parseSchedSwitchHmLite (names : Int → List Char) (oneEvent : OneEvent) :
    Option (List Char) := do
  let prevTid ← parseIntField oneEvent prevTidField true
  let pname := liteName names oneEvent prevTid
  let pprio ← parseIntField oneEvent "pprio".toList true
  let pstate ← parseIntField oneEvent "pstate".toList false
  let nextTid ← parseIntField oneEvent nextTidField true
  let nname := liteName names oneEvent nextTid
  let nprio ← parseIntField oneEvent "nprio".toList true
  let ninfo ← oneEvent.fields.lookup "ninfo[8]".toList
  some ("prev_comm=".toList ++ pname ++ (" prev_pid=".toList ++ intText prevTid ++
    " prev_prio=".toList ++ intText pprio ++ " prev_state=".toList ++ prevState pstate ++
    " ==> next_comm=".toList) ++ nname ++ (" next_pid=".toList ++ intText nextTid ++
    " next_prio=".toList ++ intText nprio ++ " next_info=".toList ++ nextInfo ninfo))

def printFmtSchedWakeupHmLite : List Char :=
  "\"comm=%s pid=%d prio=%d ".toList ++
    "target_cpu=%03d\", ".toList ++
    "trace_cmdline_of(REC->pid, ".toList ++
    "tmp_thread_name_next), ".toList ++
    "REC->pid, REC->prio, ".toList ++
    "REC->target_cpu".toList

def printFmtSchedSwitchHmLite : List Char :=
  "\"prev_comm=%s prev_pid=%d ".toList ++
    "prev_prio=%d ".toList ++
    "prev_state=%s\" \" ==> ".toList ++
    "next_comm=%s next_pid=%d ".toList ++
    "next_prio=%d ".toList ++
    "next_info=%s\", ".toList ++
    "trace_cmdline_of(REC->prev_tid, ".toList ++
    "tmp_thread_name_prev), ".toList ++
    "REC->prev_tid, ".toList ++
    "REC->pprio, ".toList ++
    "hm_trace_tcb_state2str(REC->pstate), ".toList ++
    "trace_cmdline_of(REC->next_tid, ".toList ++
    "tmp_thread_name_next), ".toList ++
    "REC->next_tid, ".toList ++
    "REC->nprio, ".toList ++
    "hm_trace_tcb_unpack_schedinfo(REC->ninfo, ".toList ++
    "sizeof(REC->ninfo))".toList

/-- The other functions of `print_fmt_func_map`, each with its print format. -/
abbrev OtherFunctions :=
  List Char → Option (List UInt8 → OneEvent → Option (List Char))

section Viewer

variable (others : OtherFunctions) (names : Int → List Char)

/-- `parse_functions.parse`; the inner `none` is the result None of a format without a
function. -/
def parsePrintFmt (data : List UInt8) (oneEvent : OneEvent) : Option (Option (List Char)) :=
  if oneEvent.printFmt = printFmtSchedWakeupHmLite then
    (parseSchedWakeupHmLite names oneEvent).map some
  else if oneEvent.printFmt = printFmtSchedSwitchHmLite then
    (parseSchedSwitchHmLite names oneEvent).map some
  else
    match others oneEvent.printFmt with
    | none => some none
    | some parse => (parse data oneEvent).map some

/-! `SysTraceViewer`. -/

def traceFlagsToStr (flags preemptCount : Nat) : List Char :=
  let has (mask : Nat) : Bool := flags &&& mask != 0
  let irqsOff := if has 0x01 then 'd' else if has 0x02 then 'X' else '.'
  let needResched :=
    if has 0x04 && has 0x20 then 'N' else if has 0x04 then 'n'
    else if has 0x20 then 'p' else '.'
  let irqChar :=
    if has 0x40 && has 0x08 then 'Z' else if has 0x40 then 'z'
    else if has 0x08 && has 0x10 then 'H' else if has 0x08 then 'h'
    else if has 0x10 then 's' else '.'
  let preempt := if preemptCount != 0 then Nat.digitChar (preemptCount % 16) else '.'
  [irqsOff, needResched, irqChar, preempt]

/-- The part of a line in front of the event. -/
def lineHead (cmdLines : Dict (List Char)) (tgids : Dict Int) (timestamp : Nat)
    (oneEvent : OneEvent) : Option (List Char) := do
  let pid ← parseIntField oneEvent "common_pid".toList false
  let cmdLine := cmdLineOf cmdLines pid
  let comm :=
    if pid = 0 then "<idle>".toList
    else if cmdLine ≠ [] then cmdLine
    else "<...>".toList
  let tgid :=
    match tgids.lookup pid with
    | some tgid => '(' :: rjust 5 (intText tgid) ++ [')']
    | none => "(-----)".toList
  let flags ← parseIntField oneEvent "common_flags".toList false
  let preemptCount ← parseIntField oneEvent "common_preempt_count".toList false
  let flagsText :=
    if flags ≠ 0 ∨ preemptCount ≠ 0 then
      traceFlagsToStr flags.toNat preemptCount.toNat ++ [' ']
    else ".... ".toList
  let micros := natText
    (if timestamp % 1000 ≥ 500 then timestamp / 1000 + 1 else timestamp / 1000)
  let tsSecs := rjust 5 (micros.take (micros.length - 6))
  let tsMicroSecs := micros.drop (micros.length - 6)
  some (rjust 16 comm ++ ['-'] ++ ljust 6 (intText pid) ++ tgid ++ " [".toList ++
    zfill 3 (natText oneEvent.cpuId) ++ "] ".toList ++ flagsText ++
    tsSecs ++ ['.'] ++ tsMicroSecs ++ ": ".toList)

/-- What a line says of the event; without a function it says nothing. -/
def eventText (oneEvent : OneEvent) : Option (List Char) → List Char
  | none => []
  | some text => oneEvent.name ++ ": ".toList ++ text

def generateOneEventStr (cmdLines : Dict (List Char)) (tgids : Dict Int)
    (data : List UInt8) (timestamp : Nat) (oneEvent : OneEvent) : Option (List Char) := do
  let head ← lineHead cmdLines tgids timestamp oneEvent
  let result ← parsePrintFmt others names data oneEvent
  some (head ++ eventText oneEvent result)

/-- The event that the format describes; a format without a name raises. -/
def oneEventOf (format : EventFormat) (event : TraceEvent) : Option OneEvent := do
  let name ← format.name
  let printFmt ← format.printFmt
  some
    { name
      printFmt
      fields := (format.fields.map fun field =>
        (field.name, pySlice event.segment field.offset (field.offset + field.size))).reverse
      cpuId := event.coreId }

/-- The line of an event, unless its format is missed. -/
def calculate (state : ParserState) (event : TraceEvent) :
    Option (Option (Nat × List Char)) :=
  match state.eventFormat.lookup (event.eventId : Int) with
  | none => some none
  | some format => do
      let oneEvent ← oneEventOf format event
      let line ← generateOneEventStr others names state.cmdLines state.tidGroups
        event.segment event.timestamp oneEvent
      some (some (event.timestamp, line))

def calculateAll (state : ParserState) : List TraceEvent → Option (List (Nat × List Char))
  | [] => some []
  | event :: rest => do
      let line ← calculate others names state event
      let lines ← calculateAll state rest
      some (line.toList ++ lines)

end Viewer

/-- The event lines of a file, as `save_systrace` writes them. -/
def eventLines (others : OtherFunctions) (state : ParserState) :
    Option (List (List Char)) := do
  let systrace ← calculateAll others (cmdLineOf state.processCmdLines) state
    state.traceEvents
  some ((systrace.mergeSort fun left right => decide (left.1 ≤ right.1)).map Prod.snd)

end Hitrace.HitraceConverter
