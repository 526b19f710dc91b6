import VectorGuard.Core.Falco
import VectorGuard.Core.Text

/-!
# Tetragon Adapter

Converting the responses of Tetragon's event stream and handing them on
(`adapter/tetragon.rs`).

A connection delivers its responses one by one until the stream ends or fails.
Everything it delivered is in the buffer by then, and only then does
`next_event` return, one event a call, taking it from the buffer. With an empty
buffer it connects again, also after a failure.

The connections of a run are given in the order in which they are made. A
connection that cannot be established is one without a response. When there is
no further connection `next_event` waits, which is the result `none` here.

Parsing the text of an address is a parameter.

## Main definitions

* `Response`: A response of the event stream.
* `convertResponse`: The event of a response, if it has one.
* `TetragonAdapter.connectAndStream`: One connection, from start to end.
* `TetragonAdapter.nextEvent`: One call of `next_event`.
* `TetragonAdapter.received`: What a number of calls return.
-/

namespace VectorGuard

/-! ## Messages -/

structure Pod where
  nameSpace : String
  name : String

/-- The fields of a process message that are converted. -/
structure TetraProcess where
  pid : Option UInt32
  uid : Option UInt32
  cwd : String
  binary : String
  arguments : String
  pod : Option Pod

/-- A kprobe argument; the kinds no conversion looks at are one case. -/
inductive KprobeArg
  | file (path : String) (flags : UInt32)
  | sock (daddr : String) (dport : UInt32)
  | other

/-- The event of a response; loader and uprobe events are never converted. -/
inductive TetraEvent
  | processExec (process parent : Option TetraProcess)
  | processExit (process parent : Option TetraProcess)
  | processKprobe (process parent : Option TetraProcess) (functionName : String)
      (args : List KprobeArg)
  | processTracepoint (process parent : Option TetraProcess) (subsys event : String)
  | processLoader
  | processUprobe

structure Response where
  event : Option TetraEvent

/-! ## Conversion -/

/-- `process_info`. -/
def processInfo (p : TetraProcess) : ProcessInfo where
  pid := p.pid.getD 0
  ppid := 0
  binary := p.binary
  args := splitWhitespace p.arguments
  uid := p.uid.getD 65534
  gid := 0
  cwd := p.cwd

/-- `k8s_from`. -/
def k8sFrom (p : TetraProcess) : Option K8sMeta :=
  match p.pod with
  | none => none
  | some pod => if pod.name.isEmpty then none else some ⟨pod.nameSpace, []⟩

/-- `is_sensitive`. -/
def isSensitive (path : String) : Bool :=
  ["/etc/shadow", "/etc/sudoers", "/etc/gshadow", "/root/", "/proc/keys"].any
    (fun p => startsWith path p)

/-- `is_suspicious_port`. -/
def isSuspiciousPort (port : UInt16) : Bool :=
  [4444, 1337, 31337, 9001, 8888, 6666].contains port

/-- `kprobe_event_type`. -/
def kprobeEventType (parseIp : String → Option IpAddr) (func : String) (args : List KprobeArg) :
    EventType :=
  if containsStr func "open" || containsStr func "vfs_read" || containsStr func "vfs_write" then
    let (path, flags) := (args.findSome? (fun a => match a with
      | .file path flags => some (path, flags)
      | _ => none)).getD ("", 0)
    .fileAccess path (openFlags flags)
  else if containsStr func "connect" || containsStr func "tcp" || containsStr func "sock" then
    let (ip, port) := (args.findSome? (fun a => match a with
      | .sock daddr dport => some ((parseIp daddr).getD (.v4 0 0 0 0), dport.toUInt16)
      | _ => none)).getD (.v4 0 0 0 0, 0)
    .network .outbound ip port .tcp
  else if containsStr func "cap_" || containsStr func "setuid" || containsStr func "ptrace" then
    .privilege func none
  else .exec

/-- The severity of a kprobe event. -/
def kprobeSeverity : EventType → Severity
  | .fileAccess path _ => if isSensitive path then .high else .info
  | .network _ _ port _ => if isSuspiciousPort port then .medium else .info
  | _ => .info

/-- The event all conversions build, with the fields they differ in. -/
def tetragonEvent (id : UInt64) (proc : TetraProcess) (parent : Option TetraProcess)
    (eventType : EventType) (severity : Severity) : SourceEvent where
  id := id
  timestamp := 0
  source := .tetragon
  process := processInfo proc
  parent := parent.map processInfo
  eventType := eventType
  severity := severity
  action := .allowed
  ruleName := none
  k8s := k8sFrom proc
  raw := .null

/-- `convert_exec`. -/
def convertExec (id : UInt64) (process parent : Option TetraProcess) : Option SourceEvent :=
  process.map (fun proc => tetragonEvent id proc parent .exec .info)

/-- `convert_exit`. -/
def convertExit (id : UInt64) (process parent : Option TetraProcess) : Option SourceEvent :=
  process.map (fun proc => tetragonEvent id proc parent (.signal 0 (proc.pid.getD 0)) .info)

/-- `convert_kprobe`. -/
def convertKprobe (parseIp : String → Option IpAddr) (id : UInt64)
    (process parent : Option TetraProcess) (functionName : String) (args : List KprobeArg) :
    Option SourceEvent :=
  let eventType := kprobeEventType parseIp functionName args
  process.map (fun proc => tetragonEvent id proc parent eventType (kprobeSeverity eventType))

/-- `convert_tracepoint`. -/
def convertTracepoint (id : UInt64) (process parent : Option TetraProcess)
    (subsys event : String) : Option SourceEvent :=
  process.map (fun proc =>
    tetragonEvent id proc parent (.privilege (subsys ++ "/" ++ event) none) .medium)

/-- `convert_response`, with the identifier `next_id` would hand out. -/
def convertResponse (parseIp : String → Option IpAddr) (id : UInt64) (resp : Response) :
    Option SourceEvent :=
  match resp.event with
  | none => none
  | some (.processExec process parent) => convertExec id process parent
  | some (.processExit process parent) => convertExit id process parent
  | some (.processKprobe process parent name args) =>
    convertKprobe parseIp id process parent name args
  | some (.processTracepoint process parent subsys event) =>
    convertTracepoint id process parent subsys event
  | some .processLoader => none
  | some .processUprobe => none

/-! ## Streaming -/

/-- One connection: the responses it delivers and whether it ends in an error. -/
structure Connection where
  responses : List Response
  failed : Bool

structure TetragonAdapter where
  buffer : List SourceEvent
  /-- The counter `next_id` takes identifiers from. -/
  nextId : UInt64

namespace TetragonAdapter

variable (parseIp : String → Option IpAddr)

/-- `TetragonAdapter::new`, with the counter as it stands. -/
def new (nextId : UInt64) : TetragonAdapter := ⟨[], nextId⟩

/-- One response: the buffer grows at its end. -/
def push (a : TetragonAdapter) (resp : Response) : TetragonAdapter :=
  match convertResponse parseIp a.nextId resp with
  | some ev => { buffer := a.buffer ++ [ev], nextId := a.nextId + 1 }
  | none => a

/-- `connect_and_stream`, with whether it succeeded. -/
def connectAndStream (a : TetragonAdapter) (c : Connection) : TetragonAdapter × Bool :=
  (c.responses.foldl (push parseIp) a, !c.failed)

/-- `next_event`: the event, and what is left for later calls. -/
def nextEvent (a : TetragonAdapter) (conns : List Connection) :
    Option (SourceEvent × TetragonAdapter × List Connection) :=
  -- `Vec::pop` takes from the end the responses were pushed to.
  match a.buffer.getLast? with
  | some ev => some (ev, { a with buffer := a.buffer.dropLast }, conns)
  | none =>
    match conns with
    | [] => none
    -- Success or failure, the loop starts over; a failure only costs a pause.
    | c :: rest => nextEvent (a.connectAndStream parseIp c).1 rest

/-- What the first calls of `next_event` return. -/
def received (a : TetragonAdapter) (conns : List Connection) : Nat → List SourceEvent
  | 0 => []
  | n + 1 => match a.nextEvent parseIp conns with
    | some (ev, a', conns') => ev :: received a' conns' n
    | none => []

end TetragonAdapter

end VectorGuard
