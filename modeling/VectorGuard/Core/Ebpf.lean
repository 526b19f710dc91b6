import VectorGuard.Core.RawEvent
import VectorGuard.Lib.BoundedMap

/-!
# Kernel Handlers

The eBPF programs (`vectorguard-ebpf/src/main.rs`): three tracepoint handlers
that report a system call and may kill its caller, and the LSM hook that may
deny an `execve`.

A handler runs against the three block maps and an environment it does not
control. `Invocation` is that environment for one call: what the kernel
helpers answer about the current task, the tracepoint's arguments, the two
user-memory reads, and the slot the ring buffer hands out, if it has room. All
of it is arbitrary, so a statement over every invocation covers every task,
every argument, every failing read and every occupancy of the ring buffer. Two
facts about the helpers are built into the types: a task name is NUL-padded,
and a string read stops before a NUL and leaves room for one.

What a handler does is its `Outcome`: the record it submits and the signal it
sends. The blocking decision, the reservation and the signal happen in that
order, and a handler returns at the first step that fails.

Words are read in the little-endian order of the targets the programs are
built for.

## Main definitions

* `BlockMaps`: The three block maps the handlers look keys up in.
* `Invocation`: The environment of one handler call.
* `Outcome`: What a handler did.
* `tryHandleExec`: The `sys_enter_execve` handler.
* `tryHandleFileOpen`: The `sys_enter_openat` handler.
* `tryHandleNetConnect`: The `sys_enter_connect` handler.
* `lsmExec`: The `bprm_check_security` hook.
* `Attached.execve`: An `execve` under the programs `load_ebpf` attaches.
* `Syscall`: A system call with its environment, handled by its own handler.
-/

namespace VectorGuard

abbrev CommKey := Vector UInt8 16

/-- `BLOCKED_COMMS`, `BLOCKED_PORTS` and `BLOCKED_UIDS`. -/
structure BlockMaps where
  comms : BoundedMap CommKey UInt8 256
  ports : BoundedMap UInt16 UInt8 256
  uids : BoundedMap UInt32 UInt8 256

def BlockMaps.empty : BlockMaps :=
  ⟨BoundedMap.empty, BoundedMap.empty, BoundedMap.empty⟩

/-- What a string read of at most `n` bytes copies before its NUL. -/
def UserStr (n : Nat) : Type :=
  { s : List UInt8 // 0 ∉ s ∧ s.length < n }

/-- The environment of one handler call. -/
structure Invocation where
  /-- `bpf_get_current_pid_tgid`. -/
  pidTgid : UInt64
  /-- `bpf_get_current_uid_gid`. -/
  uidGid : UInt64
  /-- `bpf_get_current_comm`. -/
  currentComm : Option TaskComm
  /-- `bpf_ktime_get_ns`. -/
  ktimeNs : UInt64
  /-- `ctx.read_at::<u64>(offset)`. -/
  readAt : Nat → Option UInt64
  /-- `bpf_probe_read_user_str_bytes` into a buffer of the given size. -/
  readUserStr : UInt64 → (n : Nat) → Option (UserStr n)
  /-- `bpf_probe_read_user_buf` of the given size. -/
  readUserBuf : UInt64 → (n : Nat) → Option (Vector UInt8 n)
  /-- `EVENTS.reserve`: the slot handed out, none when there is no room. -/
  reserve : Option RawEvent

namespace Invocation

def pid (inv : Invocation) : UInt32 := (inv.pidTgid >>> 32).toUInt32

/-- The lower half, which the handlers store as the parent id. -/
def ppid (inv : Invocation) : UInt32 := (inv.pidTgid &&& 0xFFFFFFFF).toUInt32

def uid (inv : Invocation) : UInt32 := (inv.uidGid &&& 0xFFFFFFFF).toUInt32

def gid (inv : Invocation) : UInt32 := (inv.uidGid >>> 32).toUInt32

/-- The task name, with the fallback of a failed read. -/
def comm (inv : Invocation) : TaskComm := inv.currentComm.getD TaskComm.empty

/-- `get_comm`. -/
def getComm (inv : Invocation) : CommKey := inv.comm.buf

/-- A string read into a buffer. A failed read zeroes it; a successful one
    writes the string and its NUL and leaves the bytes behind them alone. -/
def readStrInto (inv : Invocation) (ptr : UInt64) {n : Nat} (buf : Vector UInt8 n) :
    Vector UInt8 n :=
  match inv.readUserStr ptr n with
  | some s => Terminated.store 0 buf s.val
  | none => Vector.replicate n 0

/-- A pointer argument of the tracepoint, none where the handlers skip it. -/
def pointerAt (inv : Invocation) (offset : Nat) : Option UInt64 :=
  match inv.readAt offset with
  | some ptr => if ptr = 0 then none else some ptr
  | none => none

/-- A call by the given task that finds a free slot and can read none of its
    arguments. -/
def bare (comm : TaskComm) (uid : UInt32) : Invocation where
  pidTgid := 0
  uidGid := uid.toUInt64
  currentComm := some comm
  ktimeNs := 0
  readAt _ := none
  readUserStr _ _ := none
  readUserBuf _ _ := none
  reserve := some RawEvent.zeroed

/-- The same call with one argument, a pointer to the given string. -/
def pointing (inv : Invocation) (offset : Nat) (path : List UInt8) (hpath : 0 ∉ path) :
    Invocation :=
  { inv with
    readAt := fun o => if o = offset then some 4096 else none
    readUserStr := fun _ n => if h : path.length < n then some ⟨path, hpath, h⟩ else none }

end Invocation

/-- What a handler did: the value it returns, the record it submitted and the
    signal it sent to the caller. -/
structure Outcome where
  ret : UInt32
  submitted : Option RawEvent
  signal : Option UInt32

/-- The early returns of the handlers. -/
def Outcome.skipped : Outcome := ⟨0, none, none⟩

/-- `comm_is_blocked`. -/
def commIsBlocked (maps : BlockMaps) (comm : CommKey) : Bool :=
  (maps.comms.get? comm).isSome

/-- `uid_is_blocked`. -/
def uidIsBlocked (maps : BlockMaps) (uid : UInt32) : Bool :=
  (maps.uids.get? uid).isSome

/-- The lookup in `BLOCKED_PORTS`. -/
def portIsBlocked (maps : BlockMaps) (port : UInt16) : Bool :=
  (maps.ports.get? port).isSome

/-- `fill_comm`. -/
def fillComm (event : RawEvent) (comm16 : CommKey) : RawEvent :=
  { event with comm := Terminated.blit event.comm comm16.toList }

/-- The fields every handler writes before its payload. -/
def fillHeader (inv : Invocation) (kind : EventKind) (blocked : Bool) (event : RawEvent) :
    RawEvent :=
  fillComm { event with
    kind := kind
    timestamp := inv.ktimeNs
    pid := inv.pid
    ppid := inv.ppid
    uid := inv.uid
    gid := inv.gid
    blocked := if blocked then 1 else 0 } inv.getComm

/-! ## Exec handler -/

/-- `zero_exec_payload`. -/
def zeroExecPayload (event : RawEvent) : RawEvent :=
  let exec := { filename := Vector.replicate 256 0, argv := Vector.replicate 512 0 }
  { event with payload.exec := exec }

/-- `u64::from_ne_bytes`. -/
def u64FromNeBytes (b : Vector UInt8 8) : UInt64 :=
  b.toList.foldr (fun byte acc => byte.toUInt64 ||| (acc <<< 8)) 0

/-- `fill_argv`: `argv[1]` only, through the pointer stored behind `argv[0]`. -/
def fillArgv (inv : Invocation) (event : RawEvent) (argvPtr : UInt64) : RawEvent :=
  match inv.readUserBuf (argvPtr + 8) 8 with
  | none => event
  | some ptrBuf =>
    let argPtr := u64FromNeBytes ptrBuf
    -- No first argument: the payload stays zeroed.
    if argPtr = 0 then event
    else
      let argv := inv.readStrInto argPtr event.payload.exec.argv
      { event with payload.exec.argv := argv }

/-- The blocking decision of the exec handler. -/
def execShouldBlock (maps : BlockMaps) (inv : Invocation) : Bool :=
  commIsBlocked maps inv.getComm || uidIsBlocked maps inv.uid

def readFilename (inv : Invocation) (event : RawEvent) : RawEvent :=
  match inv.pointerAt 16 with
  | some filenamePtr =>
    let filename := inv.readStrInto filenamePtr event.payload.exec.filename
    { event with payload.exec.filename := filename }
  | none => event

def readArgv (inv : Invocation) (event : RawEvent) : RawEvent :=
  match inv.pointerAt 24 with
  | some argvPtr => fillArgv inv event argvPtr
  | none => event

/-- The record the exec handler leaves in a slot. The arguments of
    `sys_enter_execve` are the filename at offset 16 and argv at offset 24. -/
def execRecord (maps : BlockMaps) (inv : Invocation) (slot : RawEvent) : RawEvent :=
  let event := fillHeader inv .exec (execShouldBlock maps inv) slot
  let event := zeroExecPayload event
  let event := readFilename inv event
  readArgv inv event

/-- `try_handle_exec`. -/
def tryHandleExec (maps : BlockMaps) (inv : Invocation) : Outcome :=
  match inv.reserve with
  -- A full ring buffer ends the handler before the signal.
  | none => Outcome.skipped
  | some slot =>
    { ret := 0
      submitted := some (execRecord maps inv slot)
      signal := if execShouldBlock maps inv then some 9 else none }

/-! ## File open handler -/

def readPath (inv : Invocation) (event : RawEvent) : RawEvent :=
  match inv.pointerAt 24 with
  | some filenamePtr =>
    let path := inv.readStrInto filenamePtr event.payload.file.path
    { event with payload.file.path := path }
  | none => event

def readFlags (inv : Invocation) (event : RawEvent) : RawEvent :=
  match inv.readAt 32 with
  | some flags => { event with payload.file.flags := flags.toUInt32 }
  | none => event

/-- The record the file open handler leaves in a slot. The arguments of
    `sys_enter_openat` are the filename at offset 24 and the flags at
    offset 32. -/
def fileOpenRecord (inv : Invocation) (slot : RawEvent) : RawEvent :=
  let event := fillHeader inv .fileOpen false slot
  let event := readPath inv event
  readFlags inv event

/-- `try_handle_file_open`. It sends no signal. -/
def tryHandleFileOpen (inv : Invocation) : Outcome :=
  match inv.reserve with
  | none => Outcome.skipped
  | some slot => { ret := 0, submitted := some (fileOpenRecord inv slot), signal := none }

/-! ## Net connect handler -/

/-- What the connect handler extracts from a socket address. -/
structure ConnectTarget where
  dstPort : UInt16
  family : UInt8
  dstAddr : Vector UInt8 16

/-- `u16::from_ne_bytes`. -/
def u16FromNeBytes (b₀ b₁ : UInt8) : UInt16 := b₀.toUInt16 ||| (b₁.toUInt16 <<< 8)

/-- `u16::from_be_bytes`. -/
def u16FromBeBytes (b₀ b₁ : UInt8) : UInt16 := (b₀.toUInt16 <<< 8) ||| b₁.toUInt16

/-- The address family of a socket address. -/
def saFamily (sa : Vector UInt8 28) : UInt16 := u16FromNeBytes sa[0] sa[1]

/-- The destination port of a socket address. -/
def saPort (sa : Vector UInt8 28) : UInt16 := u16FromBeBytes sa[2] sa[3]

/-- Decode a socket address; families other than `AF_INET` and `AF_INET6` are
    not reported. -/
def decodeSockaddr (sa : Vector UInt8 28) : Option ConnectTarget :=
  if saFamily sa = 2 then
    -- sockaddr_in: the address is at offset 4
    some { dstPort := saPort sa
           family := 4
           dstAddr := Terminated.pad 16 0 [sa[4], sa[5], sa[6], sa[7]] }
  else if saFamily sa = 10 then
    -- sockaddr_in6: the address is at offset 8
    some { dstPort := saPort sa
           family := 6
           dstAddr := Vector.ofFn (fun i : Fin 16 => sa[8 + i.val]) }
  else none

/-- The target of a connect call, none where the handler returns early. -/
def connectTarget (inv : Invocation) : Option ConnectTarget :=
  -- sys_enter_connect: sockaddr pointer at offset 24
  let addrPtr := (inv.readAt 24).getD 0
  if addrPtr = 0 then none
  else match inv.readUserBuf addrPtr 28 with
    | none => none
    | some saBuf => decodeSockaddr saBuf

/-- The record the connect handler leaves in a slot. -/
def netConnectRecord (maps : BlockMaps) (inv : Invocation) (target : ConnectTarget)
    (slot : RawEvent) : RawEvent :=
  let event := fillHeader inv .netConnect (portIsBlocked maps target.dstPort) slot
  let net :=
    { dstPort := target.dstPort, proto := 6, family := target.family, dstAddr := target.dstAddr }
  { event with payload.net := net }

/-- `try_handle_net_connect`. -/
def tryHandleNetConnect (maps : BlockMaps) (inv : Invocation) : Outcome :=
  match connectTarget inv with
  | none => Outcome.skipped
  | some target =>
    -- The port is looked up before the reservation and acted on after it.
    match inv.reserve with
    | none => Outcome.skipped
    | some slot =>
      { ret := 0
        submitted := some (netConnectRecord maps inv target slot)
        signal := if portIsBlocked maps target.dstPort then some 9 else none }

/-! ## LSM hook -/

/-- `lsm_exec`: -1 is `-EPERM`. -/
def lsmExec (maps : BlockMaps) (inv : Invocation) : Int :=
  if commIsBlocked maps inv.getComm then -1
  else if uidIsBlocked maps inv.uid then -1
  else 0

/-! ## Attached programs -/

/-- The programs `load_ebpf` attaches that an `execve` runs into. -/
structure Attached where
  handleExec : Bool
  lsmExec : Bool
  deriving DecidableEq

/-- What `load_ebpf` attaches: the tracepoint always, the LSM hook where the
    kernel supports it. -/
def loadEbpf (bpfLsm : Bool) : Attached := ⟨true, bpfLsm⟩

/-- What the caller of an `execve` gets from the attached programs. -/
structure ExecOutcome where
  /-- What the check before the new image returns; other than 0 it is the
      result of the call. -/
  check : Int
  signal : Option UInt32
  deriving DecidableEq

/-- The way of an `execve` through the attached programs: the tracepoint at its
    entry, then the check of the new image. -/
def Attached.execve (programs : Attached) (maps : BlockMaps) (inv : Invocation) : ExecOutcome :=
  let entry := if programs.handleExec then tryHandleExec maps inv else Outcome.skipped
  { check := if programs.lsmExec then VectorGuard.lsmExec maps inv else 0
    signal := entry.signal }

/-! ## System calls -/

/-- A monitored system call with the environment its handler runs in. -/
inductive Syscall
  | exec (inv : Invocation)
  | fileOpen (inv : Invocation)
  | netConnect (inv : Invocation)

/-- The environment of a call. -/
def Syscall.inv : Syscall → Invocation
  | .exec inv => inv
  | .fileOpen inv => inv
  | .netConnect inv => inv

/-- Run the handler attached to a call. -/
def Syscall.handle (maps : BlockMaps) : Syscall → Outcome
  | .exec inv => tryHandleExec maps inv
  | .fileOpen inv => tryHandleFileOpen inv
  | .netConnect inv => tryHandleNetConnect maps inv

end VectorGuard
