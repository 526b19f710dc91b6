import VectorGuard.Core.Event
import VectorGuard.Core.RawEvent

/-!
# Collector

Decoding a ring buffer record into a normalized event (`collector.rs`).

A record that is too short is refused; every other record decodes. The process
name of the event is the task name the kernel recorded, so for an `execve` it
is the name of the caller. The executable path of an exec record is decoded
for the debug log only and reaches no field of the event.

The event identifier comes from a global counter and is a parameter here.

## Main definitions

* `parseRawEvent`: Decoding one ring buffer item.
* `parseEventType`: The event type and severity of a record.

## Theorems

* `parseRawEvent_eq`: What a record of full length decodes to.
-/

namespace VectorGuard

/-- `is_sensitive_path`. -/
def isSensitivePath (path : String) : Bool :=
  ["/etc/shadow", "/etc/passwd", "/etc/sudoers", "/root/", "/proc/kcore", "/proc/kmem",
    "/proc/sysrq-trigger", "/proc/sys/kernel/", "/sys/kernel/"].any (fun s => startsWith path s)

/-- The address a network record carries, by its family byte. -/
def remoteIp (p : NetPayload) : IpAddr :=
  if p.family = 4 then .v4 p.dstAddr[0] p.dstAddr[1] p.dstAddr[2] p.dstAddr[3]
  else if p.family = 6 then .v6 p.dstAddr
  else .v4 0 0 0 0

/-- `parse_event_type`. -/
def parseEventType (raw : RawEvent) : EventType × Severity :=
  match raw.kind with
  -- The filename is decoded for a debug line and dropped.
  | .exec => (.exec, .info)
  | .fileOpen =>
    let path := fromUtf8OrInvalid (Terminated.read 0 raw.payload.file.path.toList)
    let flags := raw.payload.file.flags
    (.fileAccess path
      { read := flags &&& 1 == 0
        write := flags &&& 1 != 0 || flags &&& 2 != 0
        execute := false },
      if isSensitivePath path then .high else .info)
  | .netConnect =>
    (.network .outbound (remoteIp raw.payload.net) raw.payload.net.dstPort .tcp, .info)
  | .privilege => (.privilege "unknown" none, .high)

/-- `extract_argv`. -/
def extractArgv (buf : Vector UInt8 512) : List String :=
  match Terminated.read 0 buf.toList with
  | [] => []
  | bs => (fromUtf8 bs).toList

/-- The event a record of full length decodes to. -/
def decoded (id : UInt64) (raw : RawEvent) : NormalizedEvent where
  id := id
  timestamp := raw.timestamp
  source := .nativeEbpf
  process := {
    pid := raw.pid
    ppid := raw.ppid
    binary := raw.commStr
    args := if raw.kind = .exec then extractArgv raw.payload.exec.argv else []
    uid := raw.uid
    gid := raw.gid
    cwd := "" }
  parent := none
  eventType := (parseEventType raw).1
  severity := (parseEventType raw).2
  -- The kernel has already acted on a record with the flag set.
  action := if raw.blocked ≠ 0 then .blocked else .allowed
  ruleName := none
  k8s := none

/-- `parse_raw_event` on an item of the given length, read as a record. -/
def parseRawEvent (id : UInt64) (dataLen : Nat) (raw : RawEvent) : Except String NormalizedEvent :=
  if dataLen < sizeOfRawEvent then .error s!"Event data too small: {dataLen} bytes"
  else .ok (decoded id raw)

theorem parseRawEvent_eq (id : UInt64) (raw : RawEvent) :
    parseRawEvent id sizeOfRawEvent raw = .ok (decoded id raw) := by
  unfold parseRawEvent
  rw [if_neg (Nat.lt_irrefl _)]

end VectorGuard
