import VectorGuard.Core.Text

/-!
# Normalized Events

The event type every source is decoded into and every later stage reads or
rewrites (`event/mod.rs`). The stages communicate through three of its fields
only: `severity`, `action` and `ruleName`.

The `raw` JSON value an adapter may attach, and the pod, node and container
names of the Kubernetes metadata, are carried by the code but read by no stage
modelled here, so they are left out.

## Main definitions

* `NormalizedEvent`: The event record.
* `EventType`: What happened.
* `Severity`: The five ordered severities.
* `Action`: The verdict on an event.
-/

namespace VectorGuard

inductive EventSource
  | tetragon
  | falco
  | auditd
  | nativeEbpf
  deriving DecidableEq, Repr

inductive Action
  | allowed
  | logged
  | blocked
  | killed
  | alerted
  deriving DecidableEq, Repr

inductive Severity
  | info
  | low
  | medium
  | high
  | critical
  deriving DecidableEq, Repr

/-- The position of a severity in the derived order. -/
def Severity.rank : Severity → Nat
  | .info => 0
  | .low => 1
  | .medium => 2
  | .high => 3
  | .critical => 4

instance : LE Severity := ⟨fun a b => a.rank ≤ b.rank⟩

instance : LT Severity := ⟨fun a b => a.rank < b.rank⟩

instance (a b : Severity) : Decidable (a ≤ b) := inferInstanceAs (Decidable (a.rank ≤ b.rank))

instance (a b : Severity) : Decidable (a < b) := inferInstanceAs (Decidable (a.rank < b.rank))

inductive Direction
  | inbound
  | outbound
  deriving DecidableEq, Repr

inductive Proto
  | tcp
  | udp
  | unknown
  deriving DecidableEq, Repr

inductive IpAddr
  | v4 (a b c d : UInt8)
  | v6 (octets : Vector UInt8 16)
  deriving DecidableEq, Repr

structure FileFlags where
  read : Bool
  write : Bool
  execute : Bool
  deriving DecidableEq, Repr

inductive EventType
  | exec
  | fileAccess (path : String) (flags : FileFlags)
  | network (direction : Direction) (remoteIp : IpAddr) (port : UInt16) (proto : Proto)
  | privilege (syscall : String) (capability : Option String)
  | signal (signum targetPid : UInt32)
  deriving DecidableEq, Repr

structure ProcessInfo where
  pid : UInt32
  ppid : UInt32
  binary : String
  args : List String
  uid : UInt32
  gid : UInt32
  cwd : String
  deriving DecidableEq, Repr

/-- The part of the pod metadata the scope filter reads. -/
structure K8sMeta where
  nameSpace : String
  labels : List (String × String)
  deriving DecidableEq, Repr

structure NormalizedEvent where
  id : UInt64
  timestamp : UInt64
  source : EventSource
  process : ProcessInfo
  parent : Option ProcessInfo
  eventType : EventType
  severity : Severity
  action : Action
  ruleName : Option String
  k8s : Option K8sMeta
  deriving DecidableEq, Repr

/-- The event of a program that an ordinary user's process of the given name
    executes, without any further data. -/
def NormalizedEvent.plainExec (binary : String) : NormalizedEvent where
  id := 0
  timestamp := 0
  source := .nativeEbpf
  process := { pid := 1, ppid := 0, binary, args := [], uid := 1000, gid := 1000, cwd := "" }
  parent := none
  eventType := .exec
  severity := .info
  action := .allowed
  ruleName := none
  k8s := none

/-- The same event, alerted. -/
def NormalizedEvent.plainAlert (binary : String) : NormalizedEvent :=
  { plainExec binary with action := .alerted }

end VectorGuard
