import VectorGuard.Core.Text
import VectorGuard.Lib.Terminated

/-!
# Raw Events

The record the kernel handlers write into a ring buffer slot and user space
reads back (`vectorguard-common`).

A slot is reused memory. A handler overwrites some of its fields and leaves
the others as an earlier record, or nothing at all, left them, so a record is
always the update of a slot and never built from scratch.

The payload is a union. Every handler writes one view of it and the decoder
reads the view that the record's kind names, which is the one written, so the
views are modelled as separate fields. The `privilege` view is written and
read by nobody and is left out, as is the trailing padding.

`TaskComm` is what the kernel hands out as a task's name: at most fifteen
bytes, closed by a NUL and padded with NULs to sixteen.

## Main definitions

* `RawEvent`: The record in a ring buffer slot.
* `TaskComm`: A kernel task name.
* `RawEvent.commStr`: The name a record carries, decoded.

## Theorems

* `read_comm_buf`: A task name is read back from a slot it was copied into.
-/

namespace VectorGuard

inductive EventKind
  | exec
  | fileOpen
  | netConnect
  | privilege
  deriving DecidableEq, Repr

structure ExecPayload where
  filename : Vector UInt8 256
  argv : Vector UInt8 512

structure FilePayload where
  path : Vector UInt8 256
  flags : UInt32

structure NetPayload where
  dstPort : UInt16
  proto : UInt8
  /-- 4 for IPv4, 6 for IPv6. -/
  family : UInt8
  dstAddr : Vector UInt8 16

/-- The views of the payload union. -/
structure EventPayload where
  exec : ExecPayload
  file : FilePayload
  net : NetPayload

structure RawEvent where
  kind : EventKind
  timestamp : UInt64
  pid : UInt32
  ppid : UInt32
  uid : UInt32
  gid : UInt32
  comm : Vector UInt8 64
  payload : EventPayload
  /-- 1 when the kernel has already taken blocking action. -/
  blocked : UInt8

/-- `size_of::<RawEvent>()` under the C layout. -/
def sizeOfRawEvent : Nat := 872

/-- A slot of zero bytes. -/
def RawEvent.zeroed : RawEvent where
  kind := .exec
  timestamp := 0
  pid := 0
  ppid := 0
  uid := 0
  gid := 0
  comm := Vector.replicate 64 0
  payload :=
    { exec := { filename := Vector.replicate 256 0, argv := Vector.replicate 512 0 }
      file := { path := Vector.replicate 256 0, flags := 0 }
      net := { dstPort := 0, proto := 0, family := 0, dstAddr := Vector.replicate 16 0 } }
  blocked := 0

/-- A kernel task name: at most fifteen bytes, none of them NUL. -/
structure TaskComm where
  name : List UInt8
  noNul : 0 ∉ name
  short : name.length ≤ 15

/-- The name of a task without one, which is also what a failed read gives. -/
def TaskComm.empty : TaskComm :=
  ⟨[], List.not_mem_nil, by decide⟩

/-- The sixteen bytes the kernel hands out for a name. -/
def TaskComm.buf (c : TaskComm) : Vector UInt8 16 :=
  Terminated.pad 16 0 c.name

/-- A task name as the string user space sees. -/
def TaskComm.str (c : TaskComm) : String :=
  fromUtf8OrInvalid c.name

/-- `RawEvent::comm_str`. -/
def RawEvent.commStr (raw : RawEvent) : String :=
  fromUtf8OrInvalid (Terminated.read 0 raw.comm.toList)

/-- A task name copied to the front of a slot's name field is read back,
    whatever the slot held behind it. -/
theorem read_comm_buf (comm : Vector UInt8 64) (c : TaskComm) :
    Terminated.read 0 (Terminated.blit comm c.buf.toList).toList = c.name := by
  have hshort := c.short
  exact Terminated.read_blit_pad 0 comm c.name c.noNul (by omega) (by omega)

end VectorGuard
