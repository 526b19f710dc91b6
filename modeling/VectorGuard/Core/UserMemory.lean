import VectorGuard.Core.Ebpf
import VectorGuard.Lib.PartialReads

/-!
# User Memory

The memory of the process that makes a system call, as the handlers read it.

The handlers get addresses from the caller and read behind them with two
helpers. `bpf_probe_read_user_buf` copies a block of a fixed size and fails when
one of its bytes cannot be read. `bpf_probe_read_user_str_bytes` copies up to the
first NUL, of at most as many bytes as the buffer has, and closes what it copied
with a NUL of its own.

An `Invocation` leaves the answers of both arbitrary. Here they are the answers
of one memory.

## Main definitions

* `UserMemory`: The bytes that can be read.
* `UserMemory.probeReadUserBuf`, `probeReadUserStr`: The two helpers.
* `Invocation.over`: A call by a process with this memory.
* `UserMemory.ofBytes`, `Invocation.passing`: A memory and an argument, for a concrete call.

## Theorems

* `probeReadUserStr_of_holds`: A string that lies in memory is read, cut to size.
-/

namespace VectorGuard

open PartialReads

/-- The byte at each address, none where it cannot be read. -/
abbrev UserMemory := UInt64 → Option UInt8

namespace UserMemory

/-- The memory from an address on. -/
def behind (mem : UserMemory) (ptr : UInt64) (i : Nat) : Option UInt8 :=
  mem (ptr + UInt64.ofNat i)

/-- `bpf_probe_read_user_buf`. -/
def probeReadUserBuf (mem : UserMemory) (ptr : UInt64) (n : Nat) : Option (Vector UInt8 n) :=
  readVec (mem.behind ptr) n

/-- `bpf_probe_read_user_str_bytes`. -/
def probeReadUserStr (mem : UserMemory) (ptr : UInt64) : (n : Nat) → Option (UserStr n)
  | 0 => none
  | n + 1 =>
    (readUntil 0 (mem.behind ptr) (n + 1)).attach.map (fun s =>
      -- The last byte of the buffer is for the NUL.
      ⟨s.val.take n,
        fun hzero => not_mem_readUntil _ _ _ s.property (List.mem_of_mem_take hzero),
        Nat.lt_succ_of_le (List.length_take_le n s.val)⟩)

/-- A memory of which these bytes can be read, at an address. -/
def ofBytes (ptr : UInt64) (l : List UInt8) : UserMemory :=
  fun address => l[(address - ptr).toNat]?

theorem behind_ofBytes (ptr : UInt64) (l : List UInt8) (i : Nat) (hi : i < UInt64.size) :
    (ofBytes ptr l).behind ptr i = l[i]? := by
  have hback : (ptr + UInt64.ofNat i - ptr).toNat = i := by
    rw [UInt64.add_comm, UInt64.add_sub_cancel]
    exact UInt64.toNat_ofNat_of_lt hi
  unfold behind ofBytes
  rw [hback]

theorem holds_ofBytes (ptr : UInt64) (l : List UInt8) (hlen : l.length ≤ UInt64.size) :
    HoldsAt ((ofBytes ptr l).behind ptr) l := by
  intro i x hx
  have hi : i < l.length := (List.getElem?_eq_some_iff.mp hx).1
  rw [behind_ofBytes ptr l i (Nat.lt_of_lt_of_le hi hlen), hx]

/-- A string that lies in memory is read, cut to size. -/
theorem probeReadUserStr_of_holds (mem : UserMemory) (ptr : UInt64) (n : Nat) (s : List UInt8)
    (hnul : 0 ∉ s) (h : HoldsAt (mem.behind ptr) (s ++ [0])) :
    ∃ copied, mem.probeReadUserStr ptr (n + 1) = some copied ∧ copied.val = s.take n := by
  have hread := readUntil_of_holds (mem.behind ptr) (n + 1) s hnul h
  have htake : (s.take (n + 1)).take n = s.take n := by
    rw [List.take_take, Nat.min_eq_left (Nat.le_succ n)]
  refine ⟨⟨s.take n, fun hzero => hnul (List.mem_of_mem_take hzero),
    Nat.lt_succ_of_le (List.length_take_le n s)⟩, ?_, rfl⟩
  unfold probeReadUserStr
  exact Option.map_eq_some_iff.mpr ⟨⟨_, hread⟩, Option.mem_attach _ _, Subtype.ext htake⟩

end UserMemory

/-- The same call by a process with this memory. -/
def Invocation.over (inv : Invocation) (mem : UserMemory) : Invocation :=
  { inv with
    readUserStr := mem.probeReadUserStr
    readUserBuf := mem.probeReadUserBuf }

/-- The same call with a pointer as its only argument. -/
def Invocation.passing (inv : Invocation) (offset : Nat) (ptr : UInt64) : Invocation :=
  { inv with readAt := fun o => if o = offset then some ptr else none }

end VectorGuard
