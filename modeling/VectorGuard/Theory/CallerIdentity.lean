import Mathlib.Algebra.Group.Nat.Defs
import VectorGuard.Core.UserMemory
import VectorGuard.Theory.Agreement

/-!
# Caller Identity

From the task that makes a system call to the process an event names.

The kernel hands out identities in pairs. One word has the id of the process
above the id of the thread, another the group above the user. The handlers split
the words as they should and then misread one half: they store the thread id as
the parent id. For the first thread of a process the two halves of the word are
the same, so its events name the process as its own parent; other threads appear
as the parent of their process. The parent id itself is in no word that the
handlers look at.

All the other fields arrive. This includes the first argument of an `execve`,
which the handler reaches through two pointers: the second entry of the argument
vector, and the string that it points to.

## Main definitions

* `Caller`: A thread and the process it belongs to.
* `Invocation.By`: What the helpers answer to that thread.
* `Argv1`: The first argument behind an argument vector.
* `CarriesIdentity`: The decoded event names the calling process.

## Theorems

* `toNat_pack`: A pair of ids as one word.
* `args_execRecord`: The arguments an exec event carries.
* `carriesIdentity_iff`: When an event names its process correctly.
-/

namespace VectorGuard

open PartialReads

/-! ### Packed ids -/

/-- Two ids in one word. -/
def pack (upper lower : UInt32) : UInt64 := upper.toUInt64 <<< 32 ||| lower.toUInt64

theorem toNat_pack (upper lower : UInt32) :
    (pack upper lower).toNat = 2 ^ 32 * upper.toNat + lower.toNat := by
  have hupper := upper.toNat_lt
  have hshift : (32 : UInt64).toNat % 64 = 32 := rfl
  have hwide : upper.toNat <<< 32 % 2 ^ 64 = 2 ^ 32 * upper.toNat := by
    rw [Nat.shiftLeft_eq]
    omega
  unfold pack
  rw [UInt64.toNat_or, UInt64.toNat_shiftLeft, UInt32.toNat_toUInt64, UInt32.toNat_toUInt64,
    hshift, hwide, ← Nat.two_pow_add_eq_or_of_lt lower.toNat_lt]

theorem upper_pack (upper lower : UInt32) : (pack upper lower >>> 32).toUInt32 = upper := by
  apply UInt32.toNat_inj.mp
  have hupper := upper.toNat_lt
  have hlower := lower.toNat_lt
  have hshift : (32 : UInt64).toNat % 64 = 32 := rfl
  rw [UInt64.toNat_toUInt32, UInt64.toNat_shiftRight, toNat_pack, hshift, Nat.shiftRight_eq_div_pow]
  omega

theorem lower_pack (upper lower : UInt32) : (pack upper lower &&& 0xFFFFFFFF).toUInt32 = lower := by
  apply UInt32.toNat_inj.mp
  have hlower := lower.toNat_lt
  have hmask : (0xFFFFFFFF : UInt64).toNat = 2 ^ 32 - 1 := rfl
  rw [UInt64.toNat_toUInt32, UInt64.toNat_and, toNat_pack, hmask, Nat.and_two_pow_sub_one_eq_mod]
  omega

/-- A thread and the process it belongs to. -/
structure Caller where
  pid : UInt32
  tid : UInt32
  ppid : UInt32
  uid : UInt32
  gid : UInt32
  comm : String
  noNul : 0 ∉ bytes comm
  short : (bytes comm).length ≤ 15

namespace Caller

/-- The name as the kernel keeps it. -/
def taskComm (caller : Caller) : TaskComm := ⟨bytes caller.comm, caller.noNul, caller.short⟩

theorem str_taskComm (caller : Caller) : caller.taskComm.str = caller.comm :=
  fromUtf8OrInvalid_bytes caller.comm

end Caller

/-- What the helpers answer when this thread makes the call. -/
structure Invocation.By (inv : Invocation) (caller : Caller) : Prop where
  pidTgid : inv.pidTgid = pack caller.pid caller.tid
  uidGid : inv.uidGid = pack caller.gid caller.uid
  currentComm : inv.currentComm = some caller.taskComm

section Header

variable {inv : Invocation} {caller : Caller} (h : inv.By caller)
include h

theorem Invocation.By.pid : inv.pid = caller.pid := by
  unfold Invocation.pid
  rw [h.pidTgid, upper_pack]

/-- The handlers store the thread as the parent. -/
theorem Invocation.By.ppid : inv.ppid = caller.tid := by
  unfold Invocation.ppid
  rw [h.pidTgid, lower_pack]

theorem Invocation.By.uid : inv.uid = caller.uid := by
  unfold Invocation.uid
  rw [h.uidGid, lower_pack]

theorem Invocation.By.gid : inv.gid = caller.gid := by
  unfold Invocation.gid
  rw [h.uidGid, upper_pack]

theorem Invocation.By.comm : inv.comm.str = caller.comm := by
  unfold Invocation.comm
  rw [h.currentComm, Option.getD_some, caller.str_taskComm]

end Header

/-! ### Arguments -/

/-- The bytes of a word, the low one first. -/
def wordBytes : Nat → UInt64 → List UInt8
  | 0, _ => []
  | n + 1, w => w.toUInt8 :: wordBytes n (w >>> 8)

theorem length_wordBytes (n : Nat) (w : UInt64) : (wordBytes n w).length = n := by
  induction n generalizing w with
  | zero =>
      rfl
  | succ n ih =>
      rw [wordBytes, List.length_cons, ih]

theorem low_byte_or (w : UInt64) : w.toUInt8.toUInt64 ||| ((w >>> 8) <<< 8) = w := by
  apply UInt64.toNat_inj.mp
  have hw := w.toNat_lt
  have hshift : (8 : UInt64).toNat % 64 = 8 := rfl
  have hwide : (w.toNat >>> 8) <<< 8 % 2 ^ 64 = 2 ^ 8 * (w.toNat / 2 ^ 8) := by
    rw [Nat.shiftLeft_eq, Nat.shiftRight_eq_div_pow]
    omega
  rw [UInt64.toNat_or, UInt64.toNat_shiftLeft, UInt64.toNat_shiftRight, UInt8.toNat_toUInt64,
    UInt64.toNat_toUInt8, hshift, hwide, Nat.or_comm,
    ← Nat.two_pow_add_eq_or_of_lt (Nat.mod_lt _ (by decide)), Nat.div_add_mod]

/-- The bytes of a word that fits give the word. -/
theorem foldr_wordBytes (n : Nat) (w : UInt64) (hfits : w.toNat < 2 ^ (8 * n)) :
    (wordBytes n w).foldr (fun (byte : UInt8) (acc : UInt64) => byte.toUInt64 ||| (acc <<< 8)) 0
      = w := by
  induction n generalizing w with
  | zero =>
      apply UInt64.toNat_inj.mp
      rw [Nat.mul_zero, Nat.pow_zero] at hfits
      exact (Nat.lt_one_iff.mp hfits).symm
  | succ n ih =>
      have hshift : (8 : UInt64).toNat % 64 = 8 := rfl
      have hrest : (w >>> 8).toNat < 2 ^ (8 * n) := by
        rw [UInt64.toNat_shiftRight, hshift, Nat.shiftRight_eq_div_pow]
        rw [Nat.mul_succ, Nat.pow_add, Nat.mul_comm] at hfits
        exact Nat.div_lt_of_lt_mul hfits
      rw [wordBytes, List.foldr_cons, ih _ hrest]
      exact low_byte_or w

/-- A word is read where its bytes lie. -/
theorem u64FromNeBytes_readVec {cell : Nat → Option UInt8} {w : UInt64}
    (hheld : HoldsAt cell (wordBytes 8 w)) :
    ∃ ptrBuf, readVec cell 8 = some ptrBuf ∧ u64FromNeBytes ptrBuf = w := by
  have hread : (readVec cell 8).isSome := by
    rw [isSome_readVec_of_holds hheld, length_wordBytes]
    intro i hi hle
    exact absurd hi (Nat.not_lt_of_le hle)
  rcases Option.isSome_iff_exists.mp hread with ⟨ptrBuf, hbuf⟩
  refine ⟨ptrBuf, hbuf, ?_⟩
  have hbytes : ptrBuf.toList = wordBytes 8 w := by
    refine List.ext_getElem (by rw [Vector.length_toList, length_wordBytes]) (fun i hi hi' => ?_)
    rw [Vector.length_toList] at hi
    rw [Vector.getElem_toList]
    exact getElem_readVec hbuf hheld i hi _ (List.getElem?_eq_getElem hi')
  unfold u64FromNeBytes
  rw [hbytes]
  exact foldr_wordBytes 8 w w.toNat_lt

/-- The call reads its arguments from this memory. -/
structure Invocation.ReadsFrom (inv : Invocation) (mem : UserMemory) : Prop where
  str : inv.readUserStr = mem.probeReadUserStr
  buf : inv.readUserBuf = mem.probeReadUserBuf

/-- The first argument of an `execve`, behind the argument vector. It is not empty
    and fits into the record with its NUL. -/
structure Argv1 (inv : Invocation) (mem : UserMemory) (arg : String) : Prop where
  vector : ∃ argvPtr argPtr, inv.readAt 24 = some argvPtr ∧ argvPtr ≠ 0 ∧
    HoldsAt (mem.behind (argvPtr + 8)) (wordBytes 8 argPtr) ∧ argPtr ≠ 0 ∧
    HoldsAt (mem.behind argPtr) (bytes arg ++ [0])
  noNul : 0 ∉ bytes arg
  nonempty : bytes arg ≠ []
  fits : (bytes arg).length < 512

/-- An exec event carries the first argument. -/
theorem args_execRecord (maps : BlockMaps) (inv : Invocation) (mem : UserMemory)
    (hmem : inv.ReadsFrom mem) (arg : String) (harg : Argv1 inv mem arg) (slot : RawEvent) :
    extractArgv (execRecord maps inv slot).payload.exec.argv = [arg] := by
  rcases harg.vector with ⟨argvPtr, argPtr, hread, hnull, hheld, hnull', hheld'⟩
  rcases u64FromNeBytes_readVec hheld with ⟨ptrBuf, hbuf, hword⟩
  rcases UserMemory.probeReadUserStr_of_holds mem argPtr 511 (bytes arg) harg.noNul hheld' with
    ⟨copied, hstr, hcopied⟩
  rw [List.take_of_length_le (Nat.le_of_lt_succ harg.fits)] at hcopied
  have hptr : inv.pointerAt 24 = some argvPtr := by
    unfold Invocation.pointerAt
    simp only [hread, if_neg hnull]
  have hbuf' : inv.readUserBuf (argvPtr + 8) 8 = some ptrBuf := by
    rw [hmem.buf]
    exact hbuf
  have hstr' : inv.readUserStr argPtr 512 = some copied := by
    rw [hmem.str]
    exact hstr
  -- The argument is written last, behind whatever the buffer held.
  have hargv : ∀ event : RawEvent, Terminated.read 0
      (readArgv inv event).payload.exec.argv.toList = bytes arg := by
    intro event
    unfold readArgv fillArgv
    simp only [hptr, hbuf', hword, if_neg hnull', Invocation.readStrInto, hstr']
    rw [Terminated.read_store 0 _ copied.val copied.property.1 copied.property.2, hcopied]
  unfold execRecord extractArgv
  rw [hargv]
  cases hbytes : bytes arg with
  | nil =>
      exact absurd hbytes harg.nonempty
  | cons b rest =>
      change (fromUtf8 (b :: rest)).toList = [arg]
      rw [← hbytes, fromUtf8_bytes]
      rfl

/-! ### Identity -/

/-- The event decoded from a record names the calling process, with its first
    argument if the call is an `execve` that has one. -/
def CarriesIdentity (caller : Caller) (mem : UserMemory) (call : Syscall) (raw : RawEvent) : Prop :=
  ∀ id, ∃ ev, parseRawEvent id sizeOfRawEvent raw = .ok ev ∧
    ev.process.pid = caller.pid ∧ ev.process.ppid = caller.ppid ∧
    ev.process.uid = caller.uid ∧ ev.process.gid = caller.gid ∧
    ev.process.binary = caller.comm ∧
    ∀ inv, call = .exec inv → ∀ arg, Argv1 inv mem arg → ev.process.args = [arg]

/-- A record has the header of its call. -/
theorem record_header (maps : BlockMaps) (call : Syscall) (slot raw : RawEvent)
    (hrecord : call.record maps slot = some raw) :
    raw.pid = call.inv.pid ∧ raw.ppid = call.inv.ppid ∧ raw.uid = call.inv.uid ∧
      raw.gid = call.inv.gid ∧ raw.commStr = call.inv.comm.str := by
  cases call with
  | exec inv =>
      rw [Syscall.record, Option.some.injEq] at hrecord
      subst hrecord
      rcases sameHeader_execRecord maps inv slot with ⟨p, hp⟩
      rw [hp]
      exact ⟨rfl, rfl, rfl, rfl, commStr_fillHeader inv .exec _ slot⟩
  | fileOpen inv =>
      rw [Syscall.record, Option.some.injEq] at hrecord
      subst hrecord
      rcases sameHeader_fileOpenRecord inv slot with ⟨p, hp⟩
      rw [hp]
      exact ⟨rfl, rfl, rfl, rfl, commStr_fillHeader inv .fileOpen _ slot⟩
  | netConnect inv =>
      rw [Syscall.record, Option.map_eq_some_iff] at hrecord
      rcases hrecord with ⟨target, _, rfl⟩
      exact ⟨rfl, rfl, rfl, rfl, commStr_fillHeader inv .netConnect _ slot⟩

theorem args_decoded (maps : BlockMaps) (inv : Invocation) (slot : RawEvent) (id : UInt64) :
    (decoded id (execRecord maps inv slot)).process.args
      = extractArgv (execRecord maps inv slot).payload.exec.argv := by
  have hkind : (execRecord maps inv slot).kind = .exec := by
    rcases sameHeader_execRecord maps inv slot with ⟨p, hp⟩
    rw [hp]
    rfl
  unfold decoded
  rw [if_pos hkind]

/-- An event names its process correctly exactly when the thread that made the
    call happens to have the id of the parent. -/
theorem carriesIdentity_iff (maps : BlockMaps) (call : Syscall) (caller : Caller)
    (hby : call.inv.By caller) (mem : UserMemory) (hmem : call.inv.ReadsFrom mem) (raw : RawEvent)
    (hsub : (call.handle maps).submitted = some raw) :
    CarriesIdentity caller mem call raw ↔ caller.tid = caller.ppid := by
  rcases (handle_submitted_iff maps call raw).mp hsub with ⟨slot, _, hrecord⟩
  rcases record_header maps call slot raw hrecord with ⟨hpid, hppid, huid, hgid, hcomm⟩
  rw [hby.pid] at hpid
  rw [hby.ppid] at hppid
  rw [hby.uid] at huid
  rw [hby.gid] at hgid
  rw [hby.comm] at hcomm
  -- The arguments are right in any case, and so is all of the header but the parent.
  have hargs : ∀ id inv, call = .exec inv → ∀ arg, Argv1 inv mem arg →
      (decoded id raw).process.args = [arg] := by
    intro id inv hcall arg harg
    subst hcall
    rw [Syscall.record, Option.some.injEq] at hrecord
    subst hrecord
    rw [args_decoded]
    exact args_execRecord maps inv mem hmem arg harg slot
  unfold CarriesIdentity
  simp only [parseRawEvent_eq, Except.ok.injEq, exists_eq_left']
  constructor
  · intro h
    rcases h 0 with ⟨_, hparent, _⟩
    exact hppid.symm.trans hparent
  · intro h id
    exact ⟨hpid, hppid.trans h, huid, hgid, hcomm, hargs id⟩

/-- The first thread of a shell that was started by the first process. -/
def shellThread : Caller := ⟨700, 700, 1, 1000, 1000, "dash", by decide, by decide⟩

/-- A later thread of it, if it could have the id of the parent. -/
def secondThread : Caller := { shellThread with tid := 1 }

/-- The memory of a process that executes a program with one argument. -/
def oneArgument : UserMemory :=
  UserMemory.ofBytes 4104 (wordBytes 8 4112 ++ (bytes "-c" ++ [0]))

/-- An `execve` by a thread, out of that memory. -/
def execBy (caller : Caller) : Invocation :=
  { ((Invocation.bare caller.taskComm caller.uid).passing 24 4096).over oneArgument with
    pidTgid := pack caller.pid caller.tid
    uidGid := pack caller.gid caller.uid }

theorem carriesIdentity_secondThread :
    CarriesIdentity secondThread oneArgument (.exec (execBy secondThread))
      (execRecord BlockMaps.empty (execBy secondThread) RawEvent.zeroed) :=
  (carriesIdentity_iff BlockMaps.empty (.exec (execBy secondThread)) secondThread ⟨rfl, rfl, rfl⟩
    oneArgument ⟨rfl, rfl⟩ _ rfl).mpr rfl

/-- The event of the first thread names the process itself as its parent. -/
theorem shellThread_own_parent :
    (∀ id, (decoded id (execRecord BlockMaps.empty (execBy shellThread)
        RawEvent.zeroed)).process.ppid = shellThread.pid) ∧
      ¬ CarriesIdentity shellThread oneArgument (.exec (execBy shellThread))
        (execRecord BlockMaps.empty (execBy shellThread) RawEvent.zeroed) := by
  have hby : (execBy shellThread).By shellThread := ⟨rfl, rfl, rfl⟩
  have hparent : (execRecord BlockMaps.empty (execBy shellThread) RawEvent.zeroed).ppid
      = shellThread.tid :=
    (record_header BlockMaps.empty (.exec (execBy shellThread)) RawEvent.zeroed _ rfl).2.1.trans
      hby.ppid
  refine ⟨fun id => hparent, ?_⟩
  intro h
  rcases h 0 with ⟨ev, hparse, _, hppid, _⟩
  rw [parseRawEvent_eq, Except.ok.injEq] at hparse
  subst hparse
  exact absurd (hparent.symm.trans hppid) (by decide)

end VectorGuard
