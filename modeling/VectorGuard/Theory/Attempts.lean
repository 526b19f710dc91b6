import VectorGuard.Core.MapOps
import VectorGuard.Lib.FirstMatch
import VectorGuard.Theory.Loading
import VectorGuard.Theory.Records

/-!
# Attempts

The two levels at which one rule list is enforced, over one notion of what a
process attempts.

An attempt is what both levels see of an `execve` or a `connect`: the name and
the user of the caller, and the port of a connection. The kernel looks keys of
the attempt up in the maps. User space tests the conditions of each rule on
the event decoded from the attempt's record. `kernelBlocks_iff` and
`matchesEvent_decoded` reduce the two to `Attempt.keys` and `Rule.covers`,
which depend on the attempt alone, so a comparison of the two levels is a
comparison of a flat key set with a first-match policy.

## Main definitions

* `Attempt`: What a process attempts.
* `Attempt.keys`: The keys the kernel looks up for an attempt.
* `Rule.blockKeys`: The keys a block rule contributes.
* `Rule.covers`: Whether every condition of a rule holds of an attempt.
* `Syscall.attempt`: The attempt a call makes.
* `Syscall.kernelBlocks`: The kernel blocks a call.
* `Named`: A block rule names a key of the attempt.
* `ReachesBlock`: A block rule covers the attempt before any other rule does.

## Theorems

* `has_computeBlockKeys_iff`: The keys of a rule list.
* `kernelBlocks_iff`: The kernel blocks a call on the keys of its attempt.
* `matchesEvent_decoded`: Rule evaluation sees the attempt.
* `evaluate_decoded_blocked_iff`: When the decoded event evaluates to blocked.
-/

namespace VectorGuard

/-- The keys a rule contributes to the maps when it blocks. -/
def Rule.blockKeys (r : Rule) : List BlockKey :=
  r.matchProcess.map (fun name => .comm (commKey name)) ++
    (r.matchPort.map .port ++ r.matchUid.toList.map .uid)

/-- What a process attempts, as far as rules and maps can tell. -/
inductive Attempt
  | exec (comm : TaskComm) (uid : UInt32)
  | connect (comm : TaskComm) (uid : UInt32) (port : UInt16)

/-- The keys the kernel looks up. The caller of a `connect` plays no part. -/
def Attempt.keys : Attempt → List BlockKey
  | .exec comm uid => [.comm comm.buf, .uid uid]
  | .connect _ _ port => [.port port]

/-- The conditions on the caller. -/
def Rule.coversCaller (glob : GlobCrate) (r : Rule) (comm : TaskComm) (uid : UInt32) : Bool :=
  (r.matchProcess.isEmpty || r.matchProcess.any (fun pat => glob.hit pat comm.str)) &&
    (match r.matchUid with
      | some u => uid == u
      | none => true)

/-- Every condition of a rule holds of an attempt. -/
def Rule.covers (glob : GlobCrate) (r : Rule) : Attempt → Bool
  | .exec comm uid =>
    r.coversCaller glob comm uid && r.matchPort.isEmpty && r.matchPathPrefix.isEmpty &&
      (r.matchExecPath.isEmpty || r.matchExecPath.any (fun p => startsWith comm.str p))
  | .connect comm uid port =>
    r.coversCaller glob comm uid && (r.matchPort.isEmpty || r.matchPort.contains port) &&
      r.matchPathPrefix.isEmpty && r.matchExecPath.isEmpty

namespace Syscall

/-- The attempt a call makes, none for a call the kernel has no keys for. -/
def attempt : Syscall → Option Attempt
  | .exec inv => some (.exec inv.comm inv.uid)
  | .fileOpen _ => none
  | .netConnect inv =>
    (connectTarget inv).map (fun target => .connect inv.comm inv.uid target.dstPort)

/-- The record a call's handler leaves in a slot it is given. -/
def record (maps : BlockMaps) (slot : RawEvent) : Syscall → Option RawEvent
  | .exec inv => some (execRecord maps inv slot)
  | .fileOpen inv => some (fileOpenRecord inv slot)
  | .netConnect inv => (connectTarget inv).map (fun target => netConnectRecord maps inv target slot)

/-- The handler decides to block a call, or the LSM hook denies it. -/
def kernelBlocks (maps : BlockMaps) : Syscall → Prop
  | .exec inv => execShouldBlock maps inv = true ∨ lsmExec maps inv = -1
  | .fileOpen _ => False
  | .netConnect inv =>
    ∃ target, connectTarget inv = some target ∧ portIsBlocked maps target.dstPort = true

end Syscall

/-! ## Calls that make an attempt -/

theorem uid_bare (comm : TaskComm) (uid : UInt32) : (Invocation.bare comm uid).uid = uid := by
  unfold Invocation.uid Invocation.bare
  apply UInt32.toNat_inj.mp
  have hlt := uid.toNat_lt
  have hmask : (0xFFFFFFFF : UInt64).toNat = 2 ^ 32 - 1 := rfl
  rw [UInt64.toNat_toUInt32, UInt64.toNat_and, UInt32.toNat_toUInt64, hmask,
    Nat.and_two_pow_sub_one_eq_mod, Nat.mod_mod, Nat.mod_eq_of_lt hlt]

/-- A port from its two bytes, the high one first. -/
theorem u16FromBeBytes_split (port : UInt16) :
    u16FromBeBytes (port >>> 8).toUInt8 port.toUInt8 = port := by
  apply UInt16.toBitVec_inj.mp
  refine BitVec.eq_of_getLsbD_eq (fun i hi => ?_)
  unfold u16FromBeBytes
  have height : UInt16.toBitVec 8 % 16 = 8#16 := rfl
  simp only [UInt16.toBitVec_or, UInt16.toBitVec_shiftLeft, UInt8.toBitVec_toUInt16,
    UInt16.toBitVec_toUInt8, UInt16.toBitVec_shiftRight, height, BitVec.shiftLeft_eq',
    BitVec.ushiftRight_eq', BitVec.toNat_ofNat, BitVec.getLsbD_or, BitVec.getLsbD_shiftLeft,
    BitVec.getLsbD_setWidth, BitVec.getLsbD_ushiftRight, Nat.reducePow, Nat.reduceMod, hi,
    decide_true, Bool.true_and]
  -- The high byte comes back above the low one.
  by_cases hlow : i < 8
  · simp only [hlow, decide_true, Bool.not_true, Bool.false_and, Bool.true_and, Bool.false_or]
  · have hbelow : i - 8 < 8 := by omega
    have hwide : i - 8 < 16 := by omega
    have hback : 8 + (i - 8) = i := by omega
    simp only [hlow, hbelow, hwide, hback, decide_false, decide_true, Bool.not_false,
      Bool.true_and, Bool.false_and, Bool.or_false]

/-- An IPv4 socket address with the given port. -/
def inetAddress (port : UInt16) : Vector UInt8 28 :=
  Terminated.pad 28 0 [2, 0, (port >>> 8).toUInt8, port.toUInt8]

/-- The call with the pointer to that address as its argument. -/
def Invocation.connecting (inv : Invocation) (port : UInt16) : Invocation :=
  { inv with
    readAt := fun _ => some 4096
    readUserBuf := fun _ n => if h : n = 28 then some (h ▸ inetAddress port) else none }

theorem connectTarget_connecting (inv : Invocation) (port : UInt16) :
    ∃ target, connectTarget (inv.connecting port) = some target ∧ target.dstPort = port := by
  have hread : connectTarget (inv.connecting port) = decodeSockaddr (inetAddress port) := rfl
  have hbytes : saFamily (inetAddress port) = u16FromNeBytes 2 0 := rfl
  have hfamily : saFamily (inetAddress port) = 2 := hbytes.trans (by decide)
  rw [hread]
  unfold decodeSockaddr
  rw [if_pos hfamily]
  exact ⟨_, rfl, u16FromBeBytes_split port⟩

/-- Every attempt is made by some call. -/
theorem Attempt.exists_call (a : Attempt) : ∃ call : Syscall, call.attempt = some a := by
  cases a with
  | exec comm uid =>
      refine ⟨.exec (Invocation.bare comm uid), ?_⟩
      rw [Syscall.attempt, uid_bare]
      rfl
  | connect comm uid port =>
      refine ⟨.netConnect ((Invocation.bare comm uid).connecting port), ?_⟩
      rcases connectTarget_connecting (Invocation.bare comm uid) port with ⟨target, htarget, hport⟩
      have huid : ((Invocation.bare comm uid).connecting port).uid = uid := uid_bare comm uid
      rw [Syscall.attempt, htarget, Option.map_some, hport, huid]
      rfl

/-! ## The kernel side -/

theorem execShouldBlock_iff (maps : BlockMaps) (inv : Invocation) :
    execShouldBlock maps inv = true ↔ inv.comm.buf ∈ maps.comms ∨ inv.uid ∈ maps.uids := by
  unfold execShouldBlock commIsBlocked uidIsBlocked Invocation.getComm
  rw [Bool.or_eq_true, BoundedMap.isSome_get?, BoundedMap.isSome_get?]

theorem portIsBlocked_iff (maps : BlockMaps) (port : UInt16) :
    portIsBlocked maps port = true ↔ port ∈ maps.ports :=
  BoundedMap.isSome_get? maps.ports port

/-- The LSM hook denies exactly what the exec handler decides to block. -/
theorem lsmExec_iff (maps : BlockMaps) (inv : Invocation) :
    lsmExec maps inv = -1 ↔ execShouldBlock maps inv = true := by
  unfold lsmExec execShouldBlock
  by_cases hcomm : commIsBlocked maps inv.getComm = true
  · simp only [hcomm, if_true, Bool.true_or]
  · by_cases huid : uidIsBlocked maps inv.uid = true
    · simp only [hcomm, huid, if_true, Bool.or_true, Bool.false_eq_true, if_false]
    · simp only [hcomm, huid, Bool.false_eq_true, if_false, Bool.or_self, iff_false]
      omega

theorem kernelBlocks_iff (maps : BlockMaps) (call : Syscall) :
    call.kernelBlocks maps ↔ ∃ a, call.attempt = some a ∧ ∃ k ∈ a.keys, maps.holds k := by
  cases call with
  | exec inv =>
      -- The handler and the hook decide alike, so one of them is enough.
      simp only [Syscall.kernelBlocks, Syscall.attempt]
      rw [lsmExec_iff, or_self, execShouldBlock_iff]
      simp only [Option.some.injEq, exists_eq_left', Attempt.keys, List.mem_cons,
        List.not_mem_nil, or_false, exists_eq_or_imp, exists_eq_left, BlockMaps.holds]
  | fileOpen inv =>
      simp only [Syscall.kernelBlocks, Syscall.attempt, reduceCtorEq, false_and, exists_false]
  | netConnect inv =>
      simp only [Syscall.kernelBlocks, Syscall.attempt]
      cases htarget : connectTarget inv with
      | none =>
          simp only [reduceCtorEq, false_and, exists_false, Option.map_none]
      | some target =>
          simp only [Option.some.injEq, exists_eq_left', Option.map_some, Attempt.keys,
            List.mem_singleton, exists_eq_left, BlockMaps.holds, portIsBlocked_iff]

theorem mem_blockKeys_comm (r : Rule) (key : CommKey) :
    .comm key ∈ r.blockKeys ↔ key ∈ r.matchProcess.map commKey := by
  unfold Rule.blockKeys
  simp only [List.mem_append, List.mem_map, BlockKey.comm.injEq, reduceCtorEq, and_false,
    exists_false, or_false]

theorem mem_blockKeys_port (r : Rule) (port : UInt16) :
    .port port ∈ r.blockKeys ↔ port ∈ r.matchPort := by
  unfold Rule.blockKeys
  simp only [List.mem_append, List.mem_map, BlockKey.port.injEq, reduceCtorEq, and_false,
    exists_false, or_false, false_or, exists_eq_right]

theorem mem_blockKeys_uid (r : Rule) (uid : UInt32) :
    .uid uid ∈ r.blockKeys ↔ r.matchUid = some uid := by
  unfold Rule.blockKeys
  simp only [List.mem_append, List.mem_map, BlockKey.uid.injEq, reduceCtorEq, and_false,
    exists_false, false_or, exists_eq_right, Option.mem_toList]

/-- The keys of a rule list are those its block rules name. -/
theorem has_computeBlockKeys_iff (rules : List Rule) (k : BlockKey) :
    (computeBlockKeys rules).has k ↔ ∃ r ∈ rules, r.action = .block ∧ k ∈ r.blockKeys := by
  cases k with
  | comm key =>
      rw [BlockKeys.has_comm]
      simp only [computeBlockKeys, List.mem_flatMap, List.mem_filter, decide_eq_true_eq,
        mem_blockKeys_comm, and_assoc]
  | port port =>
      rw [BlockKeys.has_port]
      simp only [computeBlockKeys, List.mem_flatMap, List.mem_filter, decide_eq_true_eq,
        mem_blockKeys_port, and_assoc]
  | uid uid =>
      rw [BlockKeys.has_uid]
      simp only [computeBlockKeys, List.mem_filterMap, List.mem_filter, decide_eq_true_eq,
        mem_blockKeys_uid, and_assoc]

/-! ## The user space side -/

theorem coversCaller_eq (glob : GlobCrate) (r : Rule) (comm : TaskComm) (uid : UInt32)
    (event : NormalizedEvent) (hbinary : event.process.binary = comm.str)
    (huid : event.process.uid = uid) :
    (r.processFilter glob event && r.uidFilter event) = r.coversCaller glob comm uid := by
  cases hmatch : r.matchUid with
  | none =>
      simp only [Rule.processFilter, Rule.uidFilter, Rule.coversCaller, hbinary, hmatch]
  | some u =>
      simp only [Rule.processFilter, Rule.uidFilter, Rule.coversCaller, hbinary, huid, hmatch]

/-- What rule evaluation sees of a record is the attempt behind it. -/
theorem matchesEvent_decoded (glob : GlobCrate) (maps : BlockMaps) (call : Syscall) (a : Attempt)
    (slot raw : RawEvent) (id : UInt64) (hattempt : call.attempt = some a)
    (hrecord : call.record maps slot = some raw) (r : Rule) :
    r.matchesEvent glob (decoded id raw) = r.covers glob a := by
  cases call with
  | exec inv =>
      rw [Syscall.attempt, Option.some.injEq] at hattempt
      rw [Syscall.record, Option.some.injEq] at hrecord
      subst hattempt hrecord
      -- An exec event has no port and no opened path, so those conditions hold only if absent.
      rcases decoded_execRecord maps inv slot id with ⟨hbinary, huid, htype, _⟩
      unfold Rule.matchesEvent Rule.covers
      rw [coversCaller_eq glob r inv.comm inv.uid _ hbinary huid]
      unfold Rule.portFilter Rule.pathFilter Rule.execPathFilter
      rw [htype, hbinary]
      simp only [Bool.or_false]
  | fileOpen inv =>
      -- An open is no attempt.
      rw [Syscall.attempt] at hattempt
      exact absurd hattempt (by simp only [reduceCtorEq, not_false_eq_true])
  | netConnect inv =>
      -- Record and attempt are made from one target, which carries the port.
      rw [Syscall.attempt, Option.map_eq_some_iff] at hattempt
      rw [Syscall.record, Option.map_eq_some_iff] at hrecord
      rcases hattempt with ⟨target, htarget, rfl⟩
      rcases hrecord with ⟨target', htarget', rfl⟩
      rw [htarget, Option.some.injEq] at htarget'
      subst htarget'
      rcases decoded_netConnectRecord maps inv target slot id with ⟨hbinary, huid, ⟨ip, htype⟩, _⟩
      unfold Rule.matchesEvent Rule.covers
      rw [coversCaller_eq glob r inv.comm inv.uid _ hbinary huid]
      unfold Rule.portFilter Rule.pathFilter Rule.execPathFilter
      rw [htype]
      simp only [Bool.or_false]

/-! ## The two readings of a rule list -/

/-- A block rule names a key of the attempt. -/
abbrev Named (rules : List Rule) (a : Attempt) : Prop :=
  FirstMatch.Listed (fun r : Rule => r.action = .block) Rule.blockKeys Attempt.keys rules a

/-- A block rule covers the attempt and no rule before it that does not block
    covers it. -/
abbrev ReachesBlock (glob : GlobCrate) (rules : List Rule) (a : Attempt) : Prop :=
  FirstMatch.Reaches (fun (r : Rule) a => r.covers glob a) (fun r => r.action = .block) rules a

theorem reachesBlock_iff (glob : GlobCrate) (rules : List Rule) (a : Attempt) :
    ReachesBlock glob rules a ↔
      ∃ r, rules.find? (fun r => r.covers glob a) = some r ∧ r.action = .block :=
  (FirstMatch.denied_iff_reaches (fun (r : Rule) a => r.covers glob a)
    (fun r => r.action = .block) rules a).symm

/-- The kernel blocks a call exactly when a loaded block rule names a key of
    the attempt. -/
theorem kernelBlocks_iff_named (maps : BlockMaps) (rules : List Rule)
    (h : maps.HoldsExactly (computeBlockKeys rules)) (call : Syscall) :
    call.kernelBlocks maps ↔ ∃ a, call.attempt = some a ∧ Named rules a := by
  have hheld : ∀ k, maps.holds k ↔ ∃ r ∈ rules, r.action = .block ∧ k ∈ r.blockKeys :=
    fun k => ((holdsExactly_iff maps _).mp h k).trans (has_computeBlockKeys_iff rules k)
  rw [kernelBlocks_iff]
  -- What is held is what some block rule names, key by key.
  refine exists_congr (fun a => and_congr_right (fun _ => ?_))
  unfold Named FirstMatch.Listed
  constructor
  · intro h
    rcases h with ⟨k, hk, hholds⟩
    rcases (hheld k).mp hholds with ⟨r, hr, hblock, hkey⟩
    exact ⟨r, hr, hblock, k, hk, hkey⟩
  · intro h
    rcases h with ⟨r, hr, hblock, k, hk, hkey⟩
    exact ⟨k, hk, (hheld k).mpr ⟨r, hr, hblock, hkey⟩⟩

/-- The event decoded from an attempt's record evaluates to blocked exactly
    when the attempt reaches a block rule. -/
theorem evaluate_decoded_blocked_iff (glob : GlobCrate) (maps : BlockMaps) (rules : List Rule)
    (call : Syscall) (a : Attempt) (slot raw : RawEvent) (id : UInt64)
    (hattempt : call.attempt = some a) (hrecord : call.record maps slot = some raw) :
    (∃ name, RuleSet.evaluate glob ⟨rules⟩ (decoded id raw) = some (.blocked, name)) ↔
      ReachesBlock glob rules a := by
  have hguard : (fun r : Rule => r.matchesEvent glob (decoded id raw))
      = fun r => r.covers glob a :=
    funext (matchesEvent_decoded glob maps call a slot raw id hattempt hrecord)
  rw [reachesBlock_iff]
  simp only [evaluate_eq_some, hguard]
  -- Only a block rule maps to the blocked action.
  constructor
  · intro h
    rcases h with ⟨name, r, hfind, haction, _⟩
    exact ⟨r, hfind, toAction_inj r.action .block haction⟩
  · intro h
    rcases h with ⟨r, hfind, hblock⟩
    exact ⟨r.name, r, hfind, by rw [hblock]; rfl, rfl⟩

end VectorGuard
