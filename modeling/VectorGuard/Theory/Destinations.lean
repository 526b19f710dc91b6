import VectorGuard.Core.UserMemory
import VectorGuard.Theory.Attempts

/-!
# Destinations

From the socket address a process passes to `connect` to the network event.

A process connects to an IPv4 address with a `sockaddr_in` of sixteen bytes and to
an IPv6 address with a `sockaddr_in6` of twenty-eight. The handler reads
twenty-eight bytes in either case and takes the fields of the family it finds in
them. What it takes is right for both families, because it never looks behind the
structure. The read does: it fails when one of the bytes behind a `sockaddr_in`
cannot be read, and the handler gives up before it has looked at the family.

The caller chooses where the structure lies. At the end of a mapped page nothing
can be read behind it, and the connection is neither reported nor blocked.

## Main definitions

* `SockAddr`: A socket address as the process lays it out.
* `SeenAs`: The call is reported with this destination, and killed for its port.

## Theorems

* `decodeSockaddr_of_holds`: A block that starts with a socket address decodes to it.
* `seenAs_iff`: When the handler sees a destination.
-/

namespace VectorGuard

open PartialReads

/-- The bytes of a port, the high one first. -/
def portBytes (port : UInt16) : List UInt8 := [(port >>> 8).toUInt8, port.toUInt8]

/-- A socket address in the memory of a process. -/
inductive SockAddr
  /-- `sockaddr_in`, with its padding. -/
  | inet (port : UInt16) (a b c d : UInt8) (zero : Vector UInt8 8)
  /-- `sockaddr_in6`. -/
  | inet6 (port : UInt16) (flowinfo : Vector UInt8 4) (addr : Vector UInt8 16)
    (scopeId : Vector UInt8 4)

namespace SockAddr

def bytes : SockAddr → List UInt8
  | inet port a b c d zero => [2, 0] ++ portBytes port ++ [a, b, c, d] ++ zero.toList
  | inet6 port flowinfo addr scopeId =>
    [10, 0] ++ portBytes port ++ flowinfo.toList ++ addr.toList ++ scopeId.toList

def port : SockAddr → UInt16
  | inet port _ _ _ _ _ => port
  | inet6 port _ _ _ => port

def ip : SockAddr → IpAddr
  | inet _ a b c d _ => .v4 a b c d
  | inet6 _ _ addr _ => .v6 addr

/-- The address of a `sockaddr_in6` starts at the ninth byte. -/
theorem getElem_bytes_inet6 (port : UInt16) (flowinfo : Vector UInt8 4) (addr : Vector UInt8 16)
    (scopeId : Vector UInt8 4) (i : Nat) (hi : i < 16) :
    (inet6 port flowinfo addr scopeId).bytes[8 + i]? = some addr[i] := by
  have hfront : ([10, 0] ++ portBytes port ++ flowinfo.toList).length = 8 := by
    simp only [portBytes, List.length_append, List.length_cons, List.length_nil,
      Vector.length_toList, Nat.reduceAdd]
  have hlen : addr.toList.length = 16 := Vector.length_toList
  simp only [bytes]
  rw [List.append_assoc _ addr.toList, List.getElem?_append_right (by omega), hfront,
    Nat.add_sub_cancel_left, List.getElem?_append_left (by omega), Vector.getElem?_toList,
    Vector.getElem?_eq_getElem hi]

end SockAddr

/-- The payload the handler writes for a target. -/
def ConnectTarget.net (target : ConnectTarget) : NetPayload :=
  { dstPort := target.dstPort, proto := 6, family := target.family, dstAddr := target.dstAddr }

/-- The port stands behind the family. -/
theorem saPort_of_holds {cell : Nat → Option UInt8} {saBuf : Vector UInt8 28}
    (hread : readVec cell 28 = some saBuf) {l : List UInt8} (hheld : HoldsAt cell l) {port : UInt16}
    (hhigh : l[2]? = some (port >>> 8).toUInt8) (hlow : l[3]? = some port.toUInt8) :
    saPort saBuf = port := by
  have hat := getElem_readVec hread hheld
  unfold saPort
  rw [hat 2 (by decide) _ hhigh, hat 3 (by decide) _ hlow]
  exact u16FromBeBytes_split port

/-- A block that starts with a socket address decodes to it, whatever lies
    behind the address. -/
theorem decodeSockaddr_of_holds (cell : Nat → Option UInt8) (saBuf : Vector UInt8 28)
    (hread : readVec cell 28 = some saBuf) (sa : SockAddr) (hheld : HoldsAt cell sa.bytes) :
    ∃ target, decodeSockaddr saBuf = some target ∧ target.dstPort = sa.port ∧
      remoteIp target.net = sa.ip := by
  have hat := getElem_readVec hread hheld
  cases sa with
  | inet port a b c d zero =>
      -- The family is read in the order of bytes of the machine, the port in that of the
      -- network.
      have hfamily : saFamily saBuf = 2 := by
        unfold saFamily
        rw [hat 0 (by decide) 2 rfl, hat 1 (by decide) 0 rfl]
        decide
      have hport : saPort saBuf = port := saPort_of_holds hread hheld rfl rfl
      unfold decodeSockaddr
      rw [if_pos hfamily, hport, hat 4 (by decide) a rfl, hat 5 (by decide) b rfl,
        hat 6 (by decide) c rfl, hat 7 (by decide) d rfl]
      exact ⟨_, rfl, rfl, rfl⟩
  | inet6 port flowinfo addr scopeId =>
      have hfamily : saFamily saBuf = 10 := by
        unfold saFamily
        rw [hat 0 (by decide) 10 rfl, hat 1 (by decide) 0 rfl]
        decide
      have hport : saPort saBuf = port := saPort_of_holds hread hheld rfl rfl
      -- The address starts behind the flow information.
      have haddr : Vector.ofFn (fun i : Fin 16 => saBuf[8 + i.val]) = addr := by
        refine Vector.ext (fun i hi => ?_)
        rw [Vector.getElem_ofFn]
        exact hat (8 + i) (by omega) _
          (SockAddr.getElem_bytes_inet6 port flowinfo addr scopeId i hi)
      unfold decodeSockaddr
      rw [if_neg (by rw [hfamily]; decide), if_pos hfamily, hport, haddr]
      exact ⟨_, rfl, rfl, rfl⟩

/-- The handler submits one network event that decodes to this destination, and
    kills the caller exactly if the port is blocked. -/
def SeenAs (maps : BlockMaps) (inv : Invocation) (sa : SockAddr) : Prop :=
  ∃ raw, (tryHandleNetConnect maps inv).submitted = some raw ∧ raw.kind = .netConnect ∧
    (∀ id, ∃ ev, parseRawEvent id sizeOfRawEvent raw = .ok ev ∧
      ev.eventType = .network .outbound sa.ip sa.port .tcp) ∧
    ((tryHandleNetConnect maps inv).signal = some 9 ↔ sa.port ∈ maps.ports)

section Connect

variable (maps : BlockMaps) (inv : Invocation) (mem : UserMemory) (ptr : UInt64)

theorem connectTarget_over (hptr : inv.readAt 24 = some ptr) (hnull : ptr ≠ 0) :
    connectTarget (inv.over mem) = (readVec (mem.behind ptr) 28).bind decodeSockaddr := by
  have hread : (inv.over mem).readAt 24 = some ptr := hptr
  unfold connectTarget
  simp only [hread, Option.getD_some, if_neg hnull]
  have hbuf : (inv.over mem).readUserBuf ptr 28 = readVec (mem.behind ptr) 28 := rfl
  rw [hbuf]
  cases readVec (mem.behind ptr) 28 with
  | none =>
      rfl
  | some saBuf =>
      rfl

/-- A call whose target is found is seen as that target. -/
theorem seenAs_of_target (sa : SockAddr) (slot : RawEvent) (target : ConnectTarget)
    (hroom : inv.reserve = some slot) (htarget : connectTarget inv = some target)
    (hport : target.dstPort = sa.port)
    (hip : remoteIp target.net = sa.ip) : SeenAs maps inv sa := by
  have hrun : tryHandleNetConnect maps inv
      = { ret := 0
          submitted := some (netConnectRecord maps inv target slot)
          signal := if portIsBlocked maps target.dstPort then some 9 else none } := by
    unfold tryHandleNetConnect
    simp only [htarget, hroom]
  unfold SeenAs
  rw [hrun]
  refine ⟨_, rfl, rfl, fun id => ⟨_, parseRawEvent_eq id _, ?_⟩, ?_⟩
  · rw [← hip, ← hport]
    rfl
  · rw [← hport, ← portIsBlocked_iff]
    cases portIsBlocked maps target.dstPort with
    | false =>
        simp only [Bool.false_eq_true, if_false, reduceCtorEq]
    | true =>
        simp only [if_true]

/-- A destination is seen exactly when the bytes behind the socket address can be
    read, up to the size of the larger of the two structures. -/
theorem seenAs_iff (sa : SockAddr) (slot : RawEvent) (hroom : inv.reserve = some slot)
    (hptr : inv.readAt 24 = some ptr) (hnull : ptr ≠ 0)
    (hheld : HoldsAt (mem.behind ptr) sa.bytes) :
    SeenAs maps (inv.over mem) sa ↔
      ∀ i < 28, sa.bytes.length ≤ i → (mem.behind ptr i).isSome := by
  have htarget := connectTarget_over inv mem ptr hptr hnull
  have hslot : (inv.over mem).reserve = some slot := hroom
  rw [← isSome_readVec_of_holds hheld]
  cases hread : readVec (mem.behind ptr) 28 with
  | none =>
      -- The handler returns before it knows the family.
      rw [hread, Option.bind_none] at htarget
      have hskip : tryHandleNetConnect maps (inv.over mem) = Outcome.skipped := by
        unfold tryHandleNetConnect
        rw [htarget]
      unfold SeenAs
      rw [hskip]
      simp only [Outcome.skipped, reduceCtorEq, false_and, exists_false, Option.isSome_none,
        Bool.false_eq_true]
  | some saBuf =>
      rcases decodeSockaddr_of_holds _ saBuf hread sa hheld with ⟨target, hdecode, hport, hip⟩
      rw [hread, Option.bind_some, hdecode] at htarget
      exact iff_of_true (seenAs_of_target maps _ sa slot target hslot htarget hport hip) rfl

end Connect

/-- A connection to port 4444 of an IPv4 address. -/
def backdoor : SockAddr := .inet 4444 10 0 0 1 (Vector.replicate 8 0)

/-- A `connect` by a shell that passes the given bytes, with nothing to read
    around them. -/
def connectWith (l : List UInt8) : Invocation :=
  ((Invocation.bare TaskComm.empty 1000).passing 24 8176).over (UserMemory.ofBytes 8176 l)

/-- With room behind it the connection is seen. -/
theorem backdoor_seen :
    SeenAs BlockMaps.empty (connectWith (backdoor.bytes ++ List.replicate 12 0)) backdoor := by
  have hheld : HoldsAt ((UserMemory.ofBytes 8176 (backdoor.bytes ++ List.replicate 12 0)).behind 8176)
      backdoor.bytes := by
    intro i x hx
    have hi : i < backdoor.bytes.length := (List.getElem?_eq_some_iff.mp hx).1
    refine UserMemory.holds_ofBytes _ _ (by decide) i x ?_
    rw [List.getElem?_append_left hi, hx]
  refine (seenAs_iff BlockMaps.empty ((Invocation.bare TaskComm.empty 1000).passing 24 8176) _ 8176
    backdoor RawEvent.zeroed rfl rfl (by decide) hheld).mpr ?_
  decide

/-- The maps of a rule that blocks the port. -/
def port4444Blocked : BlockMaps :=
  (loadRules BlockMaps.empty [{ Rule.bare "block-4444" .block with matchPort := [4444] }]).1

/-- At the end of a page the same connection is not seen, although its port is
    blocked. -/
theorem backdoor_at_page_end_unseen :
    HoldsAt ((UserMemory.ofBytes 8176 backdoor.bytes).behind 8176) backdoor.bytes ∧
      backdoor.port ∈ port4444Blocked.ports ∧
      tryHandleNetConnect port4444Blocked (connectWith backdoor.bytes) = Outcome.skipped ∧
      ¬ SeenAs port4444Blocked (connectWith backdoor.bytes) backdoor := by
  have htarget : connectTarget (connectWith backdoor.bytes) = none := by decide
  have hskip : tryHandleNetConnect port4444Blocked (connectWith backdoor.bytes)
      = Outcome.skipped := by
    unfold tryHandleNetConnect
    rw [htarget]
  refine ⟨UserMemory.holds_ofBytes _ _ (by decide), by decide, hskip, ?_⟩
  intro h
  rcases h with ⟨raw, hsub, _⟩
  rw [hskip] at hsub
  exact absurd hsub (by simp only [Outcome.skipped, reduceCtorEq, not_false_eq_true])

end VectorGuard
