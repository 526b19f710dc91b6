import VectorGuard.Core.Enforcer

/-!
# Map Operations

`loadRules` as the kernel sees it: not one step but a sequence of removals and
insertions, one system call each, with anything in between (`enforcer.rs`).

The keys a map enumerates are collected before the first of them is removed,
and removing from one map leaves the other two alone, so the whole sequence is
known from the maps at the start and the rule list.

## Main definitions

* `BlockKey`: A key of one of the three maps.
* `MapOp`: One map operation.
* `loadOps`: The operations of a load.
* `runOps`: Operations run without interruption, up to the first refusal.

## Theorems

* `holds_remove`, `holds_insert`: What one operation does to the held keys.
* `runOps_loadOps`: Uninterrupted, the operations are the load.
-/

namespace VectorGuard

/-- A key of one of the three maps. -/
inductive BlockKey
  | comm (key : CommKey)
  | port (port : UInt16)
  | uid (uid : UInt32)
  deriving DecidableEq

namespace BlockMaps

def holds (maps : BlockMaps) : BlockKey → Prop
  | .comm key => key ∈ maps.comms
  | .port port => port ∈ maps.ports
  | .uid uid => uid ∈ maps.uids

instance (maps : BlockMaps) (k : BlockKey) : Decidable (maps.holds k) :=
  match k with
  | .comm key => inferInstanceAs (Decidable (key ∈ maps.comms))
  | .port port => inferInstanceAs (Decidable (port ∈ maps.ports))
  | .uid uid => inferInstanceAs (Decidable (uid ∈ maps.uids))

def remove (maps : BlockMaps) : BlockKey → BlockMaps
  | .comm key => { maps with comms := maps.comms.remove key }
  | .port port => { maps with ports := maps.ports.remove port }
  | .uid uid => { maps with uids := maps.uids.remove uid }

def insert (maps : BlockMaps) : BlockKey → Option BlockMaps
  | .comm key => (maps.comms.insert key 1).map (fun comms => { maps with comms })
  | .port port => (maps.ports.insert port 1).map (fun ports => { maps with ports })
  | .uid uid => (maps.uids.insert uid 1).map (fun uids => { maps with uids })

/-- The keys the three maps enumerate, in the order `clear` removes them. -/
def keyList (maps : BlockMaps) : List BlockKey :=
  maps.comms.keys.map .comm ++ (maps.ports.keys.map .port ++ maps.uids.keys.map .uid)

end BlockMaps

/-- The keys to install, in the order `load_rules` inserts them. -/
def BlockKeys.toList (keys : BlockKeys) : List BlockKey :=
  keys.comms.map .comm ++ (keys.ports.map .port ++ keys.uids.map .uid)

def BlockKeys.has (keys : BlockKeys) (k : BlockKey) : Prop := k ∈ keys.toList

@[simp] theorem BlockKeys.has_comm (keys : BlockKeys) (key : CommKey) :
    keys.has (.comm key) ↔ key ∈ keys.comms := by
  unfold BlockKeys.has BlockKeys.toList
  simp only [List.mem_append, List.mem_map, BlockKey.comm.injEq, reduceCtorEq, and_false,
    exists_false, or_false, exists_eq_right]

@[simp] theorem BlockKeys.has_port (keys : BlockKeys) (port : UInt16) :
    keys.has (.port port) ↔ port ∈ keys.ports := by
  unfold BlockKeys.has BlockKeys.toList
  simp only [List.mem_append, List.mem_map, BlockKey.port.injEq, reduceCtorEq, and_false,
    exists_false, or_false, false_or, exists_eq_right]

@[simp] theorem BlockKeys.has_uid (keys : BlockKeys) (uid : UInt32) :
    keys.has (.uid uid) ↔ uid ∈ keys.uids := by
  unfold BlockKeys.has BlockKeys.toList
  simp only [List.mem_append, List.mem_map, BlockKey.uid.injEq, reduceCtorEq, and_false,
    exists_false, false_or, exists_eq_right]

/-- A removal succeeds always; an insertion may be refused. -/
inductive MapOp
  | remove (k : BlockKey)
  | insert (k : BlockKey)
  deriving DecidableEq

def MapOp.apply (maps : BlockMaps) : MapOp → Option BlockMaps
  | .remove k => some (maps.remove k)
  | .insert k => maps.insert k

/-- The operations `load_rules` issues on maps in the given state. -/
def loadOps (maps : BlockMaps) (rules : List Rule) : List MapOp :=
  maps.keyList.map .remove ++ (computeBlockKeys rules).toList.map .insert

/-- Run operations one after the other, up to the first that is refused. -/
def runOps (maps : BlockMaps) : List MapOp → BlockMaps × Except MapError Unit
  | [] => (maps, .ok ())
  | op :: ops => match op.apply maps with
    | some maps' => runOps maps' ops
    | none => (maps, .error .full)

/-! ## One operation -/

theorem holds_remove (maps : BlockMaps) (k a : BlockKey) :
    (maps.remove k).holds a ↔ a ≠ k ∧ maps.holds a := by
  cases k <;> cases a <;>
    simp only [BlockMaps.remove, BlockMaps.holds, BoundedMap.mem_remove, ne_eq, reduceCtorEq,
      not_false_eq_true, true_and, BlockKey.comm.injEq, BlockKey.port.injEq, BlockKey.uid.injEq]

theorem holds_insert (maps maps' : BlockMaps) (k a : BlockKey) (h : maps.insert k = some maps') :
    maps'.holds a ↔ a = k ∨ maps.holds a := by
  cases k with
  | comm key =>
      rcases Option.map_eq_some_iff.mp h with ⟨comms, hins, rfl⟩
      have hmem := (BoundedMap.insert_spec maps.comms comms key 1 hins).1
      cases a <;> simp only [BlockMaps.holds, hmem, BlockKey.comm.injEq, reduceCtorEq, false_or]
  | port port =>
      rcases Option.map_eq_some_iff.mp h with ⟨ports, hins, rfl⟩
      have hmem := (BoundedMap.insert_spec maps.ports ports port 1 hins).1
      cases a <;> simp only [BlockMaps.holds, hmem, BlockKey.port.injEq, reduceCtorEq, false_or]
  | uid uid =>
      rcases Option.map_eq_some_iff.mp h with ⟨uids, hins, rfl⟩
      have hmem := (BoundedMap.insert_spec maps.uids uids uid 1 hins).1
      cases a <;> simp only [BlockMaps.holds, hmem, BlockKey.uid.injEq, reduceCtorEq, false_or]

/-! ## The whole sequence -/

section Slot

/-! One of the three maps, as a slot `put` of the state and a key constructor
`inj` of its own. -/

variable {K : Type} [DecidableEq K] (put : BoundedMap K UInt8 256 → BlockMaps) (inj : K → BlockKey)

theorem runOps_removes (hremove : ∀ m k, (put m).remove (inj k) = put (m.remove k)) (ks : List K)
    (m : BoundedMap K UInt8 256) (rest : List MapOp) :
    runOps (put m) ((ks.map inj).map .remove ++ rest) = runOps (put (m.removeAll ks)) rest := by
  induction ks generalizing m with
  | nil =>
      rfl
  | cons k ks ih =>
      simp only [List.map_cons, List.cons_append, runOps, MapOp.apply, hremove]
      exact ih (m.remove k)

theorem runOps_inserts (hinsert : ∀ m k, (put m).insert (inj k) = (m.insert k 1).map put)
    (ks : List K) (m : BoundedMap K UInt8 256) (rest : List MapOp) :
    runOps (put m) ((ks.map inj).map .insert ++ rest) =
      match m.insertAll 1 ks with
      | (m', true) => runOps (put m') rest
      | (m', false) => (put m', .error .full) := by
  induction ks generalizing m with
  | nil =>
      rfl
  | cons k ks ih =>
      simp only [List.map_cons, List.cons_append, runOps, MapOp.apply, hinsert,
        BoundedMap.insertAll]
      cases m.insert k 1 with
      | none =>
          rfl
      | some m' =>
          exact ih m'

end Slot

theorem runOps_clear (maps : BlockMaps) (rest : List MapOp) :
    runOps maps (maps.keyList.map .remove ++ rest) = runOps (clear maps) rest := by
  unfold BlockMaps.keyList
  simp only [List.map_append, List.append_assoc]
  -- Comms, ports and users in turn, each as a slot of the state reached so far.
  have hcomms := runOps_removes (fun m => { maps with comms := m }) .comm (fun _ _ => rfl)
    maps.comms.keys maps.comms
  have hports := runOps_removes
    (fun m => { maps with comms := maps.comms.removeAll maps.comms.keys, ports := m }) .port
    (fun _ _ => rfl) maps.ports.keys maps.ports
  have huids := runOps_removes (fun m => { clear maps with uids := m }) .uid (fun _ _ => rfl)
    maps.uids.keys maps.uids
  rw [hcomms, hports]
  exact huids rest

/-- Run without interruption, the operations of a load are the load. -/
theorem runOps_loadOps (maps : BlockMaps) (rules : List Rule) :
    runOps maps (loadOps maps rules) = loadRules maps rules := by
  unfold loadOps
  rw [runOps_clear]
  unfold BlockKeys.toList
  simp only [List.map_append]
  have hcomms := runOps_inserts (fun m => { clear maps with comms := m }) .comm (fun _ _ => rfl)
    (computeBlockKeys rules).comms (clear maps).comms
  simp only [loadRules]
  refine (hcomms _).trans ?_
  -- Each of the three fills is followed by the next only if it was not refused.
  rcases (clear maps).comms.insertAll 1 (computeBlockKeys rules).comms with ⟨comms, _ | _⟩
  · rfl
  · have hports := runOps_inserts (fun m => { clear maps with comms, ports := m }) .port
      (fun _ _ => rfl) (computeBlockKeys rules).ports (clear maps).ports
    refine (hports _).trans ?_
    rcases (clear maps).ports.insertAll 1 (computeBlockKeys rules).ports with ⟨ports, _ | _⟩
    · rfl
    · have huids := runOps_inserts (fun m => { comms, ports, uids := m }) .uid
        (fun _ _ => rfl) (computeBlockKeys rules).uids (clear maps).uids []
      rw [List.append_nil] at huids
      refine huids.trans ?_
      rcases (clear maps).uids.insertAll 1 (computeBlockKeys rules).uids with ⟨uids, _ | _⟩
      · rfl
      · rfl

end VectorGuard
