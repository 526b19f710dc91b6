import VectorGuard.Core.Ebpf
import VectorGuard.Core.Rules

/-!
# Enforcer

Compiling block rules into the three kernel maps (`enforcer.rs`).

`computeBlockKeys` flattens the block rules of a list into three key lists.
`loadRules` clears the maps and refills them one key at a time, and returns at
the first insertion that fails, leaving the maps as they are at that point.
The result and the maps it leaves are both part of its value: the caller only
logs an error and goes on.

## Main definitions

* `commKey`: The map key of a process name.
* `computeBlockKeys`: The keys of a rule list.
* `clear`: Removing every key of the three maps.
* `loadRules`: Installing a rule list.

## Theorems

* `clear_eq_empty`: Clearing leaves three empty maps.
-/

namespace VectorGuard

/-- `comm_key`: the first sixteen bytes of a name, zero-padded. -/
def commKey (name : String) : CommKey :=
  Terminated.pad 16 0 (bytes name)

structure BlockKeys where
  comms : List CommKey
  ports : List UInt16
  uids : List UInt32
  deriving DecidableEq

/-- `compute_block_keys`. -/
def computeBlockKeys (rules : List Rule) : BlockKeys :=
  let blocking := rules.filter (fun r => r.action = .block)
  { comms := blocking.flatMap (fun r => r.matchProcess.map commKey)
    ports := blocking.flatMap (fun r => r.matchPort)
    uids := blocking.filterMap (fun r => r.matchUid) }

/-- Why an insertion fails. -/
inductive MapError
  | full
  deriving DecidableEq, Repr

/-- `Enforcer::clear`: each map's keys are enumerated, then removed. -/
def clear (maps : BlockMaps) : BlockMaps where
  comms := maps.comms.removeAll maps.comms.keys
  ports := maps.ports.removeAll maps.ports.keys
  uids := maps.uids.removeAll maps.uids.keys

/-- `Enforcer::load_rules`: the maps it leaves and its result. -/
def loadRules (maps : BlockMaps) (rules : List Rule) : BlockMaps × Except MapError Unit :=
  let maps := clear maps
  let keys := computeBlockKeys rules
  -- Each of the three loops returns at the first insertion that fails.
  match maps.comms.insertAll 1 keys.comms with
  | (comms, false) => ({ maps with comms }, .error .full)
  | (comms, true) =>
    let maps := { maps with comms }
    match maps.ports.insertAll 1 keys.ports with
    | (ports, false) => ({ maps with ports }, .error .full)
    | (ports, true) =>
      let maps := { maps with ports }
      match maps.uids.insertAll 1 keys.uids with
      | (uids, false) => ({ maps with uids }, .error .full)
      | (uids, true) => ({ maps with uids }, .ok ())

theorem clear_eq_empty (maps : BlockMaps) : clear maps = BlockMaps.empty := by
  unfold clear BlockMaps.empty
  rw [BoundedMap.removeAll_keys, BoundedMap.removeAll_keys, BoundedMap.removeAll_keys]

end VectorGuard
