import Mathlib.Data.List.AList

/-!
# Context Window

The recent event vectors of every process, kept per PID within a time window
and a maximum number (`slow_path/context.rs`). A ring is a list with its
oldest entry first. Times are nanoseconds and saturate at zero.

Vectors are lists of single-precision floats and the averages are computed in
the order the code computes them.

## Main definitions

* `ContextWindow`: The per-PID rings and their settings.
* `ContextWindow.push`: Recording an event and pruning its ring.
* `ContextWindow.pruneStalePids`: Dropping PIDs with an empty ring.
* `ContextWindow.contextVector`: The recency-weighted average of a ring.
-/

namespace VectorGuard

/-- Maximum stored events per PID regardless of the window. -/
def maxPerPid : Nat := 32

abbrev Ring := List (UInt64 × List Float32)

structure ContextWindow where
  store : AList (fun _ : UInt32 => Ring)
  windowNs : UInt64
  vectorDim : Nat

/-- Divide by the Euclidean norm, unless it is negligible. -/
def normalized (v : List Float32) : List Float32 :=
  let norm := ((v.map (fun x => x * x)).foldl (· + ·) 0).sqrt
  if norm > 1e-9 then v.map (fun x => x / norm) else v

namespace ContextWindow

/-- `ContextWindow::new`. -/
def new (windowSecs : UInt64) (vectorDim : Nat) : ContextWindow where
  store := ∅
  windowNs := windowSecs * 1000000000
  vectorDim := vectorDim

/-- `u64::saturating_sub`. -/
def saturatingSub (a b : UInt64) : UInt64 := if b ≤ a then a - b else 0

/-- The two front-popping loops that follow an append. -/
def prunedRing (ring : Ring) (cutoff : UInt64) : Ring :=
  -- First by age, then by number.
  let ring := ring.dropWhile (fun e => decide (e.1 < cutoff))
  ring.drop (ring.length - maxPerPid)

/-- `ContextWindow::push`. -/
def push (cw : ContextWindow) (pid : UInt32) (timestampNs : UInt64) (vector : List Float32) :
    ContextWindow :=
  let ring := (cw.store.lookup pid).getD [] ++ [(timestampNs, vector)]
  let cutoff := saturatingSub timestampNs cw.windowNs
  { cw with store := cw.store.insert pid (prunedRing ring cutoff) }

/-- `ContextWindow::prune_stale_pids`: only PIDs with an empty ring go. -/
def pruneStalePids (cw : ContextWindow) : ContextWindow :=
  { cw with store :=
    ⟨cw.store.entries.filter (fun e => !e.2.isEmpty),
      cw.store.nodupKeys.sublist List.filter_sublist⟩ }

/-- Add the weighted vectors of a ring of `n` entries, oldest first. -/
def weightedSum (dim : Nat) (ring : Ring) : List Float32 × Float32 :=
  let n := ring.length.toFloat32
  ring.zipIdx.foldl (fun (result, total) (e, i) =>
    let weight := (i.toFloat32 + 1.0) / n
    let added := result.mapIdx (fun j r => match e.2[j]? with
      | some v => r + weight * v
      | none => r)
    (added, total + weight)) (List.replicate dim 0, 0)

/-- `ContextWindow::context_vector`. -/
def contextVector (cw : ContextWindow) (pid : UInt32) : Option (List Float32) :=
  match cw.store.lookup pid with
  | none => none
  | some ring =>
    if ring.isEmpty then none
    else
      let (result, totalWeight) := weightedSum cw.vectorDim ring
      let result := if totalWeight > 1e-9 then result.map (fun x => x / totalWeight) else result
      some (normalized result)

end ContextWindow

end VectorGuard
