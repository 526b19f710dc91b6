import VectorGuard.Core.FastPath
import VectorGuard.Core.Incident
import VectorGuard.Core.Scope
import VectorGuard.Core.SlowPath

/-!
# Event Pipeline

What the two tasks of the daemon do with one event (`main.rs`). The pipeline
task filters, evaluates and records an event and then offers a copy to the
slow worker, which analyses the copy and records it again if the analysis
changed its action. The worker sees the event as the fast path left it; the
two tasks share nothing but the copy.

## Main definitions

* `pipelineEvent`: The pipeline task's work on one received event.
* `slowWorkerEvent`: The slow worker's work on one copy.
-/

namespace VectorGuard

/-- The event `run_pipeline` records and forwards, none when it is out of
    scope. -/
def pipelineEvent (glob : GlobCrate) (scopeFilter : ScopeFilter glob) (fastPath : FastPath)
    (ev : NormalizedEvent) : Option NormalizedEvent :=
  if !scopeFilter.allows ev then none
  else some (fastPath.evaluate glob ev)

/-- What the slow worker has after one copy: its detector, the event and
    whether it called `record` on it. -/
structure WorkerStep where
  slowPath : SlowPath
  event : NormalizedEvent
  recordCalled : Bool

/-- One event through `run_slow_worker`. -/
def slowWorkerEvent (slowPath : SlowPath) (ev : NormalizedEvent) : WorkerStep :=
  let prior := ev.action
  let analysis := slowPath.analyze ev
  { slowPath := analysis.slowPath
    event := analysis.event
    -- The pipeline has recorded the event under its first action.
    recordCalled := analysis.event.action ≠ prior }

end VectorGuard
