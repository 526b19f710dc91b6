import VectorGuard.Core.Dataflow
import VectorGuard.Theory.Escalation

/-!
# Passage of Events

What becomes of the events on their way from the source to the terminal.

There are two stretches. From the source to the pipeline an event may be in the
source's hand or in the raw channel; from the filters to the terminal it may be in the
pipeline's hand or in the channel to the terminal. Each stretch keeps what it is given,
in order, as long as its receiver is there. Between the two an event is either out of
scope or goes on as the fast path leaves it.

The slow worker, the advisor and the reloads come in at every point of this and take
nothing out. What they change is which verdict an event gets, and when.

## Main definitions

* `Dataflow.upstream`, `Dataflow.downstream`: The two stretches.
* `Dataflow.Sound`: Nobody sends to a receiver that is gone.

## Theorems

* `fifo_upstream`, `fifo_downstream`: Each stretch keeps what it is given.
* `receive_of_run`: The events that are received are the emitted ones, by their number.
* `passage_of_run`: What the terminal shows, and what is still on its way.
-/

namespace VectorGuard

open Transition

/-! ### Labels -/

namespace DataflowAction

def emitted : DataflowAction → List NormalizedEvent
  | .emit ev => [ev]
  | _ => []

/-- What the pipeline receives. -/
def arrived : DataflowAction → List NormalizedEvent
  | .receive _ ev _ _ => [ev]
  | _ => []

/-- What the pipeline makes of an event, none if it is out of scope. -/
def verdict : DataflowAction → List (Option NormalizedEvent)
  | .receive _ _ _ ev => [ev]
  | _ => []

/-- What the pipeline records of an event and passes on. -/
def recorded : DataflowAction → List Numbered
  | .receive n _ _ (some ev) => [(n, ev)]
  | _ => []

/-- What the terminal shows. -/
def presented : DataflowAction → List Numbered
  | .present ev => [ev]
  | _ => []

end DataflowAction

open DataflowAction

/-- The verdicts that are events, each with its position. -/
def numbered (verdicts : List (Option NormalizedEvent)) : List Numbered :=
  verdicts.zipIdx.filterMap (fun v => v.1.map (fun ev => (v.2, ev)))

theorem numbered_append_singleton (verdicts : List (Option NormalizedEvent))
    (v : Option NormalizedEvent) :
    numbered (verdicts ++ [v]) =
      numbered verdicts ++ (v.map (fun ev => (verdicts.length, ev))).toList := by
  unfold numbered
  rw [List.zipIdx_append, List.filterMap_append, Nat.zero_add]
  cases v with
  | none => rfl
  | some ev => rfl

/-! ### Stretches -/

def SourceAt.inHand : SourceAt → List NormalizedEvent
  | .sending ev => [ev]
  | _ => []

def PipelineTaskAt.inHand : PipelineTaskAt → List Numbered
  | .advising ev => [ev]
  | .delivering ev => [ev]
  | _ => []

theorem PipelineTaskAt.withEvent_ne_stopped (n : Nat) (recorded : Option NormalizedEvent) :
    PipelineTaskAt.withEvent n recorded ≠ .stopped := by
  cases recorded with
  | none => exact PipelineTaskAt.noConfusion
  | some ev => exact PipelineTaskAt.noConfusion

/-- What is recorded of an event is in the pipeline's hand. -/
theorem PipelineTaskAt.inHand_withEvent (n : Nat) (ev : NormalizedEvent) (built : Nat)
    (recorded : Option NormalizedEvent) :
    (PipelineTaskAt.withEvent n recorded).inHand =
      (DataflowAction.receive n ev built recorded).recorded := by
  cases recorded with
  | none => rfl
  | some ev' => rfl

namespace Dataflow

variable {glob : GlobCrate} {term : Terminal} {fromStr : String → Option RuleSet}
  {s t : Dataflow glob term} {a : DataflowAction}

/-- The events on their way to the pipeline, the next one first. -/
def upstream (s : Dataflow glob term) : List NormalizedEvent := s.raw.queue ++ s.source.inHand

/-- The events on their way to the terminal, the next one first. -/
def downstream (s : Dataflow glob term) : List Numbered := s.proc.queue ++ s.pipeline.inHand

/-- A source that is not listened to has ended and left nothing behind, and the pipeline
    has not stopped while there is a terminal. -/
structure Sound (s : Dataflow glob term) : Prop where
  parked : s.listening = false → s.source = .ended ∧ s.raw.queue = []
  serving : s.terminal.isSome → s.pipeline ≠ .stopped

theorem Sound.step (h : s.Sound) (hst : DataflowStep fromStr s a t) : t.Sound := by
  cases hst with
  | emit ev hsource =>
      refine ⟨fun hparked => ?_, h.serving⟩
      have hended := (h.parked hparked).1
      rw [hsource] at hended
      cases hended
  | enter ev hsource hopen hroom =>
      exact ⟨fun hparked => absurd (hopen.1.symm.trans hparked) Bool.noConfusion, h.serving⟩
  | sourceHangUp | sourceEnd =>
      exact ⟨fun hparked => ⟨rfl, (h.parked hparked).2⟩, h.serving⟩
  | park hphase hlistening hempty hended => exact ⟨fun _ => ⟨hended, hempty⟩, h.serving⟩
  | receive ev rest hphase hlistening hqueue =>
      refine ⟨fun hparked => ?_, fun _ => PipelineTaskAt.withEvent_ne_stopped _ _⟩
      exact absurd (hlistening.symm.trans hparked) Bool.noConfusion
  | forward | drop | deliver | changed | borrow | rebuild =>
      exact ⟨h.parked, fun _ hstopped => by cases hstopped⟩
  | hangUp ev hphase hgone =>
      refine ⟨h.parked, fun hterminal => ?_⟩
      dsimp only at hterminal
      rw [hgone] at hterminal
      exact absurd hterminal Bool.false_ne_true
  | present ev rest st st' hterminal hqueue hpush =>
      exact ⟨h.parked, fun _ => h.serving (hterminal ▸ rfl)⟩
  | turn st st' hterminal hturn hstays =>
      exact ⟨h.parked, fun _ => h.serving (hterminal ▸ rfl)⟩
  | crash | quit => exact ⟨h.parked, fun hterminal => absurd hterminal Bool.false_ne_true⟩
  | take | analyze | finish | workerChanged | workerBorrow | workerRebuild | publish =>
      exact ⟨h.parked, h.serving⟩

theorem sound_init (fromStr : String → Option RuleSet) (fs : FileSystem) (cfg : Config)
    (slowPath : SlowPath) (st : term.State) :
    (init fromStr fs cfg slowPath st : Dataflow glob term).Sound :=
  ⟨fun hparked => Bool.noConfusion hparked, fun _ hstopped => by cases hstopped⟩

/-- The way from the source to the pipeline. -/
theorem fifo_upstream : Fifo (DataflowStep fromStr) (@Sound glob term)
    upstream emitted arrived (fun s => s.pipeline ≠ .stopped) where
  inv _ _ _ h hst := h.step hst
  conserve t a u h hst hopen := by
    unfold upstream
    cases hst with
    | emit ev hsource =>
        simp only [hsource, SourceAt.inHand, emitted, arrived, List.append_nil, List.nil_append]
    | enter ev hsource hopen hroom =>
        simp only [hsource, SourceAt.inHand, emitted, arrived, Channel.queue_push, List.append_nil,
          List.nil_append]
    | sourceHangUp ev hsource hclosed =>
        -- Only a receiver that is parked is gone here, and then the source has ended.
        have hparked : t.listening = false := by
          cases hlistening : t.listening with
          | false => rfl
          | true => exact absurd ⟨hlistening, hopen⟩ hclosed
        have hended := (h.parked hparked).1
        rw [hsource] at hended
        cases hended
    | sourceEnd hsource =>
        simp only [hsource, SourceAt.inHand, emitted, arrived, List.append_nil, List.nil_append]
    | receive ev rest hphase hlistening hqueue =>
        simp only [hqueue, emitted, arrived, Channel.queue_rest, List.tail_cons, List.append_nil,
          List.cons_append, List.nil_append]
    | _ => exact List.append_nil _
  stays t a u hst hopen := by
    cases hst with
    | receive _ _ hphase | forward _ hphase | drop _ hphase | deliver _ hphase | changed hphase
    | borrow hphase | rebuild _ _ _ hphase =>
        rw [hphase]
        exact PipelineTaskAt.noConfusion
    | hangUp => exact absurd rfl hopen
    | _ => exact hopen
  closed t a u hst hclosed := by
    cases hst with
    | receive => exact absurd (PipelineTaskAt.withEvent_ne_stopped _ _) hclosed
    | _ => rfl

/-- The way from the filters to the terminal. -/
theorem fifo_downstream : Fifo (DataflowStep fromStr) (@Sound glob term)
    downstream recorded presented (fun s => s.terminal.isSome) where
  inv _ _ _ h hst := h.step hst
  conserve t a u h hst hopen := by
    unfold downstream
    cases hst with
    | receive ev rest hphase hlistening hqueue =>
        rw [hphase, ← PipelineTaskAt.inHand_withEvent]
        simp only [PipelineTaskAt.inHand, presented, List.append_nil, List.nil_append]
    | forward copy hphase htakes | drop copy hphase hfull =>
        simp only [hphase, PipelineTaskAt.inHand, recorded, presented, List.append_nil,
          List.nil_append]
    | deliver ev hphase hroom hterminal =>
        simp only [hphase, PipelineTaskAt.inHand, recorded, presented, Channel.queue_push,
          List.append_nil, List.nil_append]
    | hangUp ev hphase hgone =>
        dsimp only at hopen
        rw [hgone] at hopen
        exact absurd hopen Bool.false_ne_true
    | changed hphase hunseen | borrow hphase | rebuild version cfg fs hphase =>
        simp only [hphase, PipelineTaskAt.inHand, recorded, presented, List.append_nil,
          List.nil_append]
    | present ev rest st st' hterminal hqueue hpush =>
        simp only [hqueue, recorded, presented, Channel.queue_rest, List.tail_cons,
          List.append_nil, List.cons_append, List.nil_append]
    | crash | quit => exact absurd hopen Bool.false_ne_true
    | _ => exact List.append_nil _
  stays t a u hst hopen := by
    cases hst with
    | present ev rest st st' hterminal hqueue hpush => rw [hterminal]; rfl
    | turn st st' hterminal hturn hstays => rw [hterminal]; rfl
    | crash | quit => exact absurd hopen Bool.false_ne_true
    | _ => exact hopen
  closed t a u hst hclosed := by
    cases hst with
    | present => exact absurd rfl hclosed
    | _ => rfl

/-! ### Runs -/

section Runs

variable {fs : FileSystem} {cfg : Config} {slowPath : SlowPath} {st : term.State}
  {acts : List DataflowAction}

theorem sound_of_run
    (hrun : Run (DataflowStep fromStr) (init fromStr fs cfg slowPath st : Dataflow glob term) acts s) :
    s.Sound :=
  hrun.invariant (I := fun _ s => s.Sound) (sound_init fromStr fs cfg slowPath st)
    (fun _ _ _ _ _ h hst => h.step hst)

/-- The events of a run are numbered in the order in which they are received, and what
    is recorded of them has their numbers. -/
structure Counted (acts : List DataflowAction) (s : Dataflow glob term) : Prop where
  arrivals : (acts.flatMap arrived).length = s.received
  verdicts : (acts.flatMap verdict).length = s.received
  numbers : acts.flatMap recorded = numbered (acts.flatMap verdict)

/-- A step that receives nothing. -/
theorem Counted.quiet (h : Counted acts s) (harrived : a.arrived = []) (hverdict : a.verdict = [])
    (hrecorded : a.recorded = []) (hreceived : t.received = s.received) :
    Counted (acts ++ [a]) t := by
  refine ⟨?_, ?_, ?_⟩
  · rw [List.flatMap_append, List.flatMap_singleton, harrived, List.append_nil, hreceived]
    exact h.arrivals
  · rw [List.flatMap_append, List.flatMap_singleton, hverdict, List.append_nil, hreceived]
    exact h.verdicts
  · rw [List.flatMap_append, List.flatMap_append, List.flatMap_singleton, List.flatMap_singleton,
      hrecorded, hverdict, List.append_nil, List.append_nil]
    exact h.numbers

theorem Counted.step (h : Counted acts s) (hst : DataflowStep fromStr s a t) :
    Counted (acts ++ [a]) t := by
  cases hst with
  | receive ev rest hphase hlistening hqueue =>
      refine ⟨?_, ?_, ?_⟩
      · rw [List.flatMap_append, List.flatMap_singleton, List.length_append, h.arrivals]
        rfl
      · rw [List.flatMap_append, List.flatMap_singleton, List.length_append, h.verdicts]
        rfl
      · rw [List.flatMap_append, List.flatMap_append, List.flatMap_singleton,
          List.flatMap_singleton, h.numbers]
        refine Eq.trans ?_ (numbered_append_singleton _ _).symm
        rw [h.verdicts]
        cases pipelineEvent glob s.scopeFilter s.fastPath ev with
        | none => rfl
        | some ev' => rfl
  | _ => exact h.quiet rfl rfl rfl rfl

theorem counted_of_run
    (hrun : Run (DataflowStep fromStr) (init fromStr fs cfg slowPath st : Dataflow glob term) acts s) :
    Counted acts s :=
  hrun.invariant ⟨rfl, rfl, rfl⟩ (fun _ _ _ _ _ h hst => h.step hst)

theorem upstream_of_run
    (hrun : Run (DataflowStep fromStr) (init fromStr fs cfg slowPath st : Dataflow glob term) acts s)
    (hopen : s.pipeline ≠ .stopped) :
    acts.flatMap emitted = acts.flatMap arrived ++ s.upstream :=
  fifo_upstream.conserved (@sound_init glob term fromStr fs cfg slowPath st) hrun hopen

theorem downstream_of_run
    (hrun : Run (DataflowStep fromStr) (init fromStr fs cfg slowPath st : Dataflow glob term) acts s)
    (hopen : s.terminal.isSome) :
    numbered (acts.flatMap verdict) = acts.flatMap presented ++ s.downstream := by
  rw [← (counted_of_run hrun).numbers]
  exact fifo_downstream.conserved (@sound_init glob term fromStr fs cfg slowPath st) hrun hopen

/-- The pipeline receives the emitted events in their order and passes on those that
    are in scope, and the terminal is shown these in their order. Nothing is missing but
    what is still on its way, as long as there is somebody to receive it. -/
theorem passage_of_run
    (hrun : Run (DataflowStep fromStr) (init fromStr fs cfg slowPath st : Dataflow glob term) acts s) :
    acts.flatMap arrived <+: acts.flatMap emitted ∧
      (acts.flatMap verdict).length = (acts.flatMap arrived).length ∧
      acts.flatMap presented <+: numbered (acts.flatMap verdict) ∧
      (s.pipeline ≠ .stopped →
        acts.flatMap emitted = acts.flatMap arrived ++ s.upstream) ∧
      (s.terminal.isSome →
        numbered (acts.flatMap verdict) = acts.flatMap presented ++ s.downstream) := by
  have hsound := @sound_init glob term fromStr fs cfg slowPath st
  have hcount := counted_of_run hrun
  refine ⟨fifo_upstream.prefix_of_run hsound hrun, hcount.verdicts.trans hcount.arrivals.symm, ?_,
    upstream_of_run hrun, downstream_of_run hrun⟩
  rw [← hcount.numbers]
  exact fifo_downstream.prefix_of_run hsound hrun

end Runs

end Dataflow

/-! ### An event -/

/-- A configuration that monitors everything and decides nothing. -/
def passAll : Config where
  scope := ⟨[], [], [], [], []⟩
  fastPath := { FastPathConfig.shipped with enabled := false }
  slowPath := ⟨true, 60, 0.85, .qdrant⟩
  aiAdvisor := .default

theorem DataflowStep.receive_of {glob : GlobCrate} {term : Terminal}
    {fromStr : String → Option RuleSet} {s : Dataflow glob term} {ev : NormalizedEvent}
    {rest : List NormalizedEvent} {verdict : Option NormalizedEvent}
    (hphase : s.pipeline = .selecting) (hlistening : s.listening = true)
    (hqueue : s.raw.queue = ev :: rest)
    (hverdict : pipelineEvent glob s.scopeFilter s.fastPath ev = verdict) :
    DataflowStep fromStr s (.receive s.received ev s.built verdict)
      { s with
        raw := s.raw.rest
        received := s.received + 1
        pipeline := .withEvent s.received verdict } :=
  hverdict ▸ .receive ev rest hphase hlistening hqueue

/-- The daemon with a terminal, monitoring everything. -/
def openDaemon (term : Terminal) (st : term.State) : Dataflow GlobCrate.literal term :=
  Dataflow.init (fun _ => none) (fun _ => none) passAll lonelySlowPath st

/-- The steps of an event that is let through as it is and shown. -/
def shown (ev : NormalizedEvent) : List DataflowAction :=
  [.emit ev, .enter, .receive 0 ev 0 (some ev), .forward (0, ev), .deliver, .present (0, ev)]

theorem exists_run_shown (term : Terminal) (st st' : term.State) (ev : NormalizedEvent)
    (hverdict : pipelineEvent GlobCrate.literal (ScopeFilter.new GlobCrate.literal passAll.scope)
      (FastPath.new (fun _ => none) (fun _ => none) passAll.fastPath) ev = some ev)
    (hpush : term.push st ev = some st') :
    ∃ s, Run (DataflowStep (fun _ => none)) (openDaemon term st) (shown ev) s ∧
      s.terminal = some st' ∧ s.pipeline = .selecting ∧ s.slow.queue = [(0, ev)] := by
  have hrun : Run (DataflowStep (fun _ => none)) (openDaemon term st) [] _ := .nil
  have hrun := hrun.snoc (.emit ev rfl)
  have hrun := hrun.snoc (.enter _ rfl ⟨rfl, PipelineTaskAt.noConfusion⟩
    (Channel.hasRoom_of_empty (by decide) rfl))
  have hrun := hrun.snoc (.receive_of rfl rfl rfl hverdict)
  have hrun := hrun.snoc (.forward (0, ev) rfl
    ⟨Channel.hasRoom_of_empty (by decide) rfl, SlowWorkerAt.noConfusion⟩)
  have hrun := hrun.snoc (.deliver _ rfl (Channel.hasRoom_of_empty (by decide) rfl) rfl)
  have hrun := hrun.snoc (.present _ [] st st' rfl rfl hpush)
  exact ⟨_, hrun, rfl, rfl, rfl⟩

/-- The daemon without an interface, monitoring everything. -/
def quietDaemon : Dataflow GlobCrate.literal .headless := openDaemon .headless ()

/-- An `ls` on its way through the daemon. -/
def shownLs : List DataflowAction := shown (.plainExec "ls")

theorem exists_run_shownLs :
    ∃ s, Run (DataflowStep (fun _ => none)) quietDaemon shownLs s ∧ s.terminal = some () ∧
      s.pipeline = .selecting ∧ s.slow.queue = [(0, .plainExec "ls")] :=
  exists_run_shown .headless () () (.plainExec "ls") (by decide) rfl

/-- All that is recorded of the `ls` has been shown, or is on its way. -/
theorem shownLs_passes :
    ∃ s, Run (DataflowStep (fun _ => none)) quietDaemon shownLs s ∧
      [(0, .plainExec "ls")] = [(0, .plainExec "ls")] ++ s.downstream := by
  rcases exists_run_shownLs with ⟨s, hrun, hterminal, _⟩
  refine ⟨s, hrun, ?_⟩
  exact (Dataflow.passage_of_run hrun).2.2.2.2 (by rw [hterminal]; rfl)

end VectorGuard
