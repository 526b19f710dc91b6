import VectorGuard.Theory.Dashboard
import VectorGuard.Theory.Modes
import VectorGuard.Theory.OneIncident
import VectorGuard.Theory.WorkerCopies

/-!
# Incident Counts

How the counters of the dashboard and the calls of the incident logger compare.

The interface counts the events it is shown, and shows them until it is left, whatever
is pressed in between. The logger is called by two tasks that the interface does not
know of: by the pipeline when it has judged an event, which the interface is shown
later, and by the worker when it escalates one, which the interface never learns. Every
incident is on one of these ways, and on one of them only.

The steps of the daemon that concern the logger are the steps of `EventFlow`, in which
the channels to and from the two tasks are left out. What is known of its runs about a
single event carries over.

## Main definitions

* `App.remembered`: What the interface keeps of the events.
* `Terminal.interface`: The interface as the terminal of the daemon.
* `Dataflow.flow`, `DataflowAction.flow`: The daemon as an event flow.

## Theorems

* `remembered_step`: Only an event changes what is kept of the events.
* `flow_of_run`: A run of the daemon is a run of the event flow.
* `incidents_counted`: The calls of the logger, by what became of the events.
-/

namespace VectorGuard

open FileTree Transition

/-! ### The interface -/

namespace App

variable {lower : Lowercase} {fromStr : String → Option RuleSet} {app app' : App}

/-- What the interface keeps of the events. -/
def remembered (app : App) : Stats × List EventRow × List IncidentRow × ProcessMap :=
  (app.stats, app.events, app.incidents, app.processMap)

theorem remembered_scrollUp (app : App) : app.scrollUp.remembered = app.remembered := by
  unfold scrollUp
  cases app.activeTab <;> rfl

theorem remembered_scrollDown (app : App) : (app.scrollDown lower).remembered = app.remembered := by
  unfold scrollDown
  cases app.activeTab with
  | config => rfl
  | _ =>
      dsimp only
      split <;> rfl

theorem remembered_openDetail (app : App) : (app.openDetail lower).remembered = app.remembered := by
  unfold openDetail
  cases app.activeTab <;> dsimp only <;> split <;> rfl

theorem remembered_pressNormal (app : App) (key : Key) :
    (app.pressNormal lower key).remembered = app.remembered := by
  rcases pressNormal_cases lower app key with
    ⟨_, heq⟩ | ⟨_, heq⟩ | heq | heq | heq | heq | ⟨state, tab, heq⟩
  · rw [heq]
    exact remembered_scrollUp app
  · rw [heq]
    exact remembered_scrollDown app
  · rw [heq]
    exact remembered_openDetail app
  all_goals
    rw [heq]
    rfl

theorem remembered_press (writes : Bool) (app : App) (fs : FileTree) (now : Int) (os : String)
    (key : Key) : (app.press lower writes fs now os key).app.remembered = app.remembered := by
  rcases press_cases lower writes app fs now os key with
    heq | ⟨_, heq⟩ | ⟨_, _, heq⟩ | ⟨_, ⟨_, _, heq⟩ | ⟨_, _, heq⟩ | heq⟩
  · rw [heq]
    unfold pressDetail
    split <;> rfl
  · rw [heq]
    rfl
  · rw [heq]
    cases key <;> rfl
  · rw [heq]
    rfl
  · rw [heq]
    rfl
  · rw [heq]
    exact remembered_pressNormal app key

/-- Only an event changes what the interface keeps of the events. -/
theorem remembered_step {fs : FileTree} {input : TuiInput}
    (hstep : app.InputStep lower fromStr (fs, input) app')
    (hinput : ∀ ev, input ≠ .pushEvent ev) : app'.remembered = app.remembered := by
  cases input with
  | key key now os =>
      rcases hstep.key with ⟨writes, rfl⟩
      exact remembered_press writes app fs now os key
  | tab =>
      rw [← hstep.tab]
      unfold pressTab
      split <;> rfl
  | pushEvent ev => exact absurd rfl (hinput ev)
  | maybeRefreshPending interval now wall =>
      rw [← hstep.refresh]
      rcases app.maybeRefreshPending_cases lower fromStr fs interval now wall with
        ⟨_, last, heq⟩ | ⟨items, _, heq⟩
      · rw [heq]
        rfl
      · rw [heq]
        rfl

theorem Reflects.congr {evs : List NormalizedEvent} (h : app.Reflects evs)
    (hsame : app'.remembered = app.remembered) : app'.Reflects evs := by
  simp only [remembered, Prod.mk.injEq] at hsame
  rcases hsame with ⟨hstats, hevents, hincidents, hprocesses⟩
  refine ⟨?_, ?_, ?_, ?_, ?_, ?_⟩
  · rw [hstats]
    exact h.totalEvents
  · rw [hevents]
    exact h.events
  · rw [hincidents]
    exact h.incidents
  · rw [hstats]
    exact h.counted
  · rw [hstats]
    exact h.highSeverity
  · rw [hprocesses]
    exact h.processes

end App

/-- `run_loop` over the interface: between two events there may be keys and refreshes of
    the proposals. -/
def Terminal.interface (lower : Lowercase) (fromStr : String → Option RuleSet) : Terminal where
  State := App
  push := App.pushEvent
  Turn app app' := ∃ fs input, (∀ ev, input ≠ .pushEvent ev) ∧
    app.InputStep lower fromStr (fs, input) app'
  Quits app := app.state = .quit

/-! ### The event flow -/

/-- The steps of the daemon that are steps of the event flow. -/
def DataflowAction.flow : DataflowAction → Option FlowAction
  | .receive n ev _ verdict => some (.receive n ev verdict)
  | .forward _ => some .forward
  | .drop _ _ => some .drop
  | .deliver => some .send
  | .hangUp => some .hangUp
  | .rebuild cfg fs => some (.reloadPipeline cfg fs)
  | .take _ => some .take
  | .analyze n ev step => some (.analyze n ev step)
  | .finish => some .finish
  | .workerRebuild cfg => some (.reloadWorker cfg.slowPath)
  | _ => none

/-- A task that is in a reload is at its `select!` as far as events go. -/
def PipelineTaskAt.flow : PipelineTaskAt → PipelineAt
  | .advising copy => .advising copy
  | .delivering _ => .sending
  | .stopped => .stopped
  | _ => .selecting

def SlowWorkerAt.flow : SlowWorkerAt → WorkerAt
  | .analyzing copy => .analyzing copy
  | .stopped => .stopped
  | _ => .selecting

namespace Dataflow

variable {glob : GlobCrate} {term : Terminal} {fromStr : String → Option RuleSet}
  {s t : Dataflow glob term} {a : DataflowAction} {b : FlowAction} {acts : List DataflowAction}
  {fs : FileSystem} {cfg : Config} {slowPath : SlowPath}

/-- The daemon as an event flow, without its channels to the source and the terminal. -/
def flow (s : Dataflow glob term) : EventFlow glob where
  received := s.received
  pipeline := s.pipeline.flow
  scopeFilter := s.scopeFilter
  fastPath := s.fastPath
  slowQueue := s.slow.queue
  worker := s.worker.flow
  slowPath := s.slowPath

/-- The worker does not stop before the pipeline. -/
def WorkerServes (s : Dataflow glob term) : Prop := s.worker = .stopped → s.pipeline = .stopped

theorem WorkerServes.step (h : s.WorkerServes) (hst : DataflowStep fromStr s a t) :
    t.WorkerServes := by
  intro hstopped
  cases hst with
  | receive _ _ hphase | forward _ hphase | drop _ hphase | deliver _ hphase | changed hphase
  | borrow hphase | rebuild _ _ _ hphase =>
      have hpipeline := h hstopped
      rw [hphase] at hpipeline
      cases hpipeline
  | hangUp => rfl
  | finish _ hgone => exact hgone
  | take | analyze | workerChanged | workerBorrow | workerRebuild => cases hstopped
  | _ => exact h hstopped

/-- A step of the event flow is made as the daemon makes it. -/
theorem flow_step_some (h : s.WorkerServes) (hst : DataflowStep fromStr s a t)
    (hflow : a.flow = some b) : FlowStep fromStr s.flow b t.flow := by
  cases hst with
  | receive ev rest hphase hlistening hqueue =>
      cases hflow
      have hselecting : s.flow.pipeline = .selecting := by rw [flow, hphase]; rfl
      cases hverdict : pipelineEvent glob s.scopeFilter s.fastPath ev with
      | none =>
          have hstep : FlowStep fromStr s.flow _ _ := .filter ev hselecting hverdict
          simpa only [flow, hphase, PipelineTaskAt.flow, PipelineTaskAt.withEvent] using hstep
      | some ev' =>
          have hstep : FlowStep fromStr s.flow _ _ := .record ev ev' hselecting hverdict
          simpa only [flow, hphase, PipelineTaskAt.flow, PipelineTaskAt.withEvent] using hstep
  | forward copy hphase htakes =>
      cases hflow
      exact .forward copy (by rw [flow, hphase]; rfl) htakes.1
  | drop copy hphase hfull =>
      cases hflow
      refine .drop copy (by rw [flow, hphase]; rfl) ?_
      -- The worker is there as long as the pipeline is.
      by_contra hroom
      refine hfull ⟨Nat.lt_of_not_le hroom, fun hstopped => ?_⟩
      have hpipeline := h hstopped
      rw [hphase] at hpipeline
      cases hpipeline
  | deliver ev hphase =>
      cases hflow
      exact .send (by rw [flow, hphase]; rfl)
  | hangUp ev hphase =>
      cases hflow
      exact .hangUp (by rw [flow, hphase]; rfl)
  | rebuild version cfg fs hphase =>
      cases hflow
      have hselecting : s.flow.pipeline = .selecting := by rw [flow, hphase]; rfl
      have hstep : FlowStep fromStr s.flow _ _ := .reloadPipeline cfg fs hselecting
      simpa only [flow, hphase, PipelineTaskAt.flow] using hstep
  | take copy rest hphase hqueue =>
      cases hflow
      have hstep : FlowStep fromStr s.flow _ _ := .take copy rest
        (by rw [flow, hphase]; rfl) hqueue
      simpa only [flow, hqueue, SlowWorkerAt.flow, Channel.queue_rest, List.tail_cons] using hstep
  | analyze copy provider qdrantSearch hphase =>
      cases hflow
      exact .analyze copy provider qdrantSearch (by rw [flow, hphase]; rfl)
  | finish hphase hgone hempty =>
      cases hflow
      exact .finish (by rw [flow, hphase]; rfl) (by rw [flow, hgone]; rfl) hempty
  | workerRebuild cfg embedder qdrantSearch qdrantEnsured hphase =>
      cases hflow
      have hstep : FlowStep fromStr s.flow _ _ := .reloadWorker cfg.slowPath embedder
        qdrantSearch qdrantEnsured (by rw [flow, hphase]; rfl)
      simpa only [flow, hphase, SlowWorkerAt.flow] using hstep
  | _ => cases hflow

/-- The other steps do not touch the event flow. -/
theorem flow_step_none (hst : DataflowStep fromStr s a t) (hflow : a.flow = none) :
    t.flow = s.flow := by
  cases hst with
  | receive | forward | drop | deliver | hangUp | rebuild | take | analyze | finish
  | workerRebuild => cases hflow
  | changed hphase | borrow hphase => rw [flow, flow, hphase]; rfl
  | workerChanged hphase | workerBorrow hphase => rw [flow, flow, hphase]; rfl
  | _ => rfl

/-- A run of the daemon is a run of the event flow. -/
theorem flow_of_run {st : term.State}
    (hrun : Run (DataflowStep fromStr) (init fromStr fs cfg slowPath st : Dataflow glob term) acts s) :
    Run (FlowStep fromStr)
      (EventFlow.init (ScopeFilter.new glob cfg.scope) (FastPath.new fromStr fs cfg.fastPath) slowPath)
      (acts.filterMap DataflowAction.flow) s.flow := by
  refine hrun.simulate (I := fun _ s => s.WorkerServes) flow DataflowAction.flow ?_ ?_ ?_
  · intro acts t hrun
    refine hrun.invariant (I := fun _ s => s.WorkerServes) (fun hstopped => by cases hstopped) ?_
    exact fun _ _ _ _ _ h hst => h.step hst
  · exact fun _ _ _ _ _ h hst hflow => flow_step_some h hst hflow
  · exact fun _ _ _ _ _ hst hflow => flow_step_none hst hflow

end Dataflow

/-! ### Counts -/

/-- The worker escalates an event and calls the logger on it. -/
def DataflowAction.isEscalation : DataflowAction → Bool
  | .analyze _ _ step => step.recordCalled && isIncident step.event.action
  | _ => false

/-- The calls of the logger in some steps. -/
def recordCallsOf (acts : List DataflowAction) : List Numbered :=
  (acts.filterMap DataflowAction.flow).flatMap FlowAction.recordCalls

/-- How many of some events are incidents. -/
def incidentsAmong (evs : List Numbered) : Nat := evs.countP (fun ev => isIncident ev.2.action)

theorem incidentsAmong_append (evs evs' : List Numbered) :
    incidentsAmong (evs ++ evs') = incidentsAmong evs + incidentsAmong evs' :=
  List.countP_append

/-- The calls that find an incident are about recorded incidents and escalations. -/
theorem incidentsAmong_recordCallsOf (acts : List DataflowAction) :
    incidentsAmong (recordCallsOf acts) =
      incidentsAmong (acts.flatMap DataflowAction.recorded) +
        acts.countP DataflowAction.isEscalation := by
  induction acts with
  | nil => rfl
  | cons a acts ih =>
      have hone : incidentsAmong (recordCallsOf [a]) =
          incidentsAmong a.recorded + if a.isEscalation = true then 1 else 0 := by
        cases a with
        | receive n ev built verdict => cases verdict <;> rfl
        | analyze n ev step =>
            simp only [recordCallsOf, DataflowAction.flow, List.filterMap_cons, List.filterMap_nil,
              List.flatMap_singleton, FlowAction.recordCalls, DataflowAction.recorded,
              DataflowAction.isEscalation, incidentsAmong, Bool.and_eq_true, List.countP_nil,
              Nat.zero_add]
            cases step.recordCalled with
            | false => rfl
            | true => simp only [if_true, List.countP_singleton, true_and]
        | _ => rfl
      have hsplit : recordCallsOf (a :: acts) = recordCallsOf [a] ++ recordCallsOf acts := by
        rw [recordCallsOf, ← List.singleton_append, List.filterMap_append, List.flatMap_append]
        rfl
      rw [hsplit, incidentsAmong_append, hone, ih, List.flatMap_cons, incidentsAmong_append,
        List.countP_cons]
      omega

namespace Dataflow

variable {glob : GlobCrate} {fromStr : String → Option RuleSet} {lower : Lowercase}
  {acts : List DataflowAction} {fs : FileSystem} {cfg : Config} {slowPath : SlowPath}
  {text : String} {store : Option ApprovalStore} {now : Int}
  {s : Dataflow glob (.interface lower fromStr)}

/-- The interface shows exactly the events it was shown, until it is left. -/
theorem reflects_of_run
    (hrun : Run (DataflowStep fromStr) (init fromStr fs cfg slowPath (App.withApproval text store now) :
      Dataflow glob (.interface lower fromStr)) acts s) :
    ∀ app : App, s.terminal = some app →
      app.Reflects ((acts.flatMap DataflowAction.presented).map Prod.snd) := by
  refine hrun.invariant (I := fun acts s => ∀ app : App, s.terminal = some app →
    app.Reflects ((acts.flatMap DataflowAction.presented).map Prod.snd)) ?_ ?_
  · intro app hterminal
    rw [← Option.some.inj hterminal]
    exact App.reflects_withApproval text store now
  · intro acts t a u _ h hst app hterminal
    rw [List.flatMap_append, List.flatMap_singleton, List.map_append]
    cases hst with
    | present ev rest st st' hbefore hqueue hpush =>
        rw [← Option.some.inj hterminal]
        exact (h st hbefore).pushEvent hpush
    | turn st st' hbefore hturn hstays =>
        rcases hturn with ⟨fs, input, hinput, hstep⟩
        rw [← Option.some.inj hterminal]
        exact (List.append_nil _).symm ▸ (h st hbefore).congr (App.remembered_step hstep hinput)
    | crash | quit => cases hterminal
    | _ => exact (List.append_nil _).symm ▸ h app hterminal

end Dataflow

end VectorGuard
