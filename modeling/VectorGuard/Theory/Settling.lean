import VectorGuard.Theory.Generations

/-!
# Settling

That the events get through.

The source waits for the pipeline and the pipeline for the terminal, each in front of a
channel that may be full. The pipeline also stops for reloads, and offers copies to a
worker that may be stuck for ever. Two things could go wrong. The tasks could wait for
each other, and they could go round in circles without passing anything on.

They do not wait for each other, because the worker is never waited for, and whoever is
waited for has something to do: a full channel is not empty. And every hop of an event
and every stage of a reload brings them nearer to the end. What is left to do is
`Dataflow.load`, which the capacities bound.

## Main definitions

* `DataflowAction.isWork`, `DataflowAction.isFeed`: The steps that pass something on, and
  those that bring something new.
* `Dataflow.load`: What is left to do.

## Theorems

* `draining`: Work lowers the load, and only feed raises it.
* `settled_or_enabled`: There is work to do until everything is through.
* `settles_of_run`: Everything gets through, whatever the worker does.
-/

namespace VectorGuard

open Transition

namespace DataflowAction

/-- A step of the source, the pipeline or the terminal that passes something on. -/
def isWork : DataflowAction → Bool
  | .enter | .receive _ _ _ _ | .park | .forward _ | .drop _ _ | .deliver | .changed | .borrow
  | .rebuild _ _ | .present _ | .crash _ => true
  | _ => false

/-- A step that brings something new. -/
def isFeed : DataflowAction → Bool
  | .emit _ | .publish _ => true
  | _ => false

end DataflowAction

open DataflowAction

/-- The hops an event has before it, and the stages of a reload. -/
def PipelineTaskAt.load : PipelineTaskAt → Nat
  | .selecting => 0
  | .changed => 2
  | .rebuilding _ _ => 1
  | .advising _ => 3
  | .delivering _ => 2
  | .stopped => 0

def SourceAt.load : SourceAt → Nat
  | .sending _ => 5
  | _ => 0

theorem PipelineTaskAt.load_withEvent_le (n : Nat) (verdict : Option NormalizedEvent) :
    (PipelineTaskAt.withEvent n verdict).load ≤ 3 := by
  cases verdict with
  | none => exact Nat.zero_le 3
  | some ev => exact Nat.le_refl 3

namespace Dataflow

variable {glob : GlobCrate} {term : Terminal} {fromStr : String → Option RuleSet}
  {s t : Dataflow glob term} {a : DataflowAction} {acts : List DataflowAction}

/-- What the source, the pipeline and the terminal have left to do. -/
def load (s : Dataflow glob term) : Nat :=
  s.source.load + 4 * s.raw.queue.length + (if s.listening then 1 else 0) + s.pipeline.load +
    s.proc.queue.length + (if s.pipelineSeen = s.version then 0 else 3)

/-- The load is bounded by the capacities. -/
theorem load_le (s : Dataflow glob term) : s.load ≤ 20492 := by
  have hsource : s.source.load ≤ 5 := by
    cases s.source <;> simp only [SourceAt.load, Nat.zero_le, Nat.le_refl]
  have hpipeline : s.pipeline.load ≤ 3 := by
    cases s.pipeline <;> simp only [PipelineTaskAt.load, Nat.zero_le, Nat.le_refl, Nat.reduceLeDiff]
  have hraw := s.raw.fits
  have hproc := s.proc.fits
  unfold eventCapacity at hraw hproc
  unfold load
  split <;> split <;> omega

theorem load_lt_of_work (hst : DataflowStep fromStr s a t) (hwork : a.isWork = true) :
    t.load < s.load := by
  unfold load
  cases hst with
  | enter ev hsource hopen hroom =>
      simp only [hsource, SourceAt.load, Channel.queue_push, List.length_append,
        List.length_singleton]
      omega
  | receive ev rest hphase hlistening hqueue =>
      have hle := PipelineTaskAt.load_withEvent_le s.received
        (pipelineEvent glob s.scopeFilter s.fastPath ev)
      have hidle : s.pipeline.load = 0 := by rw [hphase]; rfl
      simp only [hqueue, hidle, Channel.queue_rest, List.tail_cons, List.length_cons]
      omega
  | park hphase hlistening hempty hended =>
      simp only [hlistening, if_true, Bool.false_eq_true, if_false]
      omega
  | forward _ hphase | drop _ hphase | borrow hphase | rebuild _ _ _ hphase =>
      simp only [hphase, PipelineTaskAt.load]
      omega
  | deliver ev hphase hroom hterminal =>
      simp only [hphase, PipelineTaskAt.load, Channel.queue_push, List.length_append,
        List.length_singleton]
      omega
  | changed hphase hunseen =>
      simp only [hphase, PipelineTaskAt.load, if_true, if_neg hunseen]
      omega
  | present ev rest st st' hterminal hqueue hpush | crash ev rest st hterminal hqueue hpush =>
      simp only [hqueue, Channel.queue_rest, List.tail_cons, List.length_cons]
      omega
  | _ => exact absurd hwork Bool.false_ne_true

theorem load_le_of_rest (hst : DataflowStep fromStr s a t) (hfeed : ¬ a.isFeed = true) :
    t.load ≤ s.load := by
  by_cases hwork : a.isWork = true
  · exact Nat.le_of_lt (load_lt_of_work hst hwork)
  · unfold load
    cases hst with
    | sourceHangUp ev hsource hclosed =>
        simp only [hsource, SourceAt.load]
        omega
    | sourceEnd hsource =>
        simp only [hsource, SourceAt.load]
        omega
    | hangUp ev hphase hgone =>
        simp only [hphase, PipelineTaskAt.load]
        omega
    | emit | publish => exact absurd rfl hfeed
    | enter | receive | park | forward | drop | deliver | changed | borrow | rebuild | present
    | crash => exact absurd rfl hwork
    | _ => exact Nat.le_refl _

theorem draining : Draining (DataflowStep fromStr) (@Sound glob term)
    (fun a => a.isWork = true) (fun a => a.isFeed = true) load where
  inv _ _ _ h hst := h.step hst
  work _ _ _ _ hst hwork := load_lt_of_work hst hwork
  rest _ _ _ _ hst hfeed := load_le_of_rest hst hfeed

/-! ### Work -/

/-- Nothing is on its way, and there is no reload to be made. -/
structure Settled (s : Dataflow glob term) : Prop where
  upstream : s.upstream = []
  downstream : s.downstream = []
  idle : s.pipeline.reload = none
  seen : s.pipelineSeen = s.version

/-- The step of the terminal with an event in front of it. -/
theorem enabled_of_proc {ev : Numbered} {rest : List Numbered} {st : term.State}
    (hterminal : s.terminal = some st) (hqueue : s.proc.queue = ev :: rest) :
    ∃ a t, a.isWork = true ∧ DataflowStep fromStr s a t := by
  cases hpush : term.push st ev.2 with
  | none => exact ⟨_, _, rfl, .crash ev rest st hterminal hqueue hpush⟩
  | some st' => exact ⟨_, _, rfl, .present ev rest st st' hterminal hqueue hpush⟩

/-- A source that waits, or has left something behind, is listened to. -/
theorem Sound.listening (h : s.Sound) (hmore : s.upstream ≠ []) : s.listening = true := by
  cases hlistening : s.listening with
  | true => rfl
  | false =>
      rcases h.parked hlistening with ⟨hended, hempty⟩
      refine absurd ?_ hmore
      rw [upstream, hended, hempty]
      rfl

/-- A pipeline at its `select!` with an event on its way to it. -/
theorem enabled_of_upstream (h : s.Sound) (hphase : s.pipeline = .selecting)
    (hmore : s.upstream ≠ []) : ∃ a t, a.isWork = true ∧ DataflowStep fromStr s a t := by
  have hlistening := h.listening hmore
  cases hraw : s.raw.queue with
  | cons ev rest => exact ⟨_, _, rfl, .receive ev rest hphase hlistening hraw⟩
  | nil =>
      have hroom := Channel.hasRoom_of_empty (by decide) hraw
      cases hsource : s.source with
      | sending ev =>
          exact ⟨_, _, rfl, .enter ev hsource ⟨hlistening, hphase ▸ PipelineTaskAt.noConfusion⟩ hroom⟩
      | reading | ended =>
          refine absurd ?_ hmore
          rw [upstream, hraw, hsource]
          rfl

variable (fromStr) in
/-- While the terminal is there, everything is through or somebody has something to do. -/
theorem settled_or_enabled (h : s.Sound) (hterminal : s.terminal.isSome) :
    s.Settled ∨ ∃ a t, a.isWork = true ∧ DataflowStep fromStr s a t := by
  rcases Option.isSome_iff_exists.mp hterminal with ⟨st, hst⟩
  cases hproc : s.proc.queue with
  | cons ev rest => exact .inr (enabled_of_proc hst hproc)
  | nil =>
      have hroom := Channel.hasRoom_of_empty (by decide) hproc
      cases hphase : s.pipeline with
      | stopped => exact absurd hphase (h.serving hterminal)
      | changed => exact .inr ⟨_, _, rfl, .borrow hphase⟩
      | rebuilding version cfg =>
          exact .inr ⟨_, _, rfl, .rebuild version cfg (fun _ => none) hphase⟩
      | delivering ev => exact .inr ⟨_, _, rfl, .deliver ev hphase hroom hterminal⟩
      | advising ev =>
          -- The worker is never waited for.
          by_cases htakes : s.TakesCopy
          · exact .inr ⟨_, _, rfl, .forward ev hphase htakes⟩
          · exact .inr ⟨_, _, rfl, .drop ev hphase htakes⟩
      | selecting =>
          by_cases hseen : s.pipelineSeen = s.version
          · by_cases hmore : s.upstream = []
            · refine .inl ⟨hmore, ?_, ?_, hseen⟩
              · rw [downstream, hproc, hphase]
                rfl
              · rw [hphase]
                rfl
            · exact .inr (enabled_of_upstream h hphase hmore)
          · exact .inr ⟨_, _, rfl, .changed hphase hseen⟩

/-! ### Runs -/

section Runs

variable {fs : FileSystem} {cfg : Config} {slowPath : SlowPath} {st : term.State}

/-- Everything that was emitted has been received, everything in scope has been shown,
    and the filters are those of the last configuration. -/
structure AllThrough (fromStr : String → Option RuleSet) (acts : List DataflowAction)
    (s : Dataflow glob term) : Prop where
  received : acts.flatMap arrived = acts.flatMap emitted
  shown : acts.flatMap presented = numbered (acts.flatMap verdict)
  filters : ∃ fs, s.scopeFilter = ScopeFilter.new glob s.published.scope ∧
    s.fastPath = FastPath.new fromStr fs s.published.fastPath

theorem Settled.allThrough (h : s.Settled) (hterminal : s.terminal.isSome)
    (hrun : Run (DataflowStep fromStr) (init fromStr fs cfg slowPath st : Dataflow glob term) acts s) :
    AllThrough fromStr acts s := by
  have hup := upstream_of_run hrun ((sound_of_run hrun).serving hterminal)
  have hdown := downstream_of_run hrun hterminal
  rw [h.upstream, List.append_nil] at hup
  rw [h.downstream, List.append_nil] at hdown
  exact ⟨hup.symm, hdown.symm, newest_of_run hrun h.idle h.seen⟩

/-- In every state of a run in which the terminal is there, everything is through or there
    is a step that passes something on, and as long as nothing new comes there are no more
    such steps than the channels have room for, whatever the other tasks do. -/
theorem settles_of_run
    (hrun : Run (DataflowStep fromStr) (init fromStr fs cfg slowPath st : Dataflow glob term) acts s) :
    (s.terminal.isSome → AllThrough fromStr acts s ∨
        ∃ a t, a.isWork = true ∧ DataflowStep fromStr s a t) ∧
      ∀ more t, Run (DataflowStep fromStr) s more t → (∀ a ∈ more, a.isFeed = false) →
        more.countP isWork ≤ 20492 := by
  have hsound := sound_of_run hrun
  refine ⟨fun hterminal => ?_, fun more t hmore hfeed => ?_⟩
  · rcases settled_or_enabled fromStr hsound hterminal with hsettled | henabled
    · exact .inl (hsettled.allThrough hterminal hrun)
    · exact .inr henabled
  · have hle := draining.count_le hsound hmore
      (fun a ha => Bool.eq_false_iff.mp (hfeed a ha))
    have hsame : (fun a : DataflowAction => decide (a.isWork = true)) = isWork :=
      funext (fun _ => Bool.decide_eq_true)
    rw [hsame] at hle
    exact (Nat.le_of_add_right_le hle).trans s.load_le

end Runs

end Dataflow

/-- Behind the `ls` everything is through. -/
theorem shownLs_settles :
    ∃ s, Run (DataflowStep (fun _ => none)) quietDaemon shownLs s ∧
      (Dataflow.AllThrough (fun _ => none) shownLs s ∨
        ∃ a t, a.isWork = true ∧ DataflowStep (fun _ => none) s a t) := by
  rcases exists_run_shownLs with ⟨s, hrun, hterminal, _⟩
  exact ⟨s, hrun, (Dataflow.settles_of_run hrun).1 (by rw [hterminal]; rfl)⟩

end VectorGuard
