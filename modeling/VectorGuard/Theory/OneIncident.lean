import VectorGuard.Core.EventFlow
import VectorGuard.Lib.Transition
import VectorGuard.Theory.Escalation

/-!
# One Incident

How often an event is logged as an incident.

The two tasks call the incident logger without knowing of each other's calls. What
keeps them from logging an event twice is the action alone: the worker calls only
if the analysis changed the action, the analysis changes `allowed` to `alerted` and
nothing else, and `allowed` is no incident action, so the pipeline's call on the
same event, whenever it was, found none.

That argument is about one event. `Story` is what can happen to one event in the
course of a run, and `story_run` says that nothing else does, whatever the other
events and the reloads do in between.

## Main definitions

* `inFlight`: The copies the worker has not analysed yet.
* `Story`: The steps about one event and its copies in flight.
* `incidentCalls`: How many calls of the logger find an incident in an event.
* `IncidentDue`: The event is one to be logged.

## Theorems

* `analyze_action`: The analysis changes `allowed` to `alerted` or nothing.
* `story_run`: Every event of every run has a story.
* `oneIncident`: An event is logged at most once, and exactly if it is due.
-/

namespace VectorGuard

open Transition

/-- The event a step is about. -/
def FlowAction.number : FlowAction → Option Nat
  | .receive n _ _ => some n
  | .analyze n _ _ => some n
  | _ => none

/-- The steps of a run that are about an event. -/
def storyOf (acts : List FlowAction) (n : Nat) : List FlowAction :=
  acts.filter (fun a => decide (a.number = some n))

/-- The calls of the incident logger on an event and its copies that find an
    incident action. -/
def incidentCalls (acts : List FlowAction) (n : Nat) : Nat :=
  (acts.flatMap FlowAction.recordCalls).countP (fun c => decide (c.1 = n) && isIncident c.2.action)

/-- The event passed the scope filter, and either its action was an incident action
    then or the analysis of its copy made it one. -/
def IncidentDue (acts : List FlowAction) (n : Nat) : Prop :=
  ∃ ev ev', .receive n ev (some ev') ∈ acts ∧
    (isIncident ev'.action = true ∨
      ∃ step, .analyze n ev' step ∈ acts ∧ step.event.action ≠ ev'.action ∧
        step.event.action = .alerted)

/-- The copy the pipeline has in hand. -/
def PipelineAt.copies : PipelineAt → List Numbered
  | .advising copy => [copy]
  | _ => []

/-- The copy the worker has in hand. -/
def WorkerAt.copies : WorkerAt → List Numbered
  | .analyzing copy => [copy]
  | _ => []

/-- The copies on their way to the end of their analysis, the first to get there
    first. -/
def inFlight {glob : GlobCrate} (s : EventFlow glob) : List Numbered :=
  s.worker.copies ++ s.slowQueue ++ s.pipeline.copies

/-- The copies of one event. -/
def copiesOf (copies : List Numbered) (n : Nat) : List Numbered :=
  copies.filter (fun c => decide (c.1 = n))

/-- What the worker may make of a copy: it changes `allowed` to `alerted` and calls
    the logger, or changes nothing and does not. -/
def Verdict (ev : NormalizedEvent) (step : WorkerStep) : Prop :=
  (step.event.action = ev.action ∧ step.recordCalled = false) ∨
    (ev.action = .allowed ∧ step.event.action = .alerted ∧ step.recordCalled = true)

/-- What can have happened to an event: the steps about it so far, and its copies
    in flight. -/
inductive Story (n : Nat) : List FlowAction → List Numbered → Prop
  | unseen : Story n [] []
  | filtered (ev : NormalizedEvent) : Story n [.receive n ev none] []
  | forwarded (ev ev' : NormalizedEvent) : Story n [.receive n ev (some ev')] [(n, ev')]
  | dropped (ev ev' : NormalizedEvent) : Story n [.receive n ev (some ev')] []
  | analyzed (ev ev' : NormalizedEvent) (step : WorkerStep) (hverdict : Verdict ev' step) :
      Story n [.receive n ev (some ev'), .analyze n ev' step] []

theorem verdict_slowWorkerEvent (sp : SlowPath) (ev : NormalizedEvent) :
    Verdict ev (slowWorkerEvent sp ev) := by
  have hrecord : (slowWorkerEvent sp ev).recordCalled
      = decide ((slowWorkerEvent sp ev).event.action ≠ ev.action) := rfl
  have hevent : (slowWorkerEvent sp ev).event = (sp.analyze ev).event := rfl
  unfold Verdict
  rw [hrecord, hevent]
  by_cases h : Anomalous sp ev
  · rw [analyze_of_anomalous sp ev h]
    refine .inr ⟨h.2.2.1, rfl, ?_⟩
    rw [h.2.2.1]
    rfl
  · rw [analyze_of_not_anomalous sp ev h]
    exact .inl ⟨rfl, by simp only [ne_eq, not_true_eq_false, decide_false]⟩

/-- With a copy in flight, an event has been received and recorded and nothing
    else, and there is one copy. -/
theorem Story.of_copy {n : Nat} {acts : List FlowAction} {copies : List Numbered} {copy : Numbered}
    (h : Story n acts copies) (hmem : copy ∈ copies) :
    copy.1 = n ∧ copies = [copy] ∧ ∃ ev, acts = [.receive n ev (some copy.2)] := by
  cases h with
  | forwarded ev ev' =>
      rw [List.mem_singleton.mp hmem]
      exact ⟨rfl, rfl, ev, rfl⟩
  | unseen => exact absurd hmem List.not_mem_nil
  | filtered ev => exact absurd hmem List.not_mem_nil
  | dropped ev ev' => exact absurd hmem List.not_mem_nil
  | analyzed ev ev' step hverdict => exact absurd hmem List.not_mem_nil

theorem Story.copies_of_unseen {n : Nat} {copies : List Numbered} (h : Story n [] copies) :
    copies = [] := by
  cases h with
  | unseen => rfl

theorem storyOf_snoc (acts : List FlowAction) (a : FlowAction) (n : Nat) :
    storyOf (acts ++ [a]) n = storyOf acts n ++ if a.number = some n then [a] else [] := by
  unfold storyOf
  rw [List.filter_append, List.filter_singleton, Bool.cond_decide]

theorem copiesOf_append (copies copies' : List Numbered) (n : Nat) :
    copiesOf (copies ++ copies') n = copiesOf copies n ++ copiesOf copies' n :=
  List.filter_append copies copies'

theorem copiesOf_singleton (copy : Numbered) (n : Nat) :
    copiesOf [copy] n = if copy.1 = n then [copy] else [] := by
  unfold copiesOf
  rw [List.filter_singleton, Bool.cond_decide]

/-- Every event has a story, and the events to come have none yet. -/
structure Told {glob : GlobCrate} (acts : List FlowAction) (s : EventFlow glob) : Prop where
  story : ∀ n, Story n (storyOf acts n) (copiesOf (inFlight s) n)
  unseen : ∀ n, s.received ≤ n → storyOf acts n = []

section

variable {glob : GlobCrate} {acts : List FlowAction} {s s' : EventFlow glob}

/-- A step about no event, with every copy still in flight. -/
theorem Told.quiet (h : Told acts s) {a : FlowAction} (ha : a.number = none)
    (hflight : inFlight s' = inFlight s) (hreceived : s'.received = s.received) :
    Told (acts ++ [a]) s' := by
  have hstory : ∀ n, storyOf (acts ++ [a]) n = storyOf acts n := by
    intro n
    rw [storyOf_snoc, ha, if_neg (by simp only [reduceCtorEq, not_false_eq_true]), List.append_nil]
  refine ⟨fun n => ?_, fun n hn => ?_⟩
  · rw [hstory, hflight]
    exact h.story n
  · rw [hstory]
    exact h.unseen n (hreceived ▸ hn)

/-- A new event. What is recorded of it is in flight from then on. -/
theorem Told.receive (h : Told acts s) (ev : NormalizedEvent) (recorded : Option NormalizedEvent)
    (hflight : inFlight s' = inFlight s ++ (recorded.map (fun ev' => (s.received, ev'))).toList)
    (hreceived : s'.received = s.received + 1) :
    Told (acts ++ [.receive s.received ev recorded]) s' := by
  refine ⟨fun n => ?_, fun n hn => ?_⟩
  · rw [storyOf_snoc, hflight, copiesOf_append]
    simp only [FlowAction.number, Option.some.injEq]
    by_cases hn : s.received = n
    · -- Nothing has happened to this event before.
      have hstory := h.story n
      rw [h.unseen n (Nat.le_of_eq hn)] at hstory ⊢
      rw [hstory.copies_of_unseen, if_pos hn, List.nil_append, List.nil_append, hn]
      cases recorded with
      | none => exact Story.filtered ev
      | some ev' =>
          rw [Option.map_some, Option.toList_some, copiesOf_singleton, if_pos rfl]
          exact Story.forwarded ev ev'
    · have hother : copiesOf (recorded.map (fun ev' => (s.received, ev'))).toList n = [] := by
        cases recorded with
        | none => rfl
        | some ev' => rw [Option.map_some, Option.toList_some, copiesOf_singleton, if_neg hn]
      rw [if_neg hn, hother, List.append_nil, List.append_nil]
      exact h.story n
  · have hne : s.received ≠ n := by omega
    rw [storyOf_snoc, h.unseen n (by omega)]
    simp only [FlowAction.number, Option.some.injEq, if_neg hne, List.append_nil]

/-- A copy leaves the flight, after its analysis or without one. -/
theorem Told.leave (h : Told acts s) {a : FlowAction} (copy : Numbered) (before after : List Numbered)
    (hbefore : inFlight s = before ++ copy :: after) (hafter : inFlight s' = before ++ after)
    (hreceived : s'.received = s.received)
    (ha : a.number = none ∨ ∃ step, a = .analyze copy.1 copy.2 step ∧ Verdict copy.2 step) :
    Told (acts ++ [a]) s' := by
  have hnumber : ∀ n, n ≠ copy.1 → a.number ≠ some n := by
    intro n hn hsome
    rcases ha with hnone | ⟨step, rfl, _⟩
    · rw [hnone] at hsome
      exact absurd hsome (by simp only [reduceCtorEq, not_false_eq_true])
    · exact hn (Option.some.inj hsome).symm
  have hcopies : ∀ n, copiesOf (inFlight s) n
      = copiesOf before n ++ (if copy.1 = n then [copy] else []) ++ copiesOf after n := by
    intro n
    rw [hbefore, ← List.singleton_append, copiesOf_append, copiesOf_append, copiesOf_singleton,
      List.append_assoc]
  have hmem : copy ∈ copiesOf (inFlight s) copy.1 := by
    rw [hcopies, if_pos rfl]
    simp only [List.mem_append, List.mem_singleton, true_or, or_true]
  refine ⟨fun n => ?_, fun n hn => ?_⟩
  · rw [storyOf_snoc, hafter, copiesOf_append]
    have hstory := h.story n
    by_cases hn : n = copy.1
    · -- It was the only copy of its event.
      subst hn
      rcases hstory.of_copy hmem with ⟨_, hall, ev, hacts⟩
      rw [hcopies, if_pos rfl, List.append_assoc, List.singleton_append] at hall
      have hlength := congrArg List.length hall
      simp only [List.length_append, List.length_cons, List.length_nil] at hlength
      have hnil : copiesOf before copy.1 = [] := List.length_eq_zero_iff.mp (by omega)
      have hnil' : copiesOf after copy.1 = [] := List.length_eq_zero_iff.mp (by omega)
      rw [hacts, hnil, hnil']
      rcases ha with hnone | ⟨step, rfl, hverdict⟩
      · rw [hnone, if_neg (by simp only [reduceCtorEq, not_false_eq_true])]
        exact Story.dropped ev copy.2
      · simp only [FlowAction.number, if_true]
        exact Story.analyzed ev copy.2 step hverdict
    · rw [hcopies, if_neg (fun heq => hn heq.symm), List.append_nil] at hstory
      rw [if_neg (hnumber n hn), List.append_nil]
      exact hstory
  · -- An event with a copy has been received.
    have hne : n ≠ copy.1 := by
      intro heq
      subst heq
      rcases (h.story copy.1).of_copy hmem with ⟨_, _, ev, hacts⟩
      rw [h.unseen _ (hreceived ▸ hn)] at hacts
      exact absurd hacts (by simp only [reduceCtorEq, not_false_eq_true])
    rw [storyOf_snoc, if_neg (hnumber n hne), List.append_nil]
    exact h.unseen n (hreceived ▸ hn)

end

variable {fromStr : String → Option RuleSet} {glob : GlobCrate}

theorem told_step {acts : List FlowAction} {s s' : EventFlow glob} {a : FlowAction}
    (h : Told acts s) (hstep : FlowStep fromStr s a s') : Told (acts ++ [a]) s' := by
  cases hstep with
  | filter ev hphase hscope =>
      exact h.receive ev none (by simp [inFlight]) rfl
  | record ev ev' hphase hscope =>
      exact h.receive ev (some ev') (by simp [inFlight, hphase, PipelineAt.copies]) rfl
  | forward copy hphase hroom =>
      exact h.quiet rfl (by simp [inFlight, hphase, PipelineAt.copies]) rfl
  | drop copy hphase hfull =>
      exact h.leave copy (s.worker.copies ++ s.slowQueue) []
        (by simp [inFlight, hphase, PipelineAt.copies]) (by simp [inFlight, PipelineAt.copies])
        rfl (.inl rfl)
  | send hphase =>
      exact h.quiet rfl (by simp [inFlight, hphase, PipelineAt.copies]) rfl
  | hangUp hphase =>
      exact h.quiet rfl (by simp [inFlight, hphase, PipelineAt.copies]) rfl
  | take copy rest hphase hqueue =>
      exact h.quiet rfl (by simp [inFlight, hphase, hqueue, WorkerAt.copies]) rfl
  | analyze copy provider qdrantSearch hphase =>
      exact h.leave copy [] (s.slowQueue ++ s.pipeline.copies)
        (by simp [inFlight, hphase, WorkerAt.copies]) (by simp [inFlight, WorkerAt.copies]) rfl
        (.inr ⟨_, rfl, verdict_slowWorkerEvent _ copy.2⟩)
  | finish hphase hgone hempty =>
      exact h.quiet rfl (by simp [inFlight, hphase, WorkerAt.copies]) rfl
  | reloadPipeline cfg fs hphase => exact h.quiet rfl rfl rfl
  | reloadWorker cfg embedder qdrantSearch qdrantEnsured hphase => exact h.quiet rfl rfl rfl

/-- Every event of every run has a story. -/
theorem told_run {scopeFilter : ScopeFilter glob} {fastPath : FastPath} {slowPath : SlowPath}
    {acts : List FlowAction} {s : EventFlow glob}
    (h : Run (FlowStep fromStr) (EventFlow.init scopeFilter fastPath slowPath) acts s) :
    Told acts s := by
  refine h.invariant ⟨fun n => Story.unseen, fun n _ => rfl⟩ (fun acts t a u _ ih hstep => ?_)
  exact told_step ih hstep

theorem number_of_recordCalls {a : FlowAction} {c : Numbered} (h : c ∈ a.recordCalls) :
    a.number = some c.1 := by
  cases a with
  | receive n ev recorded =>
      cases recorded with
      | none => exact absurd h List.not_mem_nil
      | some ev' =>
          rw [List.mem_singleton.mp h]
          rfl
  | analyze n ev step =>
      simp only [FlowAction.recordCalls] at h
      by_cases hcalled : step.recordCalled = true
      · rw [if_pos hcalled] at h
        rw [List.mem_singleton.mp h]
        rfl
      · rw [if_neg hcalled] at h
        exact absurd h List.not_mem_nil
  | _ => exact absurd h List.not_mem_nil

/-- The calls on an event are made in the steps about it. -/
theorem incidentCalls_storyOf (acts : List FlowAction) (n : Nat) :
    incidentCalls acts n = incidentCalls (storyOf acts n) n := by
  induction acts with
  | nil => rfl
  | cons a acts ih =>
      unfold incidentCalls storyOf at ih ⊢
      rw [List.flatMap_cons, List.countP_append, ih]
      by_cases hn : a.number = some n
      · rw [List.filter_cons_of_pos (by simpa using hn), List.flatMap_cons, List.countP_append]
      · -- A step about another event makes no call on this one.
        rw [List.filter_cons_of_neg (by simpa using hn)]
        have hnone : a.recordCalls.countP (fun c => decide (c.1 = n) && isIncident c.2.action) = 0 := by
          refine List.countP_eq_zero.mpr (fun c hc => ?_)
          have hne : c.1 ≠ n := fun heq => hn (heq ▸ number_of_recordCalls hc)
          simp only [hne, decide_false, Bool.false_and, Bool.false_eq_true, not_false_eq_true]
        rw [hnone, Nat.zero_add]

theorem mem_storyOf {acts : List FlowAction} {n : Nat} {a : FlowAction} (ha : a.number = some n) :
    a ∈ storyOf acts n ↔ a ∈ acts := by
  unfold storyOf
  rw [List.mem_filter, ha]
  simp only [decide_true, and_true]

theorem incidentDue_storyOf (acts : List FlowAction) (n : Nat) :
    IncidentDue acts n ↔ IncidentDue (storyOf acts n) n := by
  unfold IncidentDue
  refine exists_congr (fun ev => exists_congr (fun ev' => ?_))
  have hreceive : .receive n ev (some ev') ∈ storyOf acts n ↔ .receive n ev (some ev') ∈ acts :=
    mem_storyOf rfl
  have hanalyze : ∀ step, .analyze n ev' step ∈ storyOf acts n ↔ .analyze n ev' step ∈ acts :=
    fun step => mem_storyOf rfl
  simp only [hreceive, hanalyze]

theorem incidentCalls_filtered (n : Nat) (ev : NormalizedEvent) :
    incidentCalls [.receive n ev none] n = 0 :=
  rfl

theorem incidentCalls_recorded (n : Nat) (ev ev' : NormalizedEvent) :
    incidentCalls [.receive n ev (some ev')] n = if isIncident ev'.action then 1 else 0 := by
  simp only [incidentCalls, List.flatMap_cons, List.flatMap_nil, List.append_nil,
    FlowAction.recordCalls, List.countP_singleton, decide_true, Bool.true_and]

theorem incidentCalls_analyzed (n : Nat) (ev ev' : NormalizedEvent) (step : WorkerStep) :
    incidentCalls [.receive n ev (some ev'), .analyze n ev' step] n =
      (if isIncident ev'.action then 1 else 0) +
        if step.recordCalled = true ∧ isIncident step.event.action = true then 1 else 0 := by
  have hanalyze : incidentCalls [.analyze n ev' step] n =
      if step.recordCalled = true ∧ isIncident step.event.action = true then 1 else 0 := by
    by_cases hcalled : step.recordCalled = true
    · simp only [incidentCalls, List.flatMap_cons, List.flatMap_nil, List.append_nil,
        FlowAction.recordCalls, hcalled, if_true, List.countP_singleton, decide_true, Bool.true_and,
        true_and]
    · simp only [incidentCalls, List.flatMap_cons, List.flatMap_nil, List.append_nil,
        FlowAction.recordCalls, hcalled, if_false, List.countP_nil, false_and, Bool.false_eq_true]
  rw [← hanalyze, ← incidentCalls_recorded n ev ev']
  exact List.countP_append

/-- When the one event of a story is due. -/
theorem incidentDue_recorded (n : Nat) (ev ev' : NormalizedEvent) :
    IncidentDue [.receive n ev (some ev')] n ↔ isIncident ev'.action = true := by
  unfold IncidentDue
  simp only [List.mem_singleton, FlowAction.receive.injEq, Option.some.injEq, true_and, reduceCtorEq,
    false_and, exists_false, or_false]
  exact ⟨fun ⟨_, _, ⟨_, heq⟩, h⟩ => heq ▸ h, fun h => ⟨ev, ev', ⟨rfl, rfl⟩, h⟩⟩

theorem incidentDue_analyzed (n : Nat) (ev ev' : NormalizedEvent) (step : WorkerStep) :
    IncidentDue [.receive n ev (some ev'), .analyze n ev' step] n ↔
      isIncident ev'.action = true ∨
        (step.event.action ≠ ev'.action ∧ step.event.action = .alerted) := by
  unfold IncidentDue
  simp only [List.mem_cons, List.not_mem_nil, or_false, FlowAction.receive.injEq,
    FlowAction.analyze.injEq, Option.some.injEq, true_and, reduceCtorEq, or_false, false_or]
  constructor
  · intro h
    rcases h with ⟨_, _, ⟨_, rfl⟩, hincident | ⟨_, ⟨_, rfl⟩, hchanged⟩⟩
    · exact .inl hincident
    · exact .inr hchanged
  · intro h
    refine ⟨ev, ev', ⟨rfl, rfl⟩, h.imp_right (fun hchanged => ?_)⟩
    exact ⟨step, ⟨rfl, rfl⟩, hchanged⟩

/-- One story has at most one call that finds an incident, and has one exactly if
    the event is due. -/
theorem Story.calls {n : Nat} {acts : List FlowAction} {copies : List Numbered}
    (h : Story n acts copies) :
    incidentCalls acts n ≤ 1 ∧ (incidentCalls acts n = 1 ↔ IncidentDue acts n) := by
  have hrecorded : ∀ ev ev', incidentCalls [.receive n ev (some ev')] n ≤ 1 ∧
      (incidentCalls [.receive n ev (some ev')] n = 1 ↔
        IncidentDue [.receive n ev (some ev')] n) := by
    intro ev ev'
    rw [incidentCalls_recorded, incidentDue_recorded]
    by_cases hincident : isIncident ev'.action = true
    · simp only [hincident, if_true, Nat.le_refl, and_self]
    · simp only [hincident, Bool.false_eq_true, if_false, Nat.zero_le, Nat.zero_ne_one, and_self]
  cases h with
  | unseen =>
      refine ⟨Nat.zero_le 1, iff_of_false (fun h => absurd h Nat.zero_ne_one) (fun h => ?_)⟩
      rcases h with ⟨_, _, hmem, _⟩
      exact absurd hmem List.not_mem_nil
  | filtered ev =>
      rw [incidentCalls_filtered]
      refine ⟨Nat.zero_le 1, iff_of_false Nat.zero_ne_one (fun h => ?_)⟩
      rcases h with ⟨_, _, hmem, _⟩
      exact absurd (List.mem_singleton.mp hmem) (by simp)
  | forwarded ev ev' => exact hrecorded ev ev'
  | dropped ev ev' => exact hrecorded ev ev'
  | analyzed ev ev' step hverdict =>
      rw [incidentCalls_analyzed, incidentDue_analyzed]
      rcases hverdict with ⟨hsame, hcalled⟩ | ⟨hallowed, halerted, hcalled⟩
      · -- The worker found nothing, so the first call decides.
        simp only [hcalled, hsame, Bool.false_eq_true, false_and, if_false, Nat.add_zero, ne_eq,
          not_true_eq_false, or_false]
        have hfirst := hrecorded ev ev'
        rw [incidentCalls_recorded, incidentDue_recorded] at hfirst
        exact hfirst
      · -- The action was `allowed`, so the first call found no incident.
        rw [hallowed, halerted, hcalled]
        decide

/-- For every event of every run, at most one call of the logger finds an incident
    in it, and one does exactly if the event is due. -/
theorem oneIncident {scopeFilter : ScopeFilter glob} {fastPath : FastPath} {slowPath : SlowPath}
    {acts : List FlowAction} {s : EventFlow glob}
    (h : Run (FlowStep fromStr) (EventFlow.init scopeFilter fastPath slowPath) acts s) (n : Nat) :
    incidentCalls acts n ≤ 1 ∧ (incidentCalls acts n = 1 ↔ IncidentDue acts n) := by
  rw [incidentCalls_storyOf, incidentDue_storyOf]
  exact ((told_run h).story n).calls

/-- A fast path with one rule, which lets everything pass. -/
def allowAll : FastPath := FastPath.ofRules .shipped ⟨[Rule.bare "allow-all" .allow]⟩

/-- An `ls` as that fast path hands it on. -/
def allowedLs : NormalizedEvent :=
  { NormalizedEvent.plainExec "ls" with ruleName := some "allow-all" }

/-- The steps of an `ls` that the worker escalates. -/
def escalatedLs : List FlowAction :=
  [.receive 0 (.plainExec "ls") (some allowedLs), .forward, .send, .take,
    .analyze 0 allowedLs (slowWorkerEvent lonelySlowPath allowedLs)]

theorem exists_run_escalatedLs :
    ∃ s, Run (FlowStep (fun _ => none)) (EventFlow.init everyEvent allowAll lonelySlowPath)
      escalatedLs s := by
  have hscope : pipelineEvent GlobCrate.literal everyEvent allowAll (.plainExec "ls")
      = some allowedLs := by decide
  have hrecord := Run.nil.snoc (@FlowStep.record (fun _ => none) _
    (EventFlow.init everyEvent allowAll lonelySlowPath) (.plainExec "ls") allowedLs rfl hscope)
  have hforward := hrecord.snoc (FlowStep.forward (0, allowedLs) rfl (by decide))
  have hsend := hforward.snoc (FlowStep.send rfl)
  have htake := hsend.snoc (FlowStep.take (0, allowedLs) [] rfl rfl)
  exact ⟨_, htake.snoc (FlowStep.analyze (0, allowedLs) lonelySlowPath.embedder.provider
    lonelySlowPath.vectordb.qdrantSearch rfl)⟩

/-- The escalated `ls` is logged once, by the worker. -/
theorem escalatedLs_logged_once : incidentCalls escalatedLs 0 = 1 := by
  rcases exists_run_escalatedLs with ⟨s, hrun⟩
  refine (oneIncident hrun 0).2.mpr ⟨.plainExec "ls", allowedLs, by simp [escalatedLs], .inr ?_⟩
  have hescalated := (escalated_iff lonelySlowPath allowedLs).mpr
    (anomalous_lonelySlowPath allowedLs rfl)
  refine ⟨slowWorkerEvent lonelySlowPath allowedLs, by simp [escalatedLs], ?_, hescalated.1⟩
  rw [hescalated.1]
  decide

end VectorGuard
