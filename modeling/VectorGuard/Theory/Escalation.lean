import VectorGuard.Core.Pipeline

/-!
# Escalation

Which events the slow path can escalate, followed through the four stages that
hand an event on by its action alone.

The detector escalates an event only while its action is still `allowed`
(`escalated_iff`). An enabled fast path overwrites the action of every
event, and the default it writes for an event that no rule matches is never
`allowed`. So behind an enabled fast path the only events left to escalate are
those an allow rule decided, and the events the detector exists for are not
among them.

## Main definitions

* `Escalated`: The worker alerts on an event and records it.
* `Anomalous`: What the detector escalates.

## Theorems

* `analyze_of_anomalous`, `analyze_of_not_anomalous`: What a call does to its
  event.
* `escalated_iff`: The worker alerts on exactly the anomalous events.
* `pipelineEvent_action_of_uncovered`: What reaches the worker without a rule.
* `uncovered_not_escalated`: An event no rule covers is not escalated.
-/

namespace VectorGuard

/-- The worker leaves the event alerted, at least at medium severity, and calls
    the incident logger on it. -/
def Escalated (step : WorkerStep) : Prop :=
  step.event.action = .alerted ∧ Severity.medium ≤ step.event.severity ∧ step.recordCalled = true

/-- The detector is on, the event is still allowed, it can be embedded, and the
    search for neighbours succeeds and finds none. -/
def Anomalous (sp : SlowPath) (ev : NormalizedEvent) : Prop :=
  sp.enabled = true ∧ sp.available = true ∧ ev.action = .allowed ∧
    ∃ vec, sp.embedder.embed ev = .ok vec ∧
      sp.vectordb.search (SlowPath.searchVector sp.context ev vec).2 5 sp.threshold = .ok []

theorem analyze_of_anomalous (sp : SlowPath) (ev : NormalizedEvent) (h : Anomalous sp ev) :
    (sp.analyze ev).event = SlowPath.escalate ev := by
  rcases h with ⟨henabled, havailable, hallowed, vec, hembed, hsearch⟩
  rcases sp.analyze_spec ev with ⟨hnone, _⟩ | ⟨current, vector, anomaly, hsearches, hvector,
    hanomaly, heq⟩
  · have hblocked : ev.action ≠ .blocked := by
      rw [hallowed]
      exact fun h => Action.noConfusion h
    exact absurd ⟨henabled, havailable, hblocked, hembed⟩ (hnone vec)
  · have hsame : current = vec := Except.ok.inj (hsearches.embed.symm.trans hembed)
    rw [← hsame, ← hvector] at hsearch
    rw [heq]
    exact if_pos (hanomaly.mpr ⟨hsearch, hallowed⟩)

/-- Every other event leaves the detector as it came. -/
theorem analyze_of_not_anomalous (sp : SlowPath) (ev : NormalizedEvent) (h : ¬ Anomalous sp ev) :
    (sp.analyze ev).event = ev := by
  rcases sp.analyze_spec ev with ⟨_, heq⟩ | ⟨current, vector, anomaly, hsearches, hvector,
    hanomaly, heq⟩
  · rw [heq]
  · rw [heq]
    refine if_neg (fun htrue => h ?_)
    rcases hanomaly.mp htrue with ⟨hsearch, hallowed⟩
    rw [hvector] at hsearch
    exact ⟨hsearches.enabled, hsearches.available, hallowed, current, hsearches.embed, hsearch⟩

theorem medium_le_escalate (ev : NormalizedEvent) :
    Severity.medium ≤ (SlowPath.escalate ev).severity := by
  unfold SlowPath.escalate
  by_cases hlow : ev.severity < .medium
  · simp only [hlow, if_true]
    exact Nat.le_refl _
  · simp only [hlow, if_false]
    exact Nat.le_of_not_lt hlow

/-- The worker alerts on exactly the anomalous events. -/
theorem escalated_iff (sp : SlowPath) (ev : NormalizedEvent) :
    Escalated (slowWorkerEvent sp ev) ↔ Anomalous sp ev := by
  have hrecord : (slowWorkerEvent sp ev).recordCalled = true ↔
      (sp.analyze ev).event.action ≠ ev.action := decide_eq_true_iff
  have hevent : (slowWorkerEvent sp ev).event = (sp.analyze ev).event := rfl
  unfold Escalated
  rw [hrecord, hevent]
  by_cases h : Anomalous sp ev
  · rw [analyze_of_anomalous sp ev h]
    refine ⟨fun _ => h, fun _ => ⟨rfl, medium_le_escalate ev, ?_⟩⟩
    rw [h.2.2.1]
    exact fun heq => Action.noConfusion heq
  · rw [analyze_of_not_anomalous sp ev h]
    exact ⟨fun hesc => absurd rfl hesc.2.2, fun hanom => absurd hanom h⟩

theorem pipelineEvent_eq_some (glob : GlobCrate) (scope : ScopeFilter glob) (fp : FastPath)
    (ev ev' : NormalizedEvent) (h : pipelineEvent glob scope fp ev = some ev') :
    ev' = fp.evaluate glob ev := by
  unfold pipelineEvent at h
  by_cases hscope : (!scope.allows ev) = true
  · rw [if_pos hscope] at h
    exact absurd h (by simp only [reduceCtorEq, not_false_eq_true])
  · rw [if_neg hscope, Option.some.injEq] at h
    exact h.symm

/-- An enabled fast path hands an event that no rule matches on under its
    default. -/
theorem pipelineEvent_action_of_uncovered (glob : GlobCrate) (scope : ScopeFilter glob)
    (cfg : FastPathConfig) (rs : RuleSet) (henabled : cfg.enabled = true)
    (ev ev' : NormalizedEvent) (hnone : ∀ r ∈ rs.rules, r.matchesEvent glob ev = false)
    (h : pipelineEvent glob scope (FastPath.ofRules cfg rs) ev = some ev') :
    ev'.action = cfg.defaultAction.toAction := by
  have hfind : (FastPath.ofRules cfg rs).rules.find? (fun r => r.matchesEvent glob ev) = none := by
    refine List.find?_eq_none.mpr (fun r hr => ?_)
    exact Bool.eq_false_iff.mp (hnone r hr)
  rw [pipelineEvent_eq_some glob scope _ ev ev' h, FastPath.evaluate_action glob _ ev henabled,
    hfind]
  rfl

/-- With the fast path enabled and its default at log, an event that no rule
    matches is never escalated, whatever the detector finds. -/
theorem uncovered_not_escalated (glob : GlobCrate) (scope : ScopeFilter glob)
    (cfg : FastPathConfig) (rs : RuleSet) (henabled : cfg.enabled = true)
    (hdefault : cfg.defaultAction = .log) (sp : SlowPath) (ev ev' : NormalizedEvent)
    (hnone : ∀ r ∈ rs.rules, r.matchesEvent glob ev = false)
    (hreach : pipelineEvent glob scope (FastPath.ofRules cfg rs) ev = some ev') :
    ¬ Escalated (slowWorkerEvent sp ev') := by
  have haction := pipelineEvent_action_of_uncovered glob scope cfg rs henabled ev ev' hnone hreach
  rw [hdefault] at haction
  -- An escalated event was allowed, and this one carries the default.
  intro hescalated
  have hallowed := ((escalated_iff sp ev').mp hescalated).2.2.1
  rw [haction] at hallowed
  exact absurd hallowed (by decide)

/-- A detector that embeds every event in one dimension and finds no neighbour
    of any. -/
def lonelySlowPath : SlowPath :=
  SlowPath.new ⟨true, 60, 0.85, .qdrant⟩ { provider := fun _ => .ok [1.0], dim := 1 }
    (fun _ _ _ => .ok []) true

/-- A scope filter that lets every event pass. -/
def everyEvent : ScopeFilter GlobCrate.literal :=
  ScopeFilter.new GlobCrate.literal ⟨[], [], [], [], []⟩

theorem anomalous_lonelySlowPath (ev : NormalizedEvent) (h : ev.action = .allowed) :
    Anomalous lonelySlowPath ev :=
  ⟨rfl, rfl, h, [1.0], rfl, rfl⟩

/-- An `ls` as the shipped fast path hands it on. No built-in rule matches it. -/
def loggedLs : NormalizedEvent := { NormalizedEvent.plainExec "ls" with action := .logged }

theorem pipelineEvent_ls :
    pipelineEvent GlobCrate.literal everyEvent (FastPath.ofRules .shipped ⟨builtinRules⟩)
      (.plainExec "ls") = some loggedLs := by
  decide

/-- An `ls` is not escalated behind the shipped fast path. -/
theorem loggedLs_not_escalated : ¬ Escalated (slowWorkerEvent lonelySlowPath loggedLs) :=
  uncovered_not_escalated GlobCrate.literal everyEvent .shipped ⟨builtinRules⟩ rfl rfl
    lonelySlowPath (.plainExec "ls") loggedLs (by decide) pipelineEvent_ls

/-- The detector would escalate an `ls` as the collector sends it. It sees the
    `ls` as the fast path hands it on, and nothing is recorded. -/
theorem ls_logged_before_escalation :
    Anomalous lonelySlowPath (.plainExec "ls") ∧
      (∀ r ∈ builtinRules, r.matchesEvent GlobCrate.literal (.plainExec "ls") = false) ∧
      pipelineEvent GlobCrate.literal everyEvent (FastPath.ofRules .shipped ⟨builtinRules⟩)
        (.plainExec "ls") = some loggedLs ∧
      (∃ vec, lonelySlowPath.embedder.embed loggedLs = .ok vec) ∧
      (∀ vec, lonelySlowPath.vectordb.search vec 5 lonelySlowPath.threshold = .ok []) ∧
      (slowWorkerEvent lonelySlowPath loggedLs).event.action = .logged ∧
      (slowWorkerEvent lonelySlowPath loggedLs).recordCalled = false := by
  refine ⟨anomalous_lonelySlowPath _ rfl, by decide, pipelineEvent_ls, ⟨[1.0], rfl⟩, fun _ => rfl,
    ?_, ?_⟩
  · rfl
  · rfl

end VectorGuard
