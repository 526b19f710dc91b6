import VectorGuard.Core.Falco
import VectorGuard.Theory.Escalation

/-!
# Severity

How the stages move the severity of an event.

The slow path raises: it compares with the severity it finds and writes only
upwards. The fast path assigns: an event it blocks or alerts on is of high
severity from then on, whatever it was. There is one severity above that, and
Falco hands events in with it. So the severity of an event drops on exactly one
way through the stages, a critical event under an enabled fast path that decides
to block or to alert.

## Main definitions

* `DecidesSevere`: The rules decide to block an event or to alert on it.
* `SeverityKept`: No stage lowers the severity, and what is blocked or alerted on
  is of high severity at least.

## Theorems

* `severity_evaluate_of_severe`, `severity_evaluate_of_not_severe`: The severity
  the fast path leaves.
* `severity_le_analyze`: The slow path raises.
* `severityKept_iff`: When no stage lowers the severity.
-/

namespace VectorGuard

theorem Severity.le_high_iff (a : Severity) : a ≤ Severity.high ↔ a ≠ .critical := by
  cases a <;> decide

variable (glob : GlobCrate) (fp : FastPath) (sp : SlowPath) (ev : NormalizedEvent)

/-- The first rule that matches an event blocks or alerts, or no rule matches
    and the default does. -/
def DecidesSevere : Prop :=
  match fp.rules.find? (fun r => r.matchesEvent glob ev) with
  | some r => r.action = .block ∨ r.action = .alert
  | none => fp.defaultAction = .blocked ∨ fp.defaultAction = .alerted

/-- An event on its way through both stages is never lowered, and if an enabled
    fast path blocks it or alerts on it, it is of high severity from there on. -/
structure SeverityKept : Prop where
  fast : ev.severity ≤ (fp.evaluate glob ev).severity
  slow : (fp.evaluate glob ev).severity ≤ (sp.analyze (fp.evaluate glob ev)).event.severity
  verdict : fp.enabled = true →
    (fp.evaluate glob ev).action = .blocked ∨ (fp.evaluate glob ev).action = .alerted →
      Severity.high ≤ (fp.evaluate glob ev).severity

variable {glob fp ev}

/-- The verdict of an enabled fast path is severe when its decision is. -/
theorem decidesSevere_iff (henabled : fp.enabled = true) :
    DecidesSevere glob fp ev ↔
      (fp.evaluate glob ev).action = .blocked ∨ (fp.evaluate glob ev).action = .alerted := by
  rw [FastPath.evaluate_action glob fp ev henabled]
  unfold DecidesSevere
  cases fp.rules.find? (fun r => r.matchesEvent glob ev) with
  | none => exact Iff.rfl
  | some r =>
      simp only []
      -- Each action of a rule has an action of its own.
      cases r.action <;> simp only [RuleAction.toAction, reduceCtorEq, or_false, or_self, or_true]

/-- The severity of an event goes by its verdict, not by what it was. -/
theorem severity_evaluate (henabled : fp.enabled = true) :
    (fp.evaluate glob ev).severity =
      if (fp.evaluate glob ev).action = .blocked ∨ (fp.evaluate glob ev).action = .alerted then .high
      else ev.severity := by
  unfold FastPath.evaluate
  rw [henabled, Bool.not_true, if_neg Bool.false_ne_true]
  simp only
  split <;> split <;> rfl

theorem severity_evaluate_of_severe (henabled : fp.enabled = true)
    (hsevere : DecidesSevere glob fp ev) : (fp.evaluate glob ev).severity = .high := by
  rw [severity_evaluate henabled, if_pos ((decidesSevere_iff henabled).mp hsevere)]

theorem severity_evaluate_of_not_severe (h : ¬ (fp.enabled = true ∧ DecidesSevere glob fp ev)) :
    (fp.evaluate glob ev).severity = ev.severity := by
  by_cases henabled : fp.enabled = true
  · have hsevere : ¬ DecidesSevere glob fp ev := fun hsevere => h ⟨henabled, hsevere⟩
    have haction := mt (decidesSevere_iff henabled).mpr hsevere
    rw [severity_evaluate henabled, if_neg haction]
  · rw [FastPath.evaluate_disabled glob fp ev (Bool.eq_false_iff.mpr henabled)]

theorem severity_le_escalate (ev : NormalizedEvent) :
    ev.severity ≤ (SlowPath.escalate ev).severity := by
  unfold SlowPath.escalate
  by_cases hlow : ev.severity < .medium
  · simp only [hlow, if_true]
    exact Nat.le_of_lt hlow
  · simp only [hlow, if_false]
    exact Nat.le_refl _

/-- The slow path writes a severity only upwards. -/
theorem severity_le_analyze (sp : SlowPath) (ev : NormalizedEvent) :
    ev.severity ≤ (sp.analyze ev).event.severity := by
  by_cases h : Anomalous sp ev
  · rw [analyze_of_anomalous sp ev h]
    exact severity_le_escalate ev
  · rw [analyze_of_not_anomalous sp ev h]
    exact Nat.le_refl _

/-- The severity of an event drops exactly where an enabled fast path decides to
    block a critical event or to alert on it. -/
theorem severityKept_iff (glob : GlobCrate) (fp : FastPath) (sp : SlowPath) (ev : NormalizedEvent) :
    SeverityKept glob fp sp ev ↔
      ¬ (ev.severity = .critical ∧ fp.enabled = true ∧ DecidesSevere glob fp ev) := by
  constructor
  · intro hkept hdrop
    rcases hdrop with ⟨hcritical, henabled, hsevere⟩
    have hfast := hkept.fast
    rw [severity_evaluate_of_severe henabled hsevere, Severity.le_high_iff] at hfast
    exact hfast hcritical
  · intro hcond
    refine ⟨?_, severity_le_analyze sp _, ?_⟩
    · by_cases hsevere : fp.enabled = true ∧ DecidesSevere glob fp ev
      · rw [severity_evaluate_of_severe hsevere.1 hsevere.2, Severity.le_high_iff]
        exact fun hcritical => hcond ⟨hcritical, hsevere⟩
      · rw [severity_evaluate_of_not_severe hsevere]
        exact Nat.le_refl _
    · intro henabled haction
      rw [severity_evaluate henabled, if_pos haction]
      exact Nat.le_refl _

/-- A Falco alert of the highest priority, on a connection to port 4444. -/
def criticalAlert : Value :=
  .object [("priority", .string "Critical"), ("output_fields", .object
    [("evt.type", .string "connect"), ("proc.name", .string "nc"), ("fd.sport", .posInt 4444)])]

/-- A built-in rule alerts on the connection and lowers what Falco called
    critical. -/
theorem criticalAlert_lowered :
    (falcoEvent 0 criticalAlert).severity = .critical ∧
      ¬ SeverityKept GlobCrate.literal (FastPath.ofRules .shipped ⟨builtinRules⟩) lonelySlowPath
        (falcoEvent 0 criticalAlert).toNormalizedEvent := by
  refine ⟨by decide, fun hkept => ?_⟩
  exact absurd hkept.fast (by decide)

end VectorGuard
