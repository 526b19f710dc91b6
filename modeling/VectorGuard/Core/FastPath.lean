import VectorGuard.Core.Rules
import VectorGuard.Core.Config

/-!
# Fast Path

Rule evaluation as a pipeline stage (`fast_path/mod.rs`). The stage holds the
loaded rules, the default action and the enabled flag. When it is enabled it
rewrites the action, the rule name and possibly the severity of every event it
sees, also of an event that arrives with a verdict; when it is disabled it
changes nothing. The rules are handed to the kernel enforcer by `rules`,
whatever the flag says.

The warnings about names that do not fit a kernel task name have no effect on
the stage. They count characters up to the first wildcard.

## Main definitions

* `FastPath`: The stage.
* `FastPath.new`: The stage built from its configuration and the directory.
* `FastPath.nameWarnings`: What building it warns about.
* `FastPath.evaluate`: What the stage does to an event.

## Theorems

* `evaluate_disabled`: A disabled stage changes nothing.
* `evaluate_action`: The action an enabled stage writes.
-/

namespace VectorGuard

/-- What `fs::read_dir` lists at each path. -/
abbrev FileSystem := String → Option (List (Option DirEntry))

structure FastPath where
  ruleset : RuleSet
  defaultAction : Action
  enabled : Bool
  deriving DecidableEq, Repr

/-- The action a configured default stands for. -/
def DefaultAction.toAction : DefaultAction → Action
  | .block => .blocked
  | .alert => .alerted
  | .log => .logged

namespace FastPath

/-- The stage for a configuration whose directory holds the given rules. -/
def ofRules (cfg : FastPathConfig) (ruleset : RuleSet) : FastPath where
  ruleset := ruleset
  defaultAction := cfg.defaultAction.toAction
  enabled := cfg.enabled

/-- `FastPath::new`. -/
def new (fromStr : String → Option RuleSet) (fs : FileSystem) (cfg : FastPathConfig) : FastPath :=
  ofRules cfg (RuleSet.loadDir fromStr (fs cfg.rulesPath))

/-- The characters a literal name ends at. -/
def isWildcard (c : Char) : Bool := c == '*' || c == '?' || c == '['

/-- The number of characters in front of the first wildcard. -/
def literalLen (pat : String) : Nat := (pat.toList.takeWhile (fun c => !isWildcard c)).length

/-- The warnings of `FastPath::new` about names that are too long for the kernel. -/
def nameWarnings (rules : List Rule) : List String :=
  rules.flatMap (fun r => (r.matchProcess.filter (fun pat => literalLen pat > 15)).map (fun pat =>
    "Rule '" ++ r.name ++ "': match_process '" ++ pat ++ "' exceeds 15 chars; kernel comm is " ++
      "truncated, so this rule's kernel block will not fire"))

/-- `FastPath::rules`. -/
def rules (fp : FastPath) : List Rule := fp.ruleset.rules

/-- `FastPath::evaluate`. -/
def evaluate (glob : GlobCrate) (fp : FastPath) (event : NormalizedEvent) : NormalizedEvent :=
  if !fp.enabled then event
  else
    let (action, ruleName) := match fp.ruleset.evaluate glob event with
      | some (a, name) => (a, some name)
      | none => (fp.defaultAction, none)
    -- Also the action of an event the kernel has already blocked.
    let event := { event with action := action, ruleName := ruleName }
    if event.action = .blocked ∨ event.action = .alerted then { event with severity := .high }
    else event

theorem evaluate_disabled (glob : GlobCrate) (fp : FastPath) (event : NormalizedEvent)
    (h : fp.enabled = false) : fp.evaluate glob event = event := by
  unfold evaluate
  rw [h, Bool.not_false, if_pos rfl]

/-- The action an enabled stage writes is the deciding rule's or the default;
    what the event carried before plays no part. -/
theorem evaluate_action (glob : GlobCrate) (fp : FastPath) (event : NormalizedEvent)
    (h : fp.enabled = true) :
    (fp.evaluate glob event).action
      = match fp.rules.find? (fun r => r.matchesEvent glob event) with
        | some r => r.action.toAction
        | none => fp.defaultAction := by
  unfold evaluate
  rw [h, Bool.not_true, if_neg (by simp only [Bool.false_eq_true, not_false_eq_true])]
  unfold RuleSet.evaluate rules
  cases fp.ruleset.rules.find? (fun r => r.matchesEvent glob event) with
  | none =>
      simp only [Option.map_none]
      split <;> rfl
  | some r =>
      simp only [Option.map_some]
      split <;> rfl

end FastPath

end VectorGuard
