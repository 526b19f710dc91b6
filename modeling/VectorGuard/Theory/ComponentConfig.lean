import VectorGuard.Core.PipelineTask

/-!
# Component Configuration

Whether the rule engine and the advisor still mean the same directories after
some reloads.

Of the two directories of the advisor's store, the pending one comes from the
advisor's own table, which a reload passes on. The approved one is the directory
of the fast path, which belongs to another table. The advisor was given it once,
when it was built, and `update_config` puts that old value into every new store.
So the two agree exactly as long as the rules stay where they were at start-up,
and a reload that moves them back also makes them agree again.

## Main definitions

* `lastConfig`: The configuration of the last reload.
* `FollowsConfig`: The advisor uses the directories of the configuration that the
  fast path was built from.

## Theorems

* `rulesPath_after`: The advisor's directory for rules never changes.
* `followsConfig_iff`: When the advisor follows the configuration.
-/

namespace VectorGuard

/-- The configuration of the last reload, or the one at start-up. -/
def lastConfig (start : Config) (inputs : List PipelineInput) : Config :=
  inputs.foldl (fun cfg input => match input with
    | .reload newCfg _ => newCfg
    | .event _ _ => cfg) start

variable {glob : GlobCrate}

/-- The advisor stages into the directories of the configuration that the fast
    path was built from, and shows the rules of that directory to the model. -/
structure FollowsConfig (p : PipelineTask glob) : Prop where
  approved : p.aiAdvisor.store.approvedDir = p.cfg.fastPath.rulesPath
  shown : p.aiAdvisor.rulesPath = p.cfg.fastPath.rulesPath
  pending : p.aiAdvisor.store.pendingDir = p.cfg.aiAdvisor.pendingDir

/-- Looking at an event changes what the advisor has seen, not where it stages. -/
theorem gate_settings (adv : AiAdvisor) (now : Nat) (ev : NormalizedEvent) :
    (adv.gate now ev).1.store = adv.store ∧ (adv.gate now ev).1.rulesPath = adv.rulesPath := by
  unfold AiAdvisor.gate
  split
  · exact ⟨rfl, rfl⟩
  · split
    · exact ⟨rfl, rfl⟩
    · cases patternKey ev with
      | none => exact ⟨rfl, rfl⟩
      | some key =>
          simp only
          split
          · exact ⟨rfl, rfl⟩
          · -- The cooldown, if there is one, has passed or not.
            split <;> split <;> exact ⟨rfl, rfl⟩

variable (fromStr : String → Option RuleSet)

theorem after_snoc (p : PipelineTask glob) (inputs : List PipelineInput) (input : PipelineInput) :
    p.after fromStr (inputs ++ [input]) = (p.after fromStr inputs).round fromStr input := by
  unfold PipelineTask.after
  rw [List.foldl_append, List.foldl_cons, List.foldl_nil]

theorem event_settings (p : PipelineTask glob) (now : Nat) (ev : NormalizedEvent) :
    (p.event now ev).cfg = p.cfg ∧ (p.event now ev).fastPath = p.fastPath ∧
      (p.event now ev).aiAdvisor.store = p.aiAdvisor.store ∧
      (p.event now ev).aiAdvisor.rulesPath = p.aiAdvisor.rulesPath := by
  unfold PipelineTask.event
  cases pipelineEvent glob p.scopeFilter p.fastPath ev with
  | none => exact ⟨rfl, rfl, rfl, rfl⟩
  | some ev =>
      rcases gate_settings p.aiAdvisor now ev with ⟨hstore, hpath⟩
      exact ⟨rfl, rfl, hstore, hpath⟩

/-- What is known of the components after some rounds, whatever was reloaded. -/
structure Built (start current : Config) (p : PipelineTask glob) : Prop where
  cfg : p.cfg = current
  fastPath : ∃ fs, p.fastPath = FastPath.new fromStr fs current.fastPath
  rulesPath : p.aiAdvisor.rulesPath = start.fastPath.rulesPath
  store : p.aiAdvisor.store = ⟨current.aiAdvisor.pendingDir, start.fastPath.rulesPath⟩

/-- The advisor's pending directory is the one of the last reload, and its
    directory for rules the one it was built with. -/
theorem built_after (start : Config) (fs : FileSystem) (inputs : List PipelineInput) :
    Built fromStr start (lastConfig start inputs)
      ((@PipelineTask.start glob fromStr fs start).after fromStr inputs) := by
  -- By induction on the inputs from their end, one round at a time.
  induction inputs using List.reverseRecOn with
  | nil => exact ⟨rfl, ⟨fs, rfl⟩, rfl, rfl⟩
  | append_singleton inputs input ih =>
      have hlast : lastConfig start (inputs ++ [input]) = match input with
          | .reload newCfg _ => newCfg
          | .event _ _ => lastConfig start inputs := by
        unfold lastConfig
        rw [List.foldl_append, List.foldl_cons, List.foldl_nil]
      rw [after_snoc, hlast]
      cases input with
      | reload newCfg fs' =>
          refine ⟨rfl, ⟨fs', rfl⟩, ih.rulesPath, ?_⟩
          -- The new store is made of the new pending directory and the old other one.
          simp only [PipelineTask.round, PipelineTask.reload, AiAdvisor.updateConfig, ih.rulesPath]
      | event now ev =>
          rcases event_settings (PipelineTask.after fromStr _ inputs) now ev
            with ⟨hcfg, hfast, hstore, hpath⟩
          exact ⟨hcfg.trans ih.cfg, hfast ▸ ih.fastPath, hpath.trans ih.rulesPath, hstore.trans ih.store⟩

/-- After every sequence of reloads, with any events between them, the advisor
    follows the configuration exactly when the rules are where they were at
    start-up. -/
theorem followsConfig_iff (glob : GlobCrate) (fromStr : String → Option RuleSet)
    (start : Config) (fs : FileSystem) (inputs : List PipelineInput) :
    FollowsConfig ((@PipelineTask.start glob fromStr fs start).after fromStr inputs) ↔
      (lastConfig start inputs).fastPath.rulesPath = start.fastPath.rulesPath := by
  have hbuilt := @built_after glob fromStr start fs inputs
  constructor
  · intro h
    have hshown := h.shown
    rw [hbuilt.rulesPath, hbuilt.cfg] at hshown
    exact hshown.symm
  · intro hpath
    refine ⟨?_, ?_, ?_⟩
    · rw [hbuilt.store, hbuilt.cfg]
      exact hpath.symm
    · rw [hbuilt.rulesPath, hbuilt.cfg]
      exact hpath.symm
    · rw [hbuilt.store, hbuilt.cfg]

/-- A configuration with the rules in the given directory. -/
def rulesIn (path : String) : Config where
  scope := ⟨[], [], [], [], []⟩
  fastPath := { FastPathConfig.shipped with rulesPath := path }
  slowPath := ⟨false, 60, 0.85, .usearch⟩
  aiAdvisor := { AiAdvisorConfig.default with enabled := true, approvalMode := .auto }

/-- A reload that moves the rules leaves the advisor staging where they were. -/
theorem moved_rules_not_followed :
    ¬ FollowsConfig
      ((@PipelineTask.start GlobCrate.literal (fun _ => none) (fun _ => none)
          (rulesIn "/etc/vectorguard/rules")).after (fun _ => none)
        [.reload (rulesIn "/srv/rules") (fun _ => none)]) := by
  intro h
  exact absurd h.approved (by decide)

end VectorGuard
