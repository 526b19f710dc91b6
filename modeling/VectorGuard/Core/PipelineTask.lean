import VectorGuard.Core.AiAdvisor
import VectorGuard.Core.Pipeline

/-!
# Pipeline Task

The components `run_pipeline` owns and what it does to them (`main.rs`). They are
built from the configuration the daemon starts with. A reload builds the scope
filter and the fast path anew from the configuration it takes, and tells the
advisor about the advisor's own table.

The advisor is told what there is to do about an event by `gate`; what it stages
afterwards is in files and changes none of its fields.

## Main definitions

* `PipelineTask`: The components, with the configuration they were given last.
* `PipelineTask.start`, `PipelineTask.reload`: How they are built.
* `PipelineTask.after`: The components after some reloads and events.
-/

namespace VectorGuard

structure PipelineTask (glob : GlobCrate) where
  /-- The configuration the scope filter and the fast path were built from. -/
  cfg : Config
  scopeFilter : ScopeFilter glob
  fastPath : FastPath
  aiAdvisor : AiAdvisor

/-- What `run_pipeline` selects on. -/
inductive PipelineInput
  /-- A reload, with the directories as they are then. -/
  | reload (cfg : Config) (fs : FileSystem)
  /-- An event, at an instant. -/
  | event (now : Nat) (ev : NormalizedEvent)

namespace PipelineTask

variable {glob : GlobCrate} (fromStr : String → Option RuleSet)

/-- The components as `main` initialises them. -/
def start (fs : FileSystem) (cfg : Config) : PipelineTask glob where
  cfg := cfg
  scopeFilter := ScopeFilter.new glob cfg.scope
  fastPath := FastPath.new fromStr fs cfg.fastPath
  aiAdvisor := AiAdvisor.new cfg.aiAdvisor cfg.fastPath.rulesPath

/-- The reload arm, as far as the components go. -/
def reload (p : PipelineTask glob) (fs : FileSystem) (newCfg : Config) : PipelineTask glob where
  cfg := newCfg
  scopeFilter := ScopeFilter.new glob newCfg.scope
  fastPath := FastPath.new fromStr fs newCfg.fastPath
  aiAdvisor := p.aiAdvisor.updateConfig newCfg.aiAdvisor

/-- The arm of an event, as far as the components go. -/
def event (p : PipelineTask glob) (now : Nat) (ev : NormalizedEvent) : PipelineTask glob :=
  match pipelineEvent glob p.scopeFilter p.fastPath ev with
  | none => p
  | some ev => { p with aiAdvisor := (p.aiAdvisor.gate now ev).1 }

/-- One round of the loop. -/
def round (p : PipelineTask glob) : PipelineInput → PipelineTask glob
  | .reload cfg fs => p.reload fromStr fs cfg
  | .event now ev => p.event now ev

/-- The components after some rounds. -/
def after (p : PipelineTask glob) (inputs : List PipelineInput) : PipelineTask glob :=
  inputs.foldl (fun p input => p.round fromStr input) p

end PipelineTask

end VectorGuard
