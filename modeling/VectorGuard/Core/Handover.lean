import VectorGuard.Core.Enforcer
import VectorGuard.Core.FastPath

/-!
# Rule Handover

How the rules of a configuration get to the kernel enforcer (`main.rs`).

A fast path is built three times over: by the collector task for the enforcer's
first load, by `main` for the pipeline, and by every reload. Each build reads the
directory the configuration names, as it is then, and the enforcer is handed what
`FastPath::rules` returns. A load that the maps refuse is logged and leaves them
as they are at that point.

The enforcer is out of the pipeline's reach until the collector has published it,
so a reload before that ends without a load.

## Main definitions

* `BuiltFastPath`: A fast path with what it was built from.
* `Handover`: The tasks, the maps and the fast path the enforcer was last handed.
* `HandoverStep`: One step of a task.
* `Handover.SwitchedOff`: The fast path is off and the enforcer has had its turn.
-/

namespace VectorGuard

variable (fromStr : String → Option RuleSet)

/-- A fast path, the configuration and the directories it was built from. -/
structure BuiltFastPath where
  cfg : FastPathConfig
  fs : FileSystem
  fastPath : FastPath
  eq_new : fastPath = FastPath.new fromStr fs cfg

/-- `FastPath::new` at a moment. -/
def BuiltFastPath.build (cfg : FastPathConfig) (fs : FileSystem) : BuiltFastPath fromStr :=
  ⟨cfg, fs, FastPath.new fromStr fs cfg, rfl⟩

/-- How far the collector task has come. -/
inductive EnforcerPhase
  | starting
  | built (tmpFp : BuiltFastPath fromStr)
  | loaded
  | published

structure Handover where
  startCfg : FastPathConfig
  enforcer : EnforcerPhase fromStr
  /-- The pipeline's fast path, none before the pipeline is started. -/
  pipeline : Option (BuiltFastPath fromStr)
  /-- The pipeline is between rebuilding its fast path and loading the maps. -/
  reloading : Bool
  maps : BlockMaps
  /-- The fast path whose rules the enforcer was handed last. -/
  handed : Option (BuiltFastPath fromStr)

/-- The tasks as they are spawned. -/
def Handover.init (cfg : FastPathConfig) (maps : BlockMaps) : Handover fromStr where
  startCfg := cfg
  enforcer := .starting
  pipeline := none
  reloading := false
  maps := maps
  handed := none

/-- The current configuration has the fast path off, and the enforcer was handed
    the rules of that configuration. -/
structure Handover.SwitchedOff {fromStr : String → Option RuleSet} (s : Handover fromStr)
    (handed : BuiltFastPath fromStr) : Prop where
  handed_eq : s.handed = some handed
  current : ∃ current, s.pipeline = some current ∧ current.cfg = handed.cfg
  disabled : handed.cfg.enabled = false

inductive HandoverAction
  | enforcerBuild (fs : FileSystem)
  | enforcerLoad
  | enforcerPublish
  | pipelineStart (fs : FileSystem)
  | reloadBuild (cfg : FastPathConfig) (fs : FileSystem)
  | reloadLoad
  | reloadSkip

variable {fromStr}

inductive HandoverStep (s : Handover fromStr) : HandoverAction → Handover fromStr → Prop
  | enforcerBuild (fs : FileSystem) (hphase : s.enforcer = .starting) :
      HandoverStep s (.enforcerBuild fs)
        { s with enforcer := .built (BuiltFastPath.build fromStr s.startCfg fs) }
  | enforcerLoad (tmpFp : BuiltFastPath fromStr) (hphase : s.enforcer = .built tmpFp) :
      HandoverStep s .enforcerLoad
        { s with
          enforcer := .loaded
          maps := (loadRules s.maps tmpFp.fastPath.rules).1
          handed := some tmpFp }
  | enforcerPublish (hphase : s.enforcer = .loaded) :
      HandoverStep s .enforcerPublish { s with enforcer := .published }
  | pipelineStart (fs : FileSystem) (hstart : s.pipeline = none) :
      HandoverStep s (.pipelineStart fs)
        { s with pipeline := some (BuiltFastPath.build fromStr s.startCfg fs) }
  /-- The reload arm, up to the enforcer. -/
  | reloadBuild (cfg : FastPathConfig) (fs : FileSystem) (hstart : s.pipeline ≠ none)
      (hidle : s.reloading = false) :
      HandoverStep s (.reloadBuild cfg fs)
        { s with pipeline := some (BuiltFastPath.build fromStr cfg fs), reloading := true }
  | reloadLoad (fp : BuiltFastPath fromStr) (hbusy : s.reloading = true)
      (hfp : s.pipeline = some fp) (hphase : s.enforcer = .published) :
      HandoverStep s .reloadLoad
        { s with
          maps := (loadRules s.maps fp.fastPath.rules).1
          handed := some fp
          reloading := false }
  | reloadSkip (hbusy : s.reloading = true) (hphase : s.enforcer ≠ .published) :
      HandoverStep s .reloadSkip { s with reloading := false }

end VectorGuard
