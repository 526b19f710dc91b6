import VectorGuard.Core.Daemon
import VectorGuard.Core.RuleReload

/-!
# Enforcement

How a change of the rules directory gets to the kernel (`main.rs`, the reload arm of
`run_pipeline` and the collector task).

The reload arm goes on after the fast path is rebuilt: it takes the enforcer, if there is
one by then, and loads the maps from the rules it has just read. No other event of the
pipeline comes in between, so the next configuration is taken only after the load. The
enforcer is there once the collector task has published it, and before that the task
loads the maps itself, from a fast path of its own.

A load that does not fit is only logged, and the maps keep what it left. Reading the
directory and loading the maps are steps of their own.

## Main definitions

* `Enforcement`: The tasks, the files and the maps.
* `EnforcementStep`: A step of a task, or a change of the files.
* `Enforcement.Quiescent`: Nothing is on its way to the kernel.
-/

namespace VectorGuard

structure Enforcement (glob : GlobCrate) where
  reload : RuleReload glob
  /-- The configuration at start-up, kept by the collector task. -/
  startCfg : FastPathConfig
  collector : CollectorPhase
  /-- The pipeline has rebuilt its fast path and is at the enforcer. -/
  handing : Bool
  maps : BlockMaps

variable {glob : GlobCrate}

/-- The tasks as they are spawned. -/
def Enforcement.init (glob : GlobCrate) (fromStr : String → Option RuleSet)
    (listings : FileSystem) (fs : FileTree) (file : Option String) (cfg : Config)
    (maps : BlockMaps) : Enforcement glob where
  reload := RuleReload.init glob fromStr listings fs file cfg
  startCfg := cfg.fastPath
  collector := .starting
  handing := false
  maps := maps

/-- A step of the reload that ends with a new fast path. -/
def RuleReloadAction.rebuilds {κ : Type} : RuleReloadAction κ → Bool
  | .reload (.rebuild _) => true
  | _ => false

inductive EnforcementAction (κ : Type)
  | reload (a : RuleReloadAction κ)
  | collectorBuild (listings : FileSystem)
  | collectorLoad
  | collectorPublish
  | load
  | skip

inductive EnforcementStep (parse : String → Option Config) (fromStr : String → Option RuleSet)
    {κ : Type} (edit : FileTree → κ → FileTree) (s : Enforcement glob) :
    EnforcementAction κ → Enforcement glob → Prop
  /-- A step of the reload, or a change of the files. -/
  | reload (a : RuleReloadAction κ) (t : RuleReload glob)
      (h : RuleReloadStep parse fromStr edit s.reload a t)
      (hfree : a = .reload .changed → s.handing = false) :
      EnforcementStep parse fromStr edit s (.reload a)
        { s with reload := t, handing := s.handing || a.rebuilds }
  | collectorBuild (listings : FileSystem) (hphase : s.collector = .starting) :
      EnforcementStep parse fromStr edit s (.collectorBuild listings)
        { s with collector := .built (FastPath.new fromStr listings s.startCfg) }
  | collectorLoad (tmpFp : FastPath) (hphase : s.collector = .built tmpFp) :
      EnforcementStep parse fromStr edit s .collectorLoad
        { s with collector := .loaded tmpFp, maps := (loadRules s.maps tmpFp.rules).1 }
  | collectorPublish (tmpFp : FastPath) (hphase : s.collector = .loaded tmpFp) :
      EnforcementStep parse fromStr edit s .collectorPublish
        { s with collector := .published tmpFp }
  | load (tmpFp : FastPath) (hbusy : s.handing = true) (hphase : s.collector = .published tmpFp) :
      EnforcementStep parse fromStr edit s .load
        { s with handing := false, maps := (loadRules s.maps s.reload.hot.fastPath.rules).1 }
  | skip (hbusy : s.handing = true) (hphase : ∀ tmpFp, s.collector ≠ .published tmpFp) :
      EnforcementStep parse fromStr edit s .skip { s with handing := false }

/-- No reload is pending, and the pipeline is not at the enforcer. -/
structure Enforcement.Quiescent (s : Enforcement glob) : Prop where
  reload : s.reload.hot.Quiescent
  handed : s.handing = false

end VectorGuard
