import VectorGuard.Core.Enforcer
import VectorGuard.Core.FastPath

/-!
# Start-up and Reload

How the daemon's tasks hand the kernel maps over (`main.rs`, `hotreload.rs`).

The collector task builds a fast path of its own from the configuration the
daemon was started with, loads its rules into the maps and then publishes the
enforcer. The main task builds the fast path the pipeline starts with from the
same configuration, in its own time. Each of the two reads the rules directory
when it gets there.

An edit of the configuration or of the rules is noticed by the watcher, which
puts the configuration it reads into the reload channel. The pipeline takes
what is in the channel, rebuilds its fast path, and loads the maps if an
enforcer has been published by then. Otherwise the reload ends there.

Loads are taken as steps of their own: until publication the collector owns
the enforcer, and afterwards the pipeline uses it under a lock.

## Main definitions

* `Daemon`: The state the tasks share.
* `DaemonStep`: One step of a task, or one edit.
* `Daemon.Quiescent`: Start-up is finished and no reload is pending.
-/

namespace VectorGuard

/-- How far the collector task has come, with the fast path it built. -/
inductive CollectorPhase
  | starting
  | built (tmpFp : FastPath)
  | loaded (tmpFp : FastPath)
  | published (tmpFp : FastPath)

structure Daemon where
  /-- The configuration at start-up, kept by the collector task and `main`. -/
  startCfg : FastPathConfig
  /-- The configuration the watcher reads when it looks. -/
  cfg : FastPathConfig
  fs : FileSystem
  /-- An edit the watcher has not noticed yet. -/
  dirty : Bool
  /-- The value of the reload channel. -/
  sent : FastPathConfig
  /-- The pipeline has not seen the value of the channel yet. -/
  changed : Bool
  collector : CollectorPhase
  /-- The pipeline's fast path, none before the pipeline is started. -/
  fastPath : Option FastPath
  /-- The pipeline is between rebuilding its fast path and loading the maps. -/
  reloading : Bool
  maps : BlockMaps

/-- The daemon when its tasks are spawned. -/
def Daemon.init (cfg : FastPathConfig) (fs : FileSystem) (maps : BlockMaps) : Daemon where
  startCfg := cfg
  cfg := cfg
  fs := fs
  dirty := false
  sent := cfg
  changed := false
  collector := .starting
  fastPath := none
  reloading := false
  maps := maps

inductive DaemonAction
  | editConfig (cfg : FastPathConfig)
  | editRules (fs : FileSystem)
  | notice
  | collectorBuild
  | collectorLoad
  | collectorPublish
  | pipelineStart
  | reloadBuild
  | reloadLoad
  | reloadSkip

/-- One step. Loads of the maps are taken to succeed. -/
inductive DaemonStep (fromStr : String → Option RuleSet) (s : Daemon) :
    DaemonAction → Daemon → Prop
  | editConfig (cfg : FastPathConfig) :
      DaemonStep fromStr s (.editConfig cfg) { s with cfg := cfg, dirty := true }
  | editRules (fs : FileSystem) :
      DaemonStep fromStr s (.editRules fs) { s with fs := fs, dirty := true }
  | notice :
      DaemonStep fromStr s .notice { s with sent := s.cfg, changed := true, dirty := false }
  | collectorBuild (hphase : s.collector = .starting) :
      DaemonStep fromStr s .collectorBuild
        { s with collector := .built (FastPath.new fromStr s.fs s.startCfg) }
  | collectorLoad (tmpFp : FastPath) (maps : BlockMaps) (hphase : s.collector = .built tmpFp)
      (hload : loadRules s.maps tmpFp.rules = (maps, .ok ())) :
      DaemonStep fromStr s .collectorLoad { s with collector := .loaded tmpFp, maps := maps }
  | collectorPublish (tmpFp : FastPath) (hphase : s.collector = .loaded tmpFp) :
      DaemonStep fromStr s .collectorPublish { s with collector := .published tmpFp }
  | pipelineStart (hstart : s.fastPath = none) :
      DaemonStep fromStr s .pipelineStart
        { s with fastPath := some (FastPath.new fromStr s.fs s.startCfg) }
  | reloadBuild (hstart : s.fastPath ≠ none) (hchanged : s.changed = true)
      (hidle : s.reloading = false) :
      DaemonStep fromStr s .reloadBuild
        { s with
          fastPath := some (FastPath.new fromStr s.fs s.sent)
          changed := false
          reloading := true }
  | reloadLoad (fp tmpFp : FastPath) (maps : BlockMaps) (hbusy : s.reloading = true)
      (hfp : s.fastPath = some fp) (hphase : s.collector = .published tmpFp)
      (hload : loadRules s.maps fp.rules = (maps, .ok ())) :
      DaemonStep fromStr s .reloadLoad { s with maps := maps, reloading := false }
  | reloadSkip (hbusy : s.reloading = true)
      (hphase : ∀ tmpFp, s.collector ≠ .published tmpFp) :
      DaemonStep fromStr s .reloadSkip { s with reloading := false }

/-- Start-up is finished, with the fast paths of the two tasks as given, and no
    edit is on its way to the kernel. -/
structure Daemon.Quiescent (s : Daemon) (tmpFp fp : FastPath) : Prop where
  published : s.collector = .published tmpFp
  started : s.fastPath = some fp
  noticed : s.dirty = false
  seen : s.changed = false
  idle : s.reloading = false

end VectorGuard
