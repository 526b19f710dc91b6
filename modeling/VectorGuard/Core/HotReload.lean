import VectorGuard.Core.FastPath
import VectorGuard.Core.Scope

/-!
# Hot Reload

How a change of `config.toml` gets to the event pipeline (`hotreload.rs`, the
reload arm of `run_pipeline` in `main.rs`).

The file watcher puts a notification into a channel of four, and waits while the
channel is full. The watch loop takes one notification, drains the channel, loads
the file, replaces the shared configuration and publishes the new one to a watch
channel. When the file does not load it publishes the shared configuration
instead. The pipeline takes the latest published value and rebuilds its scope
filter and fast path from it.

Each of these is a step of its own and anything can happen between two of them.
A load that a write comes in between may read anything. Parsing and the contents
of the rules directory are arbitrary.

## Main definitions

* `HotReload`: The file, the channels, and where the two tasks are.
* `HotReloadStep`: One step of the watcher, the watch loop or the pipeline.
* `HotReload.Quiescent`: Nothing is on its way.
-/

namespace VectorGuard

/-- The capacity of the notification channel. -/
def noticeCapacity : Nat := 4

/-- Where the watch loop is. -/
inductive WatchPhase
  /-- At `rx.recv`. -/
  | waiting
  | draining
  /-- Inside `Config::load`, with whether the file was written since it began. -/
  | loading (torn : Bool)
  /-- Before the shared configuration is replaced. -/
  | replacing (cfg : Config)
  /-- Before the shared configuration is read, the file having failed to load. -/
  | rereading
  /-- Before a configuration is published. -/
  | publishing (cfg : Config)

/-- Where the pipeline is with the values of the watch channel. -/
inductive PipelinePhase
  /-- At its `select!`, or with an event. -/
  | selecting
  /-- `changed` has returned. -/
  | changed
  /-- The value is borrowed and nothing is rebuilt yet. -/
  | rebuilding (cfg : Config)

structure HotReload (glob : GlobCrate) where
  /-- The text of `config.toml`, none when it cannot be read. -/
  file : Option String
  /-- A write no notification has been sent after. -/
  owed : Bool
  /-- The number of notifications in the channel. -/
  queued : Nat
  watch : WatchPhase
  /-- The value behind the `Arc<RwLock<Config>>`. -/
  shared : Config
  /-- The value of the watch channel. -/
  published : Config
  /-- The pipeline's receiver has not reported the value yet. -/
  unseen : Bool
  pipeline : PipelinePhase
  /-- What `scopeFilter` and `fastPath` were last built from. -/
  built : Config
  scopeFilter : ScopeFilter glob
  fastPath : FastPath

/-- `Config::load`, without the error. -/
def Config.load (parse : String → Option Config) (file : Option String) : Option Config :=
  file.bind parse

/-- The tasks as they are spawned, with the configuration `main` has loaded. -/
def HotReload.init (glob : GlobCrate) (fromStr : String → Option RuleSet) (fs : FileSystem)
    (file : Option String) (cfg : Config) : HotReload glob where
  file := file
  owed := false
  queued := 0
  watch := .waiting
  shared := cfg
  published := cfg
  unseen := false
  pipeline := .selecting
  built := cfg
  scopeFilter := ScopeFilter.new glob cfg.scope
  fastPath := FastPath.new fromStr fs cfg.fastPath

inductive HotReloadAction
  | write (file : Option String)
  | notify
  | recv
  | drain
  | drained
  | load (file : Option String)
  | replace
  | reread
  | publish
  | changed
  | borrow
  | rebuild (fs : FileSystem)

inductive HotReloadStep (parse : String → Option Config) (fromStr : String → Option RuleSet)
    {glob : GlobCrate} (s : HotReload glob) : HotReloadAction → HotReload glob → Prop
  /-- Somebody writes the file. -/
  | write (file : Option String) :
      HotReloadStep parse fromStr s (.write file)
        { s with
          file := file
          owed := true
          watch := match s.watch with
            | .loading _ => .loading true
            | phase => phase }
  /-- The watcher sends a notification, which it may do at any time. -/
  | notify (hroom : s.queued < noticeCapacity) :
      HotReloadStep parse fromStr s .notify { s with queued := s.queued + 1, owed := false }
  | recv (hphase : s.watch = .waiting) (hsome : 0 < s.queued) :
      HotReloadStep parse fromStr s .recv { s with queued := s.queued - 1, watch := .draining }
  | drain (hphase : s.watch = .draining) (hsome : 0 < s.queued) :
      HotReloadStep parse fromStr s .drain { s with queued := s.queued - 1 }
  | drained (hphase : s.watch = .draining) (hnone : s.queued = 0) :
      HotReloadStep parse fromStr s .drained { s with watch := .loading false }
  /-- A load reads the file as it is, or anything if the file was written meanwhile. -/
  | load (torn : Bool) (file : Option String) (hphase : s.watch = .loading torn)
      (hwhole : torn = false → file = s.file) :
      HotReloadStep parse fromStr s (.load file)
        { s with
          watch := match Config.load parse file with
            | some cfg => .replacing cfg
            | none => .rereading }
  | replace (cfg : Config) (hphase : s.watch = .replacing cfg) :
      HotReloadStep parse fromStr s .replace { s with shared := cfg, watch := .publishing cfg }
  | reread (hphase : s.watch = .rereading) :
      HotReloadStep parse fromStr s .reread { s with watch := .publishing s.shared }
  | publish (cfg : Config) (hphase : s.watch = .publishing cfg) :
      HotReloadStep parse fromStr s .publish
        { s with published := cfg, unseen := true, watch := .waiting }
  | changed (hphase : s.pipeline = .selecting) (hunseen : s.unseen = true) :
      HotReloadStep parse fromStr s .changed { s with unseen := false, pipeline := .changed }
  | borrow (hphase : s.pipeline = .changed) :
      HotReloadStep parse fromStr s .borrow { s with pipeline := .rebuilding s.published }
  | rebuild (cfg : Config) (fs : FileSystem) (hphase : s.pipeline = .rebuilding cfg) :
      HotReloadStep parse fromStr s (.rebuild fs)
        { s with
          pipeline := .selecting
          built := cfg
          scopeFilter := ScopeFilter.new glob cfg.scope
          fastPath := FastPath.new fromStr fs cfg.fastPath }

/-- No notification is queued or still to be sent, the watch loop is waiting, and
    the pipeline has taken every value it was shown. -/
structure HotReload.Quiescent {glob : GlobCrate} (s : HotReload glob) : Prop where
  sent : s.owed = false
  received : s.queued = 0
  waiting : s.watch = .waiting
  seen : s.unseen = false
  taken : s.pipeline = .selecting

end VectorGuard
