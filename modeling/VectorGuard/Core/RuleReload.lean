import VectorGuard.Core.Advice
import VectorGuard.Core.HotReload

/-!
# Rule Reload

How a change of the rules directory gets to the event pipeline (`hotreload.rs`, the
reload arm of `run_pipeline` in `main.rs`).

The directory is watched by the watcher of `config.toml`, which sends a notification into
the same channel. The watch loop does not know which of them it was: it loads the file and
publishes a configuration, and the pipeline reads the directory again because it builds a
fast path from it.

It is watched only if it is there when the watcher is started, at the path the
configuration has then, and a directory that is removed is not watched when it comes back.
A rebuild that the directory changes under may read anything.

## Main definitions

* `RuleReload`: The files and the tasks that reload them.
* `RuleReload.edited`: What a change of the files does.
* `RuleReloadStep`: A step of a task, or a change of the files.
-/

namespace VectorGuard

/-- Two listings of one directory, which may be in another order. -/
def SameListing : Option (List (Option DirEntry)) → Option (List (Option DirEntry)) → Prop :=
  Option.Rel List.Perm

structure RuleReload (glob : GlobCrate) where
  hot : HotReload glob
  fs : FileTree
  /-- The path that is watched. -/
  dir : String
  /-- The directory has been there ever since the watcher was started. -/
  watched : Bool
  /-- The directory was changed since the pipeline began to read it. -/
  torn : Bool

variable {glob : GlobCrate}

/-- The tasks as they are spawned, with a watcher on the directory if it is there. -/
def RuleReload.init (glob : GlobCrate) (fromStr : String → Option RuleSet) (listings : FileSystem)
    (fs : FileTree) (file : Option String) (cfg : Config) : RuleReload glob where
  hot := HotReload.init glob fromStr listings file cfg
  fs := fs
  dir := cfg.fastPath.rulesPath
  watched := (rulesListing fs cfg.fastPath.rulesPath).isSome
  torn := false

/-- The files have changed. What a reader of the directory can notice, the watcher can. -/
def RuleReload.edited (s : RuleReload glob) (fs : FileTree) : RuleReload glob :=
  if rulesListing fs s.dir = rulesListing s.fs s.dir then { s with fs := fs }
  else
    { s with
      fs := fs
      hot := { s.hot with owed := s.hot.owed || s.watched }
      watched := s.watched && (rulesListing fs s.dir).isSome
      torn := true }

/-- The pipeline begins to read once it has borrowed the configuration. -/
def HotReloadAction.tornAfter (torn : Bool) : HotReloadAction → Bool
  | .borrow => false
  | _ => torn

inductive RuleReloadAction (κ : Type)
  | reload (a : HotReloadAction)
  | edit (k : κ)

inductive RuleReloadStep (parse : String → Option Config) (fromStr : String → Option RuleSet)
    {κ : Type} (edit : FileTree → κ → FileTree) (s : RuleReload glob) :
    RuleReloadAction κ → RuleReload glob → Prop
  /-- A step of the watcher, the watch loop or the pipeline. -/
  | reload (a : HotReloadAction) (hot : HotReload glob)
      (h : HotReloadStep parse fromStr s.hot a hot)
      (hwhole : ∀ cfg listings, a = .rebuild listings → s.hot.pipeline = .rebuilding cfg →
        cfg.fastPath.rulesPath = s.dir → s.torn = false →
        SameListing (listings s.dir) (rulesListing s.fs s.dir)) :
      RuleReloadStep parse fromStr edit s (.reload a)
        { s with hot := hot, torn := a.tornAfter s.torn }
  /-- Somebody changes the files. -/
  | edit (k : κ) : RuleReloadStep parse fromStr edit s (.edit k) (s.edited (edit s.fs k))

end VectorGuard
