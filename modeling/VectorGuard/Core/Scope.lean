import VectorGuard.Core.Config
import VectorGuard.Core.Rules

/-!
# Scope Filter

The first pipeline stage, which decides whether an event is processed at all
(`scope.rs`). Patterns are compiled when the filter is built and those that do
not compile are dropped, so a list of invalid patterns behaves like an empty
one. The namespace and label filters apply to events with pod metadata only.

## Main definitions

* `ScopeFilter`: The compiled filter.
* `ScopeFilter.new`: Compiling a configuration.
* `ScopeFilter.allows`: Whether an event passes.
-/

namespace VectorGuard

structure ScopeFilter (glob : GlobCrate) where
  targetPatterns : List glob.Pattern
  excludeProcesses : List glob.Pattern
  includeNs : List glob.Pattern
  excludeNs : List glob.Pattern
  labelSelectors : List (String × String)

/-- `compile_patterns`. -/
def compilePatterns (glob : GlobCrate) (raw : List String) : List glob.Pattern :=
  raw.filterMap glob.new

/-- One label selector, split at its first equals sign. -/
def labelSelector (s : String) : Option (String × String) :=
  match s.toList.dropWhile (fun c => c != '=') with
  | [] => none
  | _ :: value =>
    let k := trim (String.ofList (s.toList.takeWhile (fun c => c != '=')))
    let v := trim (String.ofList value)
    if k.isEmpty then none else some (k, v)

namespace ScopeFilter

variable {glob : GlobCrate}

/-- `ScopeFilter::new`. -/
def new (glob : GlobCrate) (cfg : ScopeConfig) : ScopeFilter glob where
  targetPatterns := compilePatterns glob cfg.targets
  excludeProcesses := compilePatterns glob cfg.excludeProcesses
  includeNs := compilePatterns glob cfg.includeNamespaces
  excludeNs := compilePatterns glob cfg.excludeNamespaces
  labelSelectors := cfg.labelSelectors.filterMap labelSelector

/-- `ScopeFilter::allows`. -/
def allows (f : ScopeFilter glob) (event : NormalizedEvent) : Bool :=
  let binary := event.process.binary
  if f.excludeProcesses.any (fun p => glob.accepts p binary) then false
  else if !f.targetPatterns.isEmpty && !f.targetPatterns.any (fun p => glob.accepts p binary) then
    false
  else match event.k8s with
    | none => true
    | some k8s =>
      let ns := k8s.nameSpace
      if !f.includeNs.isEmpty && !f.includeNs.any (fun p => glob.accepts p ns) then false
      else if f.excludeNs.any (fun p => glob.accepts p ns) then false
      else f.labelSelectors.all (fun kv => k8s.labels.lookup kv.1 == some kv.2)

end ScopeFilter

end VectorGuard
