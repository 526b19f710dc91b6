import Mathlib.Data.List.Basic

/-!
# Configuration

The tables of `config.toml` that the modelled stages read (`config.rs`). A
stage is built from its own table and keeps what it needs of it, so the tables
are separate records here as they are there.

The adapter endpoints, the log level, the terminal settings and the model
names of the embedding services steer code that is not modelled and are left
out.

## Main definitions

* `ScopeConfig`: Which events enter the pipeline.
* `FastPathConfig`: Where the rules are and what happens without one.
* `SlowPathConfig`: The anomaly detection settings.
* `AiAdvisorConfig`: When the advisor asks for rules, whom, and what becomes of
  them.
* `Config`: The file as a whole.
-/

namespace VectorGuard

structure ScopeConfig where
  targets : List String
  excludeProcesses : List String
  includeNamespaces : List String
  excludeNamespaces : List String
  labelSelectors : List String
  deriving DecidableEq, Repr

inductive DefaultAction
  | block
  | alert
  | log
  deriving DecidableEq, Repr

structure FastPathConfig where
  enabled : Bool
  rulesPath : String
  defaultAction : DefaultAction
  deriving DecidableEq, Repr

/-- The fast path table of the deployed configuration. -/
def FastPathConfig.shipped : FastPathConfig where
  enabled := true
  rulesPath := "/etc/vectorguard/rules"
  defaultAction := .log

inductive VectorDbBackend
  | qdrant
  | usearch
  deriving DecidableEq, Repr

structure SlowPathConfig where
  enabled : Bool
  timeWindowSecs : UInt64
  similarityThreshold : Float32
  vectordb : VectorDbBackend

inductive AiProvider
  | anthropic
  | openai
  deriving DecidableEq, Repr

inductive ApprovalMode
  | manual
  | auto
  deriving DecidableEq, Repr

structure AiAdvisorConfig where
  enabled : Bool
  provider : AiProvider
  apiKeyEnv : String
  model : String
  triggerThreshold : UInt32
  cooldownSeconds : UInt64
  contextWindowSize : Nat
  windowSecs : UInt64
  maxRulesPerFire : Nat
  approvalMode : ApprovalMode
  pendingDir : String
  approvalTtlSecs : UInt64
  reaperIntervalSecs : UInt64
  deriving DecidableEq, Repr

/-- `AiAdvisorConfig::default`. -/
def AiAdvisorConfig.default : AiAdvisorConfig where
  enabled := false
  provider := .anthropic
  apiKeyEnv := ""
  model := ""
  triggerThreshold := 3
  cooldownSeconds := 300
  contextWindowSize := 20
  windowSecs := 60
  maxRulesPerFire := 3
  approvalMode := .manual
  pendingDir := "/etc/vectorguard/pending"
  approvalTtlSecs := 600
  reaperIntervalSecs := 60

structure Config where
  scope : ScopeConfig
  fastPath : FastPathConfig
  slowPath : SlowPathConfig
  aiAdvisor : AiAdvisorConfig

end VectorGuard
