import Mathlib.Data.List.Sort
import VectorGuard.Core.Advice
import VectorGuard.Core.Embedders

/-!
# Prompt

What the advisor sends to the provider (`ai_advisor/mod.rs`): the rule files of the
directory, one after the other by name, and a line for each event of the context.

Only the rule of an event is quoted. The other texts of an event stand in its line as they
are. The `Debug` text of a string is a parameter, since it depends on the tables of Unicode.

## Main definitions

* `currentRules`: The text of the rule files.
* `buildPrompt`: The prompt.
* `callProvider`: The request with a prompt.
* `AiAdvisor.post`: What an analysis sends.
-/

namespace VectorGuard

/-- A request with its headers. -/
structure ProviderPost where
  url : String
  headers : List (String × String)
  body : Value

/-- What an event is about. -/
def EventType.promptText : EventType → String
  | .fileAccess path _ => "file_access path=" ++ path
  | .network _ remoteIp port _ => "network remote=" ++ remoteIp.display ++ ":" ++ toString port
  | .exec => "exec"
  | .privilege syscall _ => "privilege syscall=" ++ syscall
  | .signal signum _ => "signal sig=" ++ toString signum

/-- `load_current_rules`. -/
def currentRules (fs : FileTree) (rulesPath : String) : String :=
  let entries := ((rulesListing fs rulesPath).getD []).reduceOption
  let paths := (entries.filter (fun e => e.extension = some (bytes "toml"))).insertionSort
    (fun e e' => e.fileName ≤ e'.fileName)
  String.join ((paths.filterMap DirEntry.content).map (fun content => content ++ "\n"))

section

variable (debugStr : String → String)

/-- The `Debug` text of an optional string. -/
def debugOption : Option String → String
  | none => "None"
  | some s => "Some(" ++ debugStr s ++ ")"

/-- The line of an event. -/
def eventSummary (ev : NormalizedEvent) : String :=
  "binary=" ++ ev.process.binary ++ " uid=" ++ toString ev.process.uid ++ " action="
    ++ ev.action.debug ++ " type=" ++ ev.eventType.promptText ++ " rule="
    ++ debugOption debugStr ev.ruleName

/-- `AiAdvisor::build_prompt`, with the rules that are loaded for it. -/
def buildPrompt (currentRules : String) (max : Nat) (context : List NormalizedEvent) : String :=
  "You are a security rule advisor for VectorGuard, an eBPF-based security monitoring tool.\n"
    ++ "\n"
    ++ "Current fast-path rules (TOML):\n"
    ++ "```toml\n" ++ currentRules ++ "```\n"
    ++ "\n"
    ++ "Recent anomalous events (repeated pattern detected):\n"
    ++ "\n".intercalate (context.map (eventSummary debugStr)) ++ "\n"
    ++ "\n"
    ++ "Based on this pattern, suggest 1-" ++ toString max ++ " new security rules. "
    ++ "Each rule MUST include a `description` field with a single-sentence "
    ++ "rationale explaining why the rule is being proposed — a human reviewer "
    ++ "will read this before approving.\n"
    ++ "\n"
    ++ "Use this TOML structure (all match fields are optional, AND-combined):\n"
    ++ "```toml\n"
    ++ "[[rules]]\n"
    ++ "name              = \"rule-name\"      # unique, kebab-case\n"
    ++ "action            = \"alert\"           # block | alert | log\n"
    ++ "description       = \"why this rule\"   # one-sentence rationale (required)\n"
    ++ "match_process     = [\"binary\"]        # process comm name globs\n"
    ++ "match_path_prefix = [\"/path/\"]       # file path prefixes\n"
    ++ "match_exec_path   = [\"/bin/sh\"]      # executed binary path prefixes\n"
    ++ "match_port        = [4444]             # destination ports\n"
    ++ "match_uid         = 0                  # user ID\n"
    ++ "```\n"
    ++ "Reply with only the TOML block(s), no commentary."

end

/-- The body of a request. -/
def chatBody (model prompt : String) : Value :=
  .object [("model", .string model), ("max_tokens", .posInt 1024),
    ("messages", .array [.object [("role", .string "user"), ("content", .string prompt)]])]

/-- `AiAdvisor::call_anthropic` and `call_openai`, up to the response. -/
def callProvider (cfg : AiAdvisorConfig) (prompt apiKey : String) : ProviderPost :=
  match cfg.provider with
  | .anthropic =>
    { url := "https://api.anthropic.com/v1/messages"
      headers := [("x-api-key", apiKey), ("anthropic-version", "2023-06-01"),
        ("content-type", "application/json")]
      body := chatBody (if cfg.model.isEmpty then "claude-sonnet-4-6" else cfg.model) prompt }
  | .openai =>
    { url := "https://api.openai.com/v1/chat/completions"
      headers := [("Authorization", "Bearer " ++ apiKey), ("content-type", "application/json")]
      body := chatBody (if cfg.model.isEmpty then "gpt-4o" else cfg.model) prompt }

/-- What `analyze` sends. -/
def AiAdvisor.post (debugStr : String → String) (adv : AiAdvisor) (env : String → Option String)
    (fs : FileTree) (now : Nat) (event : NormalizedEvent) : Option ProviderPost :=
  match adv.gate now event with
  | (adv, .passed _ _ context) =>
    (adv.resolveApiKey env).map (fun apiKey =>
      callProvider adv.cfg (buildPrompt debugStr (currentRules fs adv.rulesPath)
        adv.cfg.maxRulesPerFire context) apiKey)
  | _ => none

end VectorGuard
