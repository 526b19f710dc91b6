import VectorGuard.Core.AiAdvisor
import VectorGuard.Core.Json

/-!
# Advice

What the advisor does with an answer (`ai_advisor/mod.rs`). Once `gate` lets an
event through, the provider is asked, the rules are taken out of its answer, and
as many of them as one answer may have are staged one after another, each at a
clock reading of its own. A rule that cannot be staged is passed over.

What the provider is sent is left out, since it may answer anything. The answer
is the JSON value of the response, none when the request fails or the body is no
JSON.

The staged files are read with the others of the rules directory; `rulesListing`
is what `load_dir` finds there.

## Main definitions

* `rulesListing`: The entries of a directory, as they are read.
* `extractToml`: The rules in the text of an answer.
* `stageRules`: The staging loop.
* `AiAdvisor.analyze`: The whole of `analyze`.
-/

namespace VectorGuard

open FileTree

/-- What `fs::read_dir` and `fs::read_to_string` give of an entry. A directory
    cannot be read as a file. -/
def readEntry (fs : FileTree) (e : String × Entry) : DirEntry where
  fileName := bytes e.1
  content := match e.2 with
    | .dir => none
    | .file inode => some (fs.data inode).content

/-- What `load_dir` lists of a path, none when it is not a directory. -/
def rulesListing (fs : FileTree) (dir : String) : Option (List (Option DirEntry)) :=
  ((fs.resolve dir).bind fs.readDir).map (fun entries => entries.map (fun e => some (readEntry fs e)))

/-- `value[index]`: null unless the value is an array that long. -/
def Value.index : Value → Nat → Value
  | array items, i => items.getD i null
  | _, _ => null

/-- The text of a response. -/
def replyText (provider : AiProvider) (response : Value) : String :=
  match provider with
  | .anthropic => (((response.field "content").index 0).field "text").asStr.getD ""
  | .openai =>
    ((((response.field "choices").index 0).field "message").field "content").asStr.getD ""

/-- `str::trim_start`. -/
def trimStart (s : String) : String := String.ofList (s.toList.dropWhile isWhitespace)

/-- One line of an answer, with what was found before and whether a block is open. -/
def extractLine (acc : String × Bool) (line : String) : String × Bool :=
  if !acc.2 then
    (acc.1, startsWith line "```toml" || startsWith (trimStart line) "```toml")
  else if trim line = "```" then (acc.1, false)
  else (acc.1 ++ line ++ "\n", true)

/-- `AiAdvisor::extract_toml`. -/
def extractToml (text : String) : String :=
  let result := ((lines text).foldl extractLine ("", false)).1
  -- An answer without a fence is taken as a whole.
  if result.isEmpty && containsStr text "[[rules]]" then text else result

/-- `AiAdvisor::call_anthropic` and `call_openai`, from the response on. -/
def tomlBlock (provider : AiProvider) (response : Option Value) : Option String :=
  response.bind (fun value =>
    let block := extractToml (replyText provider value)
    if block.isEmpty then none else some block)

/-- A way to stage a rule at a clock reading. -/
abbrev StageCall := FileTree → Nat → Rule → FileTree × Except (Option String) String

/-- The staging loop of `analyze`. -/
def stageRules (call : StageCall) : FileTree → List (Nat × Rule) → FileTree
  | fs, [] => fs
  | fs, (now, rule) :: rest => stageRules call (call fs now rule).1 rest

section

variable (toText : RuleSet → Option String) (fromStr : String → Option RuleSet)

/-- The way an approval mode stages. -/
def ApprovalStore.stageCall (store : ApprovalStore) : ApprovalMode → StageCall
  | .manual => store.stagePending toText
  | .auto => store.stageAuto toText

/-- The rules of an answer, as many as are staged. -/
def proposedRules (provider : AiProvider) (max : Nat) (response : Option Value) : List Rule :=
  match (tomlBlock provider response).bind fromStr with
  | some rs => rs.rules.take max
  | none => []

namespace AiAdvisor

/-- `AiAdvisor::resolve_api_key`. -/
def resolveApiKey (adv : AiAdvisor) (env : String → Option String) : Option String :=
  if adv.cfg.apiKeyEnv.isEmpty then none
  else (env adv.cfg.apiKeyEnv).filter (fun k => !k.isEmpty)

/-- `AiAdvisor::analyze`, with the clock readings of the staging loop in order. -/
def analyze (adv : AiAdvisor) (env : String → Option String) (response : Option Value)
    (fs : FileTree) (now : Nat) (clock : Nat → Nat) (event : NormalizedEvent) :
    AiAdvisor × FileTree :=
  match adv.gate now event with
  | (adv, .passed _ _ _) =>
    match adv.resolveApiKey env with
    | none => (adv, fs)
    | some _ =>
      let proposed := proposedRules fromStr adv.cfg.provider adv.cfg.maxRulesPerFire response
      (adv, stageRules (adv.store.stageCall toText adv.cfg.approvalMode) fs
        (proposed.zipIdx.map (fun (rule, i) => (clock i, rule))))
  | (adv, _) => (adv, fs)

end AiAdvisor

end

end VectorGuard
