import VectorGuard.Core.Text

/-!
# Configuration Editor

The editor of `config.toml` on the config tab of the terminal interface
(`tui/app.rs`, `tui/event.rs`).

The editor keeps the text of the file and twelve fields with a raw value each,
which it finds by scanning the text line by line for a section header and a key.
Confirming an edit rewrites the line the scan finds, if it finds one, and shows
the new value in any case. Saving writes the text.

Keys are those pressed while the tab is in front. Other tabs leave the editor as
it is.

## Main definitions

* `extractTomlValue`, `updateTomlValue`: The scan.
* `buildConfigFields`: The fields of a text.
* `ConfigEditor`: The part of `App` the tab works on.
* `ConfigEditor.press`: What a key does.
-/

namespace VectorGuard

inductive FieldType
  | str
  | bool
  | int
  | float
  deriving DecidableEq, Repr

structure ConfigField where
  section_ : String
  label : String
  tomlKey : String
  description : String
  value : String
  fieldType : FieldType
  deriving DecidableEq, Repr

/-- A trimmed line the scan takes for a section header. -/
def isSectionHeader (trimmed : String) : Bool :=
  startsWith trimmed "[" && !startsWith trimmed "[["

/-- The key and the value of a trimmed line, up to a hash sign. -/
def keyValueOf (trimmed : String) : Option (String × String) :=
  let code := trim (String.ofList (trimmed.toList.takeWhile (fun c => c != '#')))
  (splitOnce '=' code).map (fun kv => (trim kv.1, trim kv.2))

/-- The loop of `extract_toml_value`. -/
def extractFrom (target key : String) : Bool → List String → String
  | _, [] => ""
  | inSection, line :: rest =>
    let trimmed := trim line
    if isSectionHeader trimmed then extractFrom target key (trimmed == target) rest
    else if !inSection then extractFrom target key inSection rest
    else match keyValueOf trimmed with
      | some (k, v) => if k == key then v else extractFrom target key inSection rest
      | none => extractFrom target key inSection rest

/-- `extract_toml_value`. -/
def extractTomlValue (text section_ key : String) : String :=
  extractFrom ("[" ++ section_ ++ "]") key false (lines text)

/-- The line that replaces the one that is found. -/
def rewriteLine (line key newVal : String) : String :=
  String.ofList (line.toList.takeWhile isWhitespace) ++ key ++ " = " ++ newVal

/-- The loop of `update_toml_value`. -/
def updateFrom (target key newVal : String) : Bool → Bool → List String → List String
  | _, _, [] => []
  | inSection, replaced, line :: rest =>
    let trimmed := trim line
    if isSectionHeader trimmed then
      line :: updateFrom target key newVal (trimmed == target) replaced rest
    else if inSection && !replaced then
      match keyValueOf trimmed with
      | some (k, _) =>
        -- Later lines of the key are copied like all others.
        if k == key then
          rewriteLine line key newVal :: updateFrom target key newVal inSection true rest
        else line :: updateFrom target key newVal inSection replaced rest
      | none => line :: updateFrom target key newVal inSection replaced rest
    else line :: updateFrom target key newVal inSection replaced rest

/-- `update_toml_value`. -/
def updateTomlValue (text section_ key newVal : String) : String :=
  joinLines (updateFrom ("[" ++ section_ ++ "]") key newVal false false (lines text))

/-- `build_config_fields`. -/
def buildConfigFields (text : String) : List ConfigField :=
  let field (section_ key description : String) (fieldType : FieldType) : ConfigField :=
    { section_, label := key, tomlKey := key, description
      value := extractTomlValue text section_ key, fieldType }
  [ field "system" "log_level" "debug / info / warn / error" .str,
    field "fast_path" "enabled" "Enable rule engine" .bool,
    field "fast_path" "default_action" "block / alert / log" .str,
    field "slow_path" "enabled" "Enable anomaly detection" .bool,
    field "slow_path" "similarity_threshold" "Vector similarity threshold 0-1" .float,
    field "ai_advisor" "enabled" "Enable AI rule generation" .bool,
    field "ai_advisor" "provider" "anthropic / openai" .str,
    field "ai_advisor" "api_key_env" "Env var holding API key" .str,
    field "ai_advisor" "model" "Model name (e.g. claude-sonnet-4-6)" .str,
    field "ai_advisor" "trigger_threshold" "Pattern count to trigger AI call" .int,
    field "tui" "refresh_rate_ms" "TUI refresh rate in ms" .int,
    field "tui" "theme" "dark / light" .str ]

structure ConfigEditor where
  /-- What is in the file. -/
  file : String
  text : String
  fields : List ConfigField
  fieldIdx : Nat
  editing : Bool
  editBuf : String
  modified : Bool
  deriving DecidableEq, Repr

inductive Key
  | esc
  | enter
  | backspace
  | up
  | down
  | char (c : Char)
  deriving DecidableEq, Repr

namespace ConfigEditor

/-- The part of `App::with_approval`, with the text read from the file. -/
def new (text : String) : ConfigEditor where
  file := text
  text := text
  fields := buildConfigFields text
  fieldIdx := 0
  editing := false
  editBuf := ""
  modified := false

/-- `App::start_config_edit`. -/
def startConfigEdit (e : ConfigEditor) : ConfigEditor :=
  match e.fields[e.fieldIdx]? with
  | some field => { e with editBuf := trimMatches '"' field.value, editing := true }
  | none => e

/-- `App::cancel_config_edit`. -/
def cancelConfigEdit (e : ConfigEditor) : ConfigEditor :=
  { e with editing := false, editBuf := "" }

/-- The raw value of what was typed. -/
def rawValue (fieldType : FieldType) (editBuf : String) : String :=
  match fieldType with
  | .str => "\"" ++ trim editBuf ++ "\""
  | _ => trim editBuf

/-- `App::confirm_config_edit`. -/
def confirmConfigEdit (e : ConfigEditor) : ConfigEditor :=
  let e := match e.fields[e.fieldIdx]? with
    | some field =>
      -- The field shows the new value whether or not the text has a line for it.
      let raw := rawValue field.fieldType e.editBuf
      { e with
        text := updateTomlValue e.text field.section_ field.tomlKey raw
        fields := e.fields.set e.fieldIdx { field with value := raw }
        modified := true }
    | none => e
  { e with editing := false, editBuf := "" }

/-- `App::save_config`, the write succeeding. -/
def saveConfig (e : ConfigEditor) : ConfigEditor :=
  { e with file := e.text, modified := false }

/-- `App::scroll_config_up`. -/
def scrollConfigUp (e : ConfigEditor) : ConfigEditor := { e with fieldIdx := e.fieldIdx - 1 }

/-- `App::scroll_config_down`. -/
def scrollConfigDown (e : ConfigEditor) : ConfigEditor :=
  if e.fieldIdx + 1 < e.fields.length then { e with fieldIdx := e.fieldIdx + 1 } else e

/-- `String::pop`. -/
def popChar (s : String) : String := String.ofList s.toList.dropLast

/-- A key in `EventHandler::handle` while a field is edited. -/
def pressEditing (e : ConfigEditor) : Key → ConfigEditor
  | .esc => e.cancelConfigEdit
  | .enter => e.confirmConfigEdit
  | .backspace => { e with editBuf := popChar e.editBuf }
  | .char c =>
    -- Any character toggles a Boolean and confirms it.
    if (e.fields[e.fieldIdx]?).any (fun f => f.fieldType = .bool) then
      { e with editBuf := if e.editBuf = "true" then "false" else "true" }.confirmConfigEdit
    else { e with editBuf := e.editBuf.push c }
  | _ => e

/-- A key in `EventHandler::handle`. -/
def press (e : ConfigEditor) (key : Key) : ConfigEditor :=
  if e.editing then e.pressEditing key
  else match key with
    | .up | .char 'k' => e.scrollConfigUp
    | .down | .char 'j' => e.scrollConfigDown
    | .enter | .char 'e' => e.startConfigEdit
    | .char 's' => e.saveConfig
    | _ => e

end ConfigEditor

end VectorGuard
