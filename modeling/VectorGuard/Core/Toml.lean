import VectorGuard.Core.Text

/-!
# TOML and the Configuration Schema

What `Config::load` accepts (`config.rs`).

The `toml` crate is a parameter. It reads a text as a sequence of expressions,
one or more lines each, which say what key gets what value under what table
header, and puts them together into one table. `Lawful` is what the language
promises of that: documents on consecutive lines are one document, the value of
a key/value line can be replaced where it stands, and which value a key has
changes nothing about the other keys.

The schema is what the derived deserializers demand of that table: every field of
a struct is there or has a default, and every value is of its type. Keys that are
no fields are ignored.

## Main definitions

* `TomlValue`: The values, with looking up and replacing by path.
* `TomlCrate`, `TomlCrate.Lawful`: The crate and what is known of it.
* `Schema`, `Schema.accepts`: What a struct demands.
* `configSchema`: The structs of the configuration.
* `Config.fromStr`: The table of a text that `Config::load` accepts.
-/

namespace VectorGuard

inductive TomlValue
  | string (s : String)
  | integer (n : Int)
  | float (text : String)
  | boolean (b : Bool)
  | datetime (text : String)
  | array (items : List TomlValue)
  | table (entries : List (String × TomlValue))

namespace TomlValue

/-- The value at a path of keys. -/
def get : TomlValue → List String → Option TomlValue
  | v, [] => some v
  | .table entries, k :: rest =>
    match entries.lookup k with
    | some v => get v rest
    | none => none
  | _, _ :: _ => none

/-- Change the value of a key. -/
def mapKey {α : Type} (k : String) (f : α → α) (entries : List (String × α)) :
    List (String × α) :=
  entries.map (fun e => if e.1 = k then (k, f e.2) else e)

/-- Replace what is at a path of keys. -/
def set : TomlValue → List String → TomlValue → TomlValue
  | _, [], new => new
  | .table entries, k :: rest, new => .table (mapKey k (fun v => set v rest new) entries)
  | v, _ :: _, _ => v

end TomlValue

/-- What one expression of a document says. -/
inductive TomlExpr
  | keyval (key : List String) (value : TomlValue)
  | header (path : List String)
  | arrayHeader (path : List String)

/-- The table that key/value expressions add to after an expression. -/
def enterTable (current : Option (List String)) : TomlExpr → Option (List String)
  | .keyval _ _ => current
  | .header path => some path
  | .arrayHeader _ => none

/-- The table that key/value expressions add to after some expressions, none
    right under the header of an array of tables. -/
def currentTable (exprs : List TomlExpr) : Option (List String) :=
  exprs.foldl enterTable (some [])

structure TomlCrate where
  /-- The value a text denotes. -/
  value : String → Option TomlValue
  /-- The expressions of a document, comments and blank lines left out. -/
  expressions : String → Option (List TomlExpr)
  /-- The table that expressions define, none when they clash. -/
  tables : List TomlExpr → Option TomlValue

/-- A key that needs no quotes. -/
def isBareKey (key : String) : Bool :=
  !key.isEmpty && key.toList.all (fun c => c.isAlphanum || c == '-' || c == '_')

/-- The white space a line starts with. -/
def indentOf (line : String) : String :=
  String.ofList (line.toList.takeWhile isWhitespace)

structure TomlCrate.Lawful (toml : TomlCrate) : Prop where
  /-- A newline may be preceded by a carriage return, and the last is optional. -/
  newlines : ∀ text exprs, toml.expressions text = some exprs →
    toml.expressions (joinLines (lines text)) = some exprs
  /-- A document can be continued on the next line, but not with a byte order mark. -/
  append : ∀ first second done, toml.expressions first = some done →
    toml.expressions (first ++ "\n" ++ second)
      = if second.toList.head? = some '\uFEFF' then none
        else (toml.expressions second).map (fun rest => done ++ rest)
  /-- The value on a key/value line can be replaced by another. -/
  keyval : ∀ line key old raw new, '\n' ∉ line.toList → isBareKey key = true →
    toml.expressions line = some [.keyval [key] old] → toml.value raw = some new →
    toml.expressions (indentOf line ++ key ++ " = " ++ raw) = some [.keyval [key] new]
  /-- A key under the header of a table is a key of the table. -/
  defines : ∀ done rest section_ key old doc, currentTable done = some [section_] →
    toml.tables (done ++ .keyval [key] old :: rest) = some doc → doc.get [section_, key] = some old
  /-- It makes no difference to anything else which value a key has. -/
  replaces : ∀ done rest section_ key old new doc, currentTable done = some [section_] →
    toml.tables (done ++ .keyval [key] old :: rest) = some doc →
    toml.tables (done ++ .keyval [key] new :: rest) = some (doc.set [section_, key] new)

/-- The type a key is declared with. -/
inductive KeyType
  | string
  | bool
  /-- An enum of unit variants with its snake case names. -/
  | oneOf (names : List String)
  /-- An unsigned integer up to a maximum. -/
  | unsigned (max : Nat)
  /-- `f32`, which also takes integers. -/
  | float
  | strings
  deriving DecidableEq, Repr

/-- What deserializing a value into a type takes. -/
def KeyType.accepts : KeyType → TomlValue → Bool
  | .string, .string _ => true
  | .bool, .boolean _ => true
  | .oneOf names, .string s => names.contains s
  -- A variant may be spelled as a table of its name with nothing in it.
  | .oneOf names, .table [(s, .table [])] => names.contains s
  | .oneOf names, .table [(s, .array [])] => names.contains s
  | .unsigned max, .integer n => decide (0 ≤ n ∧ n ≤ max)
  | .float, .float _ => true
  | .float, .integer _ => true
  | .strings, .array items => items.all (fun v => match v with
    | .string _ => true
    | _ => false)
  | _, _ => false

/-- A type of the configuration: a key's, or a struct with its fields in order
    and whether each has a default. -/
inductive Schema
  | key (type : KeyType)
  | struct (fields : List (String × Bool × Schema))

mutual

/-- What deserializing a value takes. A struct is a table, or its fields in an array. -/
def Schema.accepts : Schema → TomlValue → Bool
  | .key type, v => type.accepts v
  | .struct fields, .table entries => acceptsEntries fields entries
  | .struct fields, .array items => acceptsItems fields items
  | .struct _, _ => false
termination_by structural s => s

/-- A struct from a table. Keys that are no fields are ignored. -/
def acceptsEntries : List (String × Bool × Schema) → List (String × TomlValue) → Bool
  | [], _ => true
  | (name, hasDefault, schema) :: rest, entries =>
    (match entries.lookup name with
      | some v => schema.accepts v
      | none => hasDefault) && acceptsEntries rest entries
termination_by structural fields => fields

/-- A struct from an array. Items after the last field are ignored. -/
def acceptsItems : List (String × Bool × Schema) → List TomlValue → Bool
  | [], _ => true
  | (_, hasDefault, _) :: rest, [] => hasDefault && acceptsItems rest []
  | (_, _, schema) :: rest, v :: items => schema.accepts v && acceptsItems rest items
termination_by structural fields => fields

end

/-- Whether a value can stand at a path of keys. -/
def Schema.acceptsAt : Schema → List String → TomlValue → Bool
  | schema, [], v => schema.accepts v
  | .struct fields, k :: rest, v => fields.all (fun f => f.1 != k || acceptsAt f.2.2 rest v)
  | .key _, _ :: _, _ => false

/-- `i64::MAX`, the largest integer of the language, for the keys of type `u64` and `usize`. -/
def tomlMax : Nat := 9223372036854775807

def systemSchema : Schema := .struct
  [("log_level", false, .key .string), ("hot_reload", false, .key .bool)]

def scopeSchema : Schema := .struct
  [("targets", false, .key .strings), ("exclude_processes", true, .key .strings),
    ("include_namespaces", false, .key .strings), ("exclude_namespaces", false, .key .strings),
    ("label_selectors", false, .key .strings)]

def adapterSchema : Schema := .struct
  [("backend", false, .key (.oneOf ["tetragon", "falco", "auditd", "native_ebpf"])),
    ("tetragon", false, .struct [("endpoint", false, .key .string)]),
    ("falco", false, .struct [("log_path", false, .key .string)]),
    ("auditd", false, .struct [("log_path", false, .key .string)])]

def fastPathSchema : Schema := .struct
  [("enabled", false, .key .bool), ("rules_path", false, .key .string),
    ("default_action", false, .key (.oneOf ["block", "alert", "log"]))]

def embedderSchema : Schema := .struct
  [("backend", false, .key (.oneOf ["local", "openai", "voyage", "gemini"])),
    ("model", false, .key .string), ("api_key_env", true, .key .string),
    ("endpoint", true, .key .string)]

def vectorDbSchema : Schema := .struct
  [("backend", false, .key (.oneOf ["qdrant", "usearch"])), ("url", false, .key .string),
    ("collection", false, .key .string)]

def slowPathSchema : Schema := .struct
  [("enabled", false, .key .bool), ("time_window_secs", false, .key (.unsigned tomlMax)),
    ("similarity_threshold", false, .key .float), ("embedder", false, embedderSchema),
    ("vectordb", false, vectorDbSchema)]

def tuiSchema : Schema := .struct
  [("refresh_rate_ms", false, .key (.unsigned tomlMax)),
    ("theme", false, .key (.oneOf ["dark", "light"]))]

/-- Every field of `AiAdvisorConfig` has a default. -/
def aiAdvisorSchema : Schema := .struct
  [("enabled", true, .key .bool), ("provider", true, .key (.oneOf ["anthropic", "openai"])),
    ("api_key_env", true, .key .string), ("model", true, .key .string),
    ("trigger_threshold", true, .key (.unsigned 4294967295)),
    ("cooldown_seconds", true, .key (.unsigned tomlMax)),
    ("context_window_size", true, .key (.unsigned tomlMax)),
    ("window_secs", true, .key (.unsigned tomlMax)),
    ("max_rules_per_fire", true, .key (.unsigned tomlMax)),
    ("approval_mode", true, .key (.oneOf ["manual", "auto"])),
    ("pending_dir", true, .key .string), ("approval_ttl_secs", true, .key (.unsigned tomlMax)),
    ("reaper_interval_secs", true, .key (.unsigned tomlMax))]

/-- The derived `Deserialize` of `Config`. -/
def configSchema : Schema := .struct
  [("system", false, systemSchema), ("scope", false, scopeSchema),
    ("adapter", false, adapterSchema), ("fast_path", false, fastPathSchema),
    ("slow_path", false, slowPathSchema), ("tui", false, tuiSchema),
    ("ai_advisor", true, aiAdvisorSchema)]

/-- `toml::from_str` into a `Config`, as the table the configuration is read from. -/
def Config.fromStr (toml : TomlCrate) (text : String) : Option TomlValue :=
  match toml.expressions text with
  | none => none
  | some exprs =>
    match toml.tables exprs with
    | none => none
    | some doc => if configSchema.accepts doc then some doc else none

end VectorGuard
