import VectorGuard.Core.Event

/-!
# Rules

Rule files, rule evaluation and the built-in rules (`fast_path/rules.rs`).

A rule is a conjunction: every condition it configures must hold of the event,
and an empty list configures nothing. `matchesEvent` tests the conditions in
the order the code does, and each of the last three also fixes the event type
it applies to. The first matching rule decides.

Two crates are parameters. `GlobCrate` is the glob matcher, of which only
`Pattern::new` and `Pattern::matches` are used; a pattern that does not
compile matches nothing. The TOML parser is a function from the text of a file
to its rules, none when the text is not a rule file.

`loadDir` takes what `fs::read_dir` lists, in the order it lists it. An entry
that cannot be read, has another extension or does not parse adds nothing. The
built-in rules stand in when the files together hold no rule at all.

## Main definitions

* `Rule`: One rule, with its conditions.
* `Rule.matchesEvent`: Whether every configured condition holds of an event.
* `RuleSet.evaluate`: The verdict and name of the first matching rule.
* `RuleSet.loadDir`: The rules of a directory listing.
* `builtinRules`: The rules used when a directory holds none.

## Theorems

* `toAction_inj`: Rule actions map to distinct event actions.
* `evaluate_eq_some`: The verdict and name are those of the first matching rule.
-/

namespace VectorGuard

/-- The glob crate, as far as the code uses it. -/
structure GlobCrate where
  Pattern : Type
  /-- `Pattern::new`, none for a pattern that does not compile. -/
  new : String → Option Pattern
  /-- `Pattern::matches`. -/
  accepts : Pattern → String → Bool

/-- Compile a pattern and match it, an invalid pattern matching nothing. -/
def GlobCrate.hit (glob : GlobCrate) (pat s : String) : Bool :=
  match glob.new pat with
  | some p => glob.accepts p s
  | none => false

/-- The glob crate on patterns without metacharacters, which match exactly
    themselves. -/
def GlobCrate.literal : GlobCrate where
  Pattern := String
  new := some
  accepts p s := p == s

/-- A pattern of characters, question marks and stars against a text. -/
def starMatch : List Char → List Char → Bool
  | [], cs => cs.isEmpty
  | p :: ps, cs =>
    if p = '*' then cs.tails.any (fun t => starMatch ps t)
    else match cs with
      | [] => false
      | c :: cs => (p == '?' || p == c) && starMatch ps cs

/-- The glob crate on patterns without complete character classes and without two
    stars in a row. A bracket that is not closed is an error. -/
def GlobCrate.starred : GlobCrate where
  Pattern := List Char
  new pat := if '[' ∈ pat.toList then none else some pat.toList
  accepts p s := starMatch p s.toList

inductive RuleAction
  | block
  | alert
  | log
  | allow
  deriving DecidableEq, Repr

/-- `to_action`. -/
def RuleAction.toAction : RuleAction → Action
  | .block => .blocked
  | .alert => .alerted
  | .log => .logged
  | .allow => .allowed

theorem toAction_inj (a b : RuleAction) (h : a.toAction = b.toAction) : a = b := by
  cases a <;> cases b <;> first
    | rfl
    | exact absurd h (by simp only [RuleAction.toAction, reduceCtorEq, not_false_eq_true])

structure Rule where
  name : String
  action : RuleAction
  /-- Free text for the reviewer; not used for matching. -/
  description : Option String
  /-- Globs for the process name. -/
  matchProcess : List String
  /-- Path prefixes, for file access events. -/
  matchPathPrefix : List String
  /-- Executable path prefixes, for exec events. -/
  matchExecPath : List String
  /-- Destination ports, for network events. -/
  matchPort : List UInt16
  matchUid : Option UInt32
  deriving DecidableEq, Repr

structure RuleSet where
  rules : List Rule
  deriving DecidableEq, Repr

/-- A rule without conditions, which matches every event. -/
def Rule.bare (name : String) (action : RuleAction) : Rule where
  name := name
  action := action
  description := none
  matchProcess := []
  matchPathPrefix := []
  matchExecPath := []
  matchPort := []
  matchUid := none

namespace Rule

variable (glob : GlobCrate) (r : Rule) (event : NormalizedEvent)

/-- Process name glob filter. -/
def processFilter : Bool :=
  r.matchProcess.isEmpty || r.matchProcess.any (fun pat => glob.hit pat event.process.binary)

/-- UID filter. -/
def uidFilter : Bool :=
  match r.matchUid with
  | some uid => event.process.uid == uid
  | none => true

/-- Port filter (network events only). -/
def portFilter : Bool :=
  r.matchPort.isEmpty || match event.eventType with
    | .network _ _ port _ => r.matchPort.contains port
    | _ => false

/-- File path prefix filter (file access events only). -/
def pathFilter : Bool :=
  r.matchPathPrefix.isEmpty || match event.eventType with
    | .fileAccess path _ => r.matchPathPrefix.any (fun p => startsWith path p)
    | _ => false

/-- Exec path prefix filter (exec events only). -/
def execPathFilter : Bool :=
  r.matchExecPath.isEmpty || match event.eventType with
    | .exec => r.matchExecPath.any (fun p => startsWith event.process.binary p)
    | _ => false

/-- `Rule::matches`: every configured condition holds. -/
def matchesEvent : Bool :=
  r.processFilter glob event && r.uidFilter event && r.portFilter event &&
    r.pathFilter event && r.execPathFilter event

end Rule

/-- `RuleSet::evaluate`. -/
def RuleSet.evaluate (glob : GlobCrate) (rs : RuleSet) (event : NormalizedEvent) :
    Option (Action × String) :=
  (rs.rules.find? (fun r => r.matchesEvent glob event)).map
    (fun r => (r.action.toAction, r.name))

/-- `builtin_rules`. -/
def builtinRules : List Rule :=
  [ { Rule.bare "block-shadow-access" .block with
      matchPathPrefix := ["/etc/shadow", "/etc/sudoers", "/etc/gshadow"] },
    { Rule.bare "alert-shell-exec-by-service" .alert with
      matchProcess := ["nginx", "postgres", "apache2"]
      matchExecPath := ["/bin/sh", "/bin/bash", "/bin/dash", "/usr/bin/python",
        "/usr/bin/perl"] },
    { Rule.bare "alert-outbound-unusual-port" .alert with
      matchPort := [4444, 1337, 31337, 9001, 8888] },
    { Rule.bare "alert-root-exec" .alert with
      matchExecPath := ["/usr/bin/wget", "/usr/bin/curl", "/usr/bin/nc"]
      matchUid := some 0 } ]

/-- One entry of a directory listing: the bytes of its name and its text, none
    when reading it fails. -/
structure DirEntry where
  fileName : List UInt8
  content : Option String
  deriving DecidableEq, Repr

/-- `Path::extension`: what follows the last dot, unless that dot starts the
    name. -/
def DirEntry.extension (e : DirEntry) : Option (List UInt8) :=
  let rev := e.fileName.reverse
  match rev.dropWhile (fun b => b != 46) with
  | [] => none
  | _ :: [] => none
  | _ :: _ :: _ => some (rev.takeWhile (fun b => b != 46)).reverse

/-- The rules an entry contributes to `load_dir`. -/
def DirEntry.rules (fromStr : String → Option RuleSet) (e : DirEntry) : List Rule :=
  if e.extension = some (bytes "toml") then
    match e.content with
    | some content =>
      match fromStr content with
      | some rs => rs.rules
      | none => []
    | none => []
  else []

/-- `RuleSet::load_dir` on what `fs::read_dir` lists: none when the directory
    cannot be read, and none for an entry that cannot be. -/
def RuleSet.loadDir (fromStr : String → Option RuleSet)
    (listing : Option (List (Option DirEntry))) : RuleSet :=
  let allRules := match listing with
    | some entries => (entries.reduceOption.map (fun e => e.rules fromStr)).flatten
    | none => []
  -- Rule files without a rule count as none.
  if allRules.isEmpty then ⟨builtinRules⟩ else ⟨allRules⟩

theorem evaluate_eq_some (glob : GlobCrate) (rs : RuleSet) (event : NormalizedEvent)
    (a : Action) (name : String) :
    rs.evaluate glob event = some (a, name) ↔
      ∃ r, rs.rules.find? (fun r => r.matchesEvent glob event) = some r ∧
        r.action.toAction = a ∧ r.name = name := by
  unfold RuleSet.evaluate
  rw [Option.map_eq_some_iff]
  simp only [Prod.mk.injEq]

end VectorGuard
