import VectorGuard.Lib.FileTree
import VectorGuard.Core.Rules

/-!
# Approval Store

The two directories a proposed rule goes through (`approval.rs`): it is staged
under the pending directory, or written straight into the approved one, moved
from the first to the second when a reviewer approves it, and removed again by
the reaper.

Every operation runs on a file system at a clock time, in nanoseconds, and is
done with it before the next one starts. An operation that fails gives the text
the code puts on its error, none where it passes the error of a call on. The
`toml` crate is a parameter.

## Main definitions

* `ApprovalStore`: The two directories.
* `ApprovalStore.stagePending`, `stageAuto`, `approve`, `reject`: What the
  advisor and a reviewer do.
* `ApprovalStore.listPending`: The proposals a reviewer is shown.
* `ApprovalStore.reapExpired`: The removal of old approved files.
-/

namespace VectorGuard

structure ApprovalStore where
  pendingDir : String
  approvedDir : String
  deriving DecidableEq, Repr

structure PendingItem where
  id : String
  path : String
  rule : Rule
  createdAt : Nat

/-- `Path::join`. -/
def joinPath (dir name : String) : String :=
  if startsWith name "/" || dir.isEmpty then name
  else if endsWith dir "/" then dir ++ name
  else dir ++ "/" ++ name

/-- `sanitize`. -/
def sanitize (s : String) : String :=
  let cleaned := s.toList.map (fun c => if c.isAlphanum || c == '-' || c == '_' then c else '-')
  if cleaned.isEmpty then "rule" else String.ofList cleaned

/-- `make_id`. -/
def makeId (now : Nat) (ruleName : String) : String :=
  toString now ++ "-" ++ sanitize ruleName

/-- The first line of a staged file, and the empty one after it. -/
def ruleHeader : String :=
  "# Auto-generated by VectorGuard AI Advisor — review or remove as needed\n\n"

/-- `Path::file_stem`. -/
def fileStem (name : String) : String :=
  match name.toList.reverse.dropWhile (fun c => c != '.') with
  | [] => name
  | _ :: [] => name
  | _ :: stem => String.ofList stem.reverse

section

variable (toText : RuleSet → Option String) (fromStr : String → Option RuleSet)

/-- `write_rule`. -/
def writeRule (fs : FileTree) (now : Nat) (path : String) (rule : Rule) :
    FileTree × Except (Option String) Unit :=
  match toText ⟨[rule]⟩ with
  | none => (fs, .error "serialize rule to TOML")
  | some body =>
    match fs.write now path (ruleHeader ++ body) with
    | (fs, true) => (fs, .ok ())
    | (fs, false) => (fs, .error ("write " ++ path))

namespace ApprovalStore

variable (store : ApprovalStore) (fs : FileTree) (now : Nat)

/-- The pending file of an id. -/
def pendingFile (id : String) : String := joinPath store.pendingDir (id ++ ".toml")

/-- The approved file of an id. -/
def approvedFile (id : String) : String :=
  joinPath store.approvedDir ("ai-approved-" ++ id ++ ".toml")

/-- The part `stage_pending` and `stage_auto` have in common. -/
def stage (dir : String) (file : String → String) (rule : Rule) :
    FileTree × Except (Option String) String :=
  match fs.createDirAll dir with
  | (fs, false) => (fs, .error ("create_dir_all " ++ dir))
  | (fs, true) =>
    let id := makeId now rule.name
    match writeRule toText fs now (file id) rule with
    | (fs, .error e) => (fs, .error e)
    | (fs, .ok ()) => (fs, .ok id)

/-- `ApprovalStore::stage_pending`. -/
def stagePending (rule : Rule) : FileTree × Except (Option String) String :=
  stage toText fs now store.pendingDir store.pendingFile rule

/-- `ApprovalStore::stage_auto`. -/
def stageAuto (rule : Rule) : FileTree × Except (Option String) String :=
  stage toText fs now store.approvedDir store.approvedFile rule

/-- The proposal in a directory entry, none when the entry is skipped. -/
def pendingItem (name : String) (e : FileTree.Entry) : Option PendingItem :=
  if DirEntry.extension ⟨bytes name, none⟩ = some (bytes "toml") then
    match e with
    | .dir => none
    | .file inode =>
      match fromStr (fs.data inode).content with
      | some { rules := rule :: _ } =>
        some {
          id := fileStem name
          path := joinPath store.pendingDir name
          rule := rule
          createdAt := (fs.data inode).mtime }
      | _ => none
  else none

/-- `ApprovalStore::list_pending`: oldest first. -/
def listPending : Except (Option String) (List PendingItem) :=
  match fs.lookup store.pendingDir with
  | none => .ok []
  | some _ =>
    match (fs.resolve store.pendingDir).bind fs.readDir with
    | none => .error none
    | some entries =>
      .ok ((entries.filterMap (fun (name, e) => store.pendingItem fromStr fs name e)).mergeSort
        (fun i j => i.createdAt ≤ j.createdAt))

/-- `ApprovalStore::approve`. -/
def approve (id : String) : FileTree × Except (Option String) String :=
  let src := store.pendingFile id
  if fs.lookup src = none then (fs, .error ("pending id not found: " ++ id))
  else
    match fs.createDirAll store.approvedDir with
    | (fs, false) => (fs, .error none)
    | (fs, true) =>
      let dst := store.approvedFile id
      -- The file is moved as it is, with the time it was staged at.
      match fs.rename src dst with
      | (fs, true) => (fs, .ok dst)
      | (fs, false) => (fs, .error ("rename " ++ src ++ " -> " ++ dst))

/-- `ApprovalStore::reject`. -/
def reject (id : String) : FileTree × Except (Option String) Unit :=
  let src := store.pendingFile id
  if fs.lookup src = none then (fs, .error ("pending id not found: " ++ id))
  else
    match (fs.resolve src).map fs.remove with
    | some (fs, true) => (fs, .ok ())
    | _ => (fs, .error none)

/-- A file the reaper looks at is old enough. -/
def expired (ttl : Nat) (data : FileTree.FileData) : Bool :=
  data.mtime ≤ now && ttl ≤ now - data.mtime

/-- One entry of the reaper's sweep of a directory. -/
def reapEntry (ttl : Nat) (dir : FileTree.Path) (acc : FileTree × Nat)
    (e : String × FileTree.Entry) : FileTree × Nat :=
  if !startsWith e.1 "ai-approved-" || !endsWith e.1 ".toml" then acc
  else
    match e.2 with
    -- A directory of that name cannot be removed as a file.
    | .dir => acc
    | .file inode =>
      if expired now ttl (acc.1.data inode) then
        match acc.1.remove (dir ++ [e.1]) with
        | (fs, true) => (fs, acc.2 + 1)
        | (fs, false) => (fs, acc.2)
      else acc

/-- `ApprovalStore::reap_expired`. -/
def reapExpired (ttl : Nat) : FileTree × Except (Option String) Nat :=
  match fs.resolve store.approvedDir with
  -- Without the directory there is nothing to sweep.
  | none => (fs, .ok 0)
  | some dir =>
    match fs.entry dir with
    | none => (fs, .ok 0)
    | some _ =>
      match fs.readDir dir with
      | none => (fs, .error none)
      | some entries =>
        let (fs, count) := entries.foldl (reapEntry now ttl dir) (fs, 0)
        (fs, .ok count)

end ApprovalStore

end

end VectorGuard
