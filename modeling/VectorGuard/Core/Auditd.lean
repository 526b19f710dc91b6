import Mathlib.Data.List.AList
import VectorGuard.Core.Json
import VectorGuard.Core.Text

/-!
# Auditd Adapter

Decoding one line of the audit log (`adapter/auditd.rs`). A line is a sequence
of `key=value` tokens; of a repeated key the last value counts. Numbers that do
not parse are replaced by a default, so every line decodes, also one that has
been cut short.

## Main definitions

* `parseKv`: The fields of a line.
* `unquote`: A field value without its quotes.
* `parseAuditdSyscall`: The event of a line.

## Theorems

* `parseAuditdSyscall_binary`, `parseAuditdSyscall_numbers`: The process of the event.
-/

namespace VectorGuard

/-- `parse_kv`. -/
def parseKv (line : String) : AList (fun _ : String => String) :=
  (splitWhitespace line).foldl (fun map token => match splitOnce '=' token with
    | some (k, v) => map.insert k v
    | none => map) ∅

/-- `unquote`. -/
def unquote (s : String) : String := trimMatches '"' s

theorem unquote_quoted (name : String) :
    unquote ("\"" ++ name ++ "\"") = unquote name := by
  have hquoted : ("\"" ++ name ++ "\"").toList = '"' :: (name.toList ++ ['"']) := by
    rw [String.toList_append, String.toList_append]
    rfl
  have hfront : ∀ rest, ('"' :: rest).dropWhile (fun x => x == '"')
      = rest.dropWhile (fun x => x == '"') := fun _ => rfl
  unfold unquote trimMatches
  simp only [hquoted, hfront]
  rw [List.dropWhile_append]
  cases hname : name.toList.dropWhile (fun x => x == '"') with
  | nil =>
      rfl
  | cons c rest =>
      -- The closing quote is the first to go from the back.
      simp only [List.isEmpty_cons, Bool.false_eq_true, if_false, List.reverse_append,
        List.reverse_singleton, List.singleton_append, hfront]

/-- A numeric field, with its default. -/
def numField (fields : AList (fun _ : String => String)) (key : String) (default : UInt32) :
    UInt32 :=
  ((fields.lookup key).bind parseU32).getD default

/-- A quoted field, empty when it is missing. -/
def textField (fields : AList (fun _ : String => String)) (key : String) : String :=
  ((fields.lookup key).map unquote).getD ""

/-- The event type of a system call number (x86_64). -/
def auditdEventType (syscallNr : UInt32) (exe : String) : EventType :=
  -- execve, execveat
  if syscallNr = 59 ∨ syscallNr = 322 then .exec
  -- open, openat
  else if syscallNr = 2 ∨ syscallNr = 257 then
    .fileAccess exe { read := true, write := false, execute := false }
  -- connect, accept4
  else if syscallNr = 42 ∨ syscallNr = 288 then .network .outbound (.v4 0 0 0 0) 0 .tcp
  else .privilege (toString syscallNr) none

/-- `parse_auditd_syscall`, which never fails. -/
def parseAuditdSyscall (id : UInt64) (line : String) : SourceEvent :=
  let fields := parseKv line
  let uid := numField fields "uid" 65534
  let comm := textField fields "comm"
  let exe := textField fields "exe"
  { id := id
    timestamp := 0
    source := .auditd
    process := {
      pid := numField fields "pid" 0
      ppid := numField fields "ppid" 0
      binary := if comm.isEmpty then exe else comm
      args := []
      uid := uid
      gid := 0
      cwd := "" }
    parent := none
    eventType := auditdEventType (numField fields "syscall" 0) exe
    severity := if uid = 0 then .medium else .info
    action := .allowed
    ruleName := none
    k8s := none
    raw := .string line }

theorem parseAuditdSyscall_binary (id : UInt64) (line : String) :
    (parseAuditdSyscall id line).process.binary
      = if (textField (parseKv line) "comm").isEmpty then textField (parseKv line) "exe"
        else textField (parseKv line) "comm" := rfl

theorem parseAuditdSyscall_numbers (id : UInt64) (line : String) :
    (parseAuditdSyscall id line).process.pid = numField (parseKv line) "pid" 0 ∧
      (parseAuditdSyscall id line).process.ppid = numField (parseKv line) "ppid" 0 ∧
      (parseAuditdSyscall id line).process.uid = numField (parseKv line) "uid" 65534 :=
  ⟨rfl, rfl, rfl⟩

end VectorGuard
