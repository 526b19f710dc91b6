import VectorGuard.Core.Json

/-!
# Falco Adapter

Decoding one line of a Falco log (`adapter/falco.rs`). A line is a JSON object
with the alert's fields below `output_fields`. Whatever is missing or of
another type is replaced by a default, so every JSON text decodes.

The JSON parser is a parameter: the value a text parses to, none when it is not
JSON. The identifier comes from the adapter's counter and is taken by an event
only when the line decodes.

## Main definitions

* `parseFalcoJson`: The event of a line.
* `falcoPriorityToSeverity`: The severity of an alert.
-/

namespace VectorGuard

/-- `falco_priority_to_severity`. -/
def falcoPriorityToSeverity (p : String) : Severity :=
  if p = "Emergency" ∨ p = "Alert" ∨ p = "Critical" then .critical
  else if p = "Error" then .high
  else if p = "Warning" then .medium
  else if p = "Notice" then .low
  else .info

/-- The flags of an open, by their lowest two bits. -/
def openFlags (flags : UInt32) : FileFlags where
  read := flags &&& 1 == 0
  write := flags &&& 1 != 0 || flags &&& 2 != 0
  execute := false

/-- The event type of an alert. -/
def falcoEventType (fields : Value) : EventType :=
  let evtType := (fields.field "evt.type").asStr.getD ""
  if evtType = "execve" ∨ evtType = "execveat" then .exec
  else if evtType = "openat" ∨ evtType = "open" then
    .fileAccess ((fields.field "fd.name").asStr.getD "")
      (openFlags ((fields.field "fd.openflags").asU64.getD 0).toUInt32)
  else if evtType = "connect" then
    .network .outbound (.v4 0 0 0 0) ((fields.field "fd.sport").asU64.getD 0).toUInt16 .tcp
  -- Unknown types are classified as exec.
  else .exec

/-- The event of a parsed line. -/
def falcoEvent (id : UInt64) (v : Value) : SourceEvent :=
  let fields := v.field "output_fields"
  { id := id
    timestamp := 0
    source := .falco
    process := {
      pid := ((fields.field "proc.pid").asU64.getD 0).toUInt32
      ppid := ((fields.field "proc.ppid").asU64.getD 0).toUInt32
      binary := (fields.field "proc.name").asStr.getD ""
      args := []
      uid := ((fields.field "user.uid").asU64.getD 65534).toUInt32
      gid := 0
      cwd := "" }
    parent := none
    eventType := falcoEventType fields
    severity := falcoPriorityToSeverity ((v.field "priority").asStr.getD "Informational")
    action := .allowed
    ruleName := none
    k8s := none
    raw := v }

/-- `parse_falco_json`. -/
def parseFalcoJson (fromStr : String → Option Value) (id : UInt64) (line : String) :
    Option SourceEvent :=
  (fromStr line).map (falcoEvent id)

end VectorGuard
