import VectorGuard.Core.Event
import VectorGuard.Lib.FlatJson

/-!
# Incident Logger

What the incident logger does with one event before it queues a line
(`incident.rs`): it skips every event whose action is not an incident action
and builds the record of the others. A record is written as a JSON object with the
fields in the order of the structure.

## Main definitions

* `isIncident`: The actions that are logged.
* `IncidentRecord`: One line of the incident log.
* `incidentRecord`: The record an event is logged as, none when it is skipped.
* `IncidentRecord.json`: The text of a record.
-/

namespace VectorGuard

/-- The guard of `record`. -/
def isIncident (a : Action) : Bool :=
  match a with
  | .blocked | .alerted | .killed => true
  | _ => false

structure IncidentRecord where
  timestamp : UInt64
  pid : UInt32
  ppid : UInt32
  uid : UInt32
  binary : String
  eventType : String
  rule : Option String
  action : String
  deriving DecidableEq, Repr

/-- The `Debug` text of a protocol. -/
def Proto.debug : Proto → String
  | .tcp => "Tcp"
  | .udp => "Udp"
  | .unknown => "Unknown"

/-- The `Debug` text of an action. -/
def Action.debug : Action → String
  | .allowed => "Allowed"
  | .logged => "Logged"
  | .blocked => "Blocked"
  | .killed => "Killed"
  | .alerted => "Alerted"

/-- The event type column of the log. -/
def EventType.column : EventType → String
  | .exec => "Exec"
  | .fileAccess path _ => "FileAccess:" ++ path
  | .network _ _ port proto => "Network:" ++ proto.debug ++ ":" ++ toString port
  | .privilege syscall _ => "Privilege:" ++ syscall
  | .signal signum _ => "Signal:" ++ toString signum

/-- The record `IncidentLogger::record` queues for an event. -/
def incidentRecord (event : NormalizedEvent) : Option IncidentRecord :=
  if isIncident event.action then
    some {
      timestamp := event.timestamp
      pid := event.process.pid
      ppid := event.process.ppid
      uid := event.process.uid
      binary := event.process.binary
      eventType := event.eventType.column
      rule := event.ruleName
      action := event.action.debug }
  else none

/-- The derived `Serialize` instance of the record. -/
def IncidentRecord.fields (record : IncidentRecord) : List (List Char × FlatJson.Scalar) :=
  [("timestamp".toList, .num record.timestamp.toNat),
    ("pid".toList, .num record.pid.toNat),
    ("ppid".toList, .num record.ppid.toNat),
    ("uid".toList, .num record.uid.toNat),
    ("binary".toList, .str record.binary.toList),
    ("event_type".toList, .str record.eventType.toList),
    ("rule".toList, (record.rule.map (fun rule => .str rule.toList)).getD .null),
    ("action".toList, .str record.action.toList)]

/-- `serde_json::to_string`. -/
def IncidentRecord.json (record : IncidentRecord) : String :=
  String.ofList (FlatJson.encode record.fields)

end VectorGuard
