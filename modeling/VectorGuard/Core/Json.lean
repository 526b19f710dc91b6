import VectorGuard.Core.Event

/-!
# JSON Values

The part of `serde_json::Value` that the adapters use, and the events they
return.

An adapter returns a normalized event with the raw value it came from. The raw
value is carried along for whoever wants to look at it; no stage of the
pipeline reads it.

## Main definitions

* `Value`: A JSON value.
* `Value.field`: Indexing with a key.
* `SourceEvent`: A normalized event with its raw value.
-/

namespace VectorGuard

/-- `serde_json::Value`. A number keeps the representation that decides which
    conversions succeed. -/
inductive Value
  | null
  | bool (b : Bool)
  | posInt (n : UInt64)
  | negInt (n : Int64)
  | float (text : String)
  | string (s : String)
  | array (items : List Value)
  | object (fields : List (String × Value))

namespace Value

/-- `value[key]`: null unless the value is an object with that key. -/
def field : Value → String → Value
  | object fields, key => (fields.lookup key).getD null
  | _, _ => null

/-- `Value::as_str`. -/
def asStr : Value → Option String
  | string s => some s
  | _ => none

/-- `Value::as_u64`. -/
def asU64 : Value → Option UInt64
  | posInt n => some n
  | _ => none

end Value

/-- An event as an adapter returns it. -/
structure SourceEvent extends NormalizedEvent where
  raw : Value

end VectorGuard
