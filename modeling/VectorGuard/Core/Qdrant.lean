import VectorGuard.Core.Json
import VectorGuard.Core.SlowPath

/-!
# Qdrant Searches

The search request of the vector database client (`slow_path/vectordb.rs`).

The server is a parameter: it answers a request with a reply or not at all. A
request that gets no reply fails, and so does one whose reply is not JSON. Any other
reply is searched for scores, whatever its status: what is no list of points, and
what is no score in it, is passed over.

A number of a JSON text that is not an integer is kept as text, and its value is a
parameter.

## Main definitions

* `Reply`: What a request comes back with.
* `pointScores`: The scores in a JSON value.
* `qdrantSearch`: The search request.
-/

namespace VectorGuard

/-- `Value::as_f64`. -/
def Value.asF64 (parseF64 : String → Float) : Value → Option Float
  | .posInt n => some n.toFloat
  | .negInt n => some n.toFloat
  | .float text => some (parseF64 text)
  | _ => none

/-- `Value::as_array`. -/
def Value.asArray : Value → Option (List Value)
  | .array items => some items
  | _ => none

/-- What a request comes back with. -/
inductive Reply
  | transportError (err : String)
  /-- A body that is not JSON has the error of the parser. -/
  | response (status : UInt16) (body : Except String Value)

/-- The scores of the points in a reply. -/
def pointScores (parseF64 : String → Float) (data : Value) : List Float32 :=
  ((data.field "result").asArray.map (fun arr =>
    arr.filterMap (fun p => ((p.field "score").asF64 parseF64).map Float.toFloat32))).getD []

/-- `VectorDb::qdrant_search`. The status of the reply is not looked at. -/
def qdrantSearch (parseF64 : String → Float) (post : List Float32 → Nat → Float32 → Reply)
    (vector : List Float32) (limit : Nat) (scoreThreshold : Float32) :
    Except String (List Float32) :=
  match post vector limit scoreThreshold with
  | .transportError err => .error err
  | .response _ (.error err) => .error err
  | .response _ (.ok data) => .ok (pointScores parseF64 data)

end VectorGuard
