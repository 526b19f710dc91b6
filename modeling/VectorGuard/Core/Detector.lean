import VectorGuard.Core.Embedders

/-!
# Detector

The slow path with its services (`slow_path/mod.rs`, `slow_path/vectordb.rs`): which
requests it sends to the vector database, in which order and with which vectors.

The database is a parameter, a function from the state of the world and a request for a
collection to a reply and the next state. `SlowPath` has the decisions of the detector and
takes what it is answered as a function; here these functions are the replies to the
requests. The embedding services are asked anew with each event, and may answer anything.

The client looks at the status of one reply only, of the one that asks for the
collection. Every other request that comes back at all counts as carried out.

## Main definitions

* `QdrantRequest`: The requests of the client.
* `qdrantEnsure`: Creating a collection with the right dimension.
* `Detector`: The slow path with its services.
* `Detector.new`, `Detector.analyze`: What it does at its start and with an event.
* `DetectorOp.apply`: What the worker task does with it.
-/

namespace VectorGuard

/-- The requests for a collection. -/
inductive QdrantRequest
  /-- `GET` of the collection. -/
  | get
  /-- `PUT` of the collection, with the cosine distance. -/
  | create (vectorSize : Nat)
  /-- `DELETE` of the collection. -/
  | delete
  /-- `PUT` of one of its points. -/
  | upsert (p : Point)
  /-- `POST` of a search in its points. -/
  | search (vector : List Float32) (limit : Nat) (scoreThreshold : Float32)

/-- The dimension in the description of a collection. -/
def existingSize (info : Value) : Option UInt64 :=
  (((((info.field "result").field "config").field "params").field "vectors").field "size").asU64

section

variable {S : Type} (send : S → String → QdrantRequest → Reply × S)

/-- The last request of `qdrant_ensure`. -/
def qdrantCreate (world : S) (url : String) (vectorSize : Nat) : Bool × S :=
  match send world url (.create vectorSize) with
  | (.transportError _, world) => (false, world)
  | (.response _ _, world) => (true, world)

/-- The part of `qdrant_ensure` for a collection of another dimension. -/
def qdrantRecreate (world : S) (url : String) (vectorSize : Nat) : Bool × S :=
  match send world url .delete with
  | (.transportError _, world) => (false, world)
  | (.response _ _, world) => qdrantCreate send world url vectorSize

/-- `VectorDb::qdrant_ensure`. The result is whether it returns no error. -/
def qdrantEnsure (world : S) (url : String) (vectorSize : Nat) : Bool × S :=
  match send world url .get with
  | (.transportError _, world) => (false, world)
  | (.response status body, world) =>
    if status = 404 then qdrantCreate send world url vectorSize
    else match body with
      | .error _ => (false, world)
      | .ok info =>
        match existingSize info with
        -- A description without a dimension is taken as it is.
        | none => (true, world)
        | some existing =>
          if existing.toNat ≠ vectorSize then qdrantRecreate send world url vectorSize
          else (true, world)

/-- `VectorDb::ensure_collection`. -/
def ensureCollection (backend : VectorDbBackend) (world : S) (url : String) (vectorSize : Nat) :
    Bool × S :=
  match backend with
  | .qdrant => qdrantEnsure send world url vectorSize
  | .usearch => (true, world)

end

/-- The settings of the slow path that name its services. -/
structure ServiceConfig where
  embedder : EmbedderConfig
  url : String
  collection : String

/-- The address of the collection. -/
def ServiceConfig.collectionUrl (cfg : ServiceConfig) : String :=
  cfg.url ++ "/collections/" ++ cfg.collection

/-- The slow path with its services. What these answer is put in with each event. -/
structure Detector where
  slowPath : SlowPath
  provider : EmbedProvider
  url : String

namespace Detector

section

variable {S : Type} (send : S → String → QdrantRequest → Reply × S)

/-- `SlowPath::new`, with its requests. -/
def new (world : S) (cfg : SlowPathConfig) (services : ServiceConfig)
    (env : String → Option String) : Detector × S :=
  let provider := EmbedProvider.ofConfig services.embedder env
  let url := services.collectionUrl
  let ensured :=
    if cfg.enabled then ensureCollection send cfg.vectordb world url provider.dim
    else (false, world)
  -- Nothing is asked of these services.
  let slowPath := SlowPath.new cfg
    (provider.embedder (fun _ => 0) (fun _ => "") (fun _ => .transportError ""))
    (fun _ _ _ => .ok []) ensured.1
  (⟨slowPath, provider, url⟩, ensured.2)

variable (parseF64 : String → Float) (display : Value → String)

/-- The slow path, with what its services answer now. -/
def answered (d : Detector) (world : S) (call : HttpPost → Reply) : SlowPath :=
  { d.slowPath with
    embedder := d.provider.embedder parseF64 display call
    vectordb := { d.slowPath.vectordb with
      qdrantSearch := qdrantSearch parseF64 (fun vector limit scoreThreshold =>
        (send world d.url (.search vector limit scoreThreshold)).1) } }

/-- `VectorDb::search`, as a request. -/
def search (d : Detector) (world : S) (vector : List Float32) : S :=
  match d.slowPath.vectordb.backend with
  | .qdrant => (send world d.url (.search vector 5 d.slowPath.threshold)).2
  | .usearch => world

/-- `VectorDb::upsert`, as a request. -/
def upsert (d : Detector) (world : S) (p : Point) : S :=
  d.slowPath.vectordb.upsert (fun world p => (send world d.url (.upsert p)).2) world p

/-- `SlowPath::analyze`, with its requests. -/
def analyze (d : Detector) (world : S) (call : HttpPost → Reply) (event : NormalizedEvent) :
    Analysis × Detector × S :=
  let a := (d.answered send parseF64 display world call).analyze event
  let world := match a.searched with
    | some vector => d.search send world vector
    | none => world
  let world := match a.upserted with
    | some p => d.upsert send world p
    | none => world
  (a, { d with slowPath := a.slowPath }, world)

end

end Detector

/-- What the worker task does with the detector: it hands it an event, while the services
    answer in some way, or it builds another from a new configuration. -/
inductive DetectorOp
  | analyze (call : HttpPost → Reply) (event : NormalizedEvent)
  | reload (cfg : SlowPathConfig) (services : ServiceConfig) (env : String → Option String)

section

variable {S : Type} (send : S → String → QdrantRequest → Reply × S) (parseF64 : String → Float)
  (display : Value → String)

def DetectorOp.apply (s : Detector × S) : DetectorOp → Detector × S
  | .analyze call event => (s.1.analyze send parseF64 display s.2 call event).2
  | .reload cfg services env => Detector.new send s.2 cfg services env

/-- The detector and the world after some operations. -/
def detected (s : Detector × S) (ops : List DetectorOp) : Detector × S :=
  ops.foldl (fun s op => op.apply send parseF64 display s) s

end

end VectorGuard
