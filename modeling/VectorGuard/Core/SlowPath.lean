import VectorGuard.Core.ContextWindow
import VectorGuard.Core.Config
import VectorGuard.Core.Event

/-!
# Slow Path

Anomaly detection on a copy of an event (`slow_path/mod.rs`): embed it, blend
the vector with the recent vectors of the same PID, search the vector database
for neighbours, and escalate an event without any.

The embedding provider and the vector database are services. What they answer
is a parameter: `Embedder.provider` is the vector or error an embedding request
for an event returns, `VectorDb.qdrantSearch` the scores or error a search
returns. The embedder still checks the dimension of what it got, and the
in-memory backend still answers every search with no neighbour and stores nothing.

What one call sends to the database is part of its result: the vector it
searched for and the point it stored back. Both influence later answers of the
database only, which are arbitrary here.

## Main definitions

* `SlowPath`: The detector with its context window.
* `stableId`: The point identifier of a binary.
* `Analysis`: What one call leaves behind.
* `SlowPath.new`: The detector built from its configuration.
* `SlowPath.analyze`: What the detector does with one event.
* `SlowPath.Searches`: The calls that get to the search.

## Theorems

* `SlowPath.analyze_spec`: The two outcomes of a call.
-/

namespace VectorGuard

structure Embedder where
  provider : NormalizedEvent → Except String (List Float32)
  dim : Nat

/-- `Embedder::embed`: a vector of another dimension is an error. -/
def Embedder.embed (e : Embedder) (event : NormalizedEvent) : Except String (List Float32) :=
  match e.provider event with
  | .error err => .error err
  | .ok vec =>
    if vec.length ≠ e.dim then
      .error s!"returned {vec.length} dims, expected {e.dim}"
    else .ok vec

structure VectorDb where
  backend : VectorDbBackend
  qdrantSearch : List Float32 → Nat → Float32 → Except String (List Float32)

/-- `VectorDb::search`. -/
def VectorDb.search (db : VectorDb) (vector : List Float32) (limit : Nat)
    (scoreThreshold : Float32) : Except String (List Float32) :=
  match db.backend with
  | .qdrant => db.qdrantSearch vector limit scoreThreshold
  | .usearch => .ok []

structure SlowPath where
  embedder : Embedder
  vectordb : VectorDb
  threshold : Float32
  enabled : Bool
  available : Bool
  context : ContextWindow

/-- `stable_id`: FNV-1a. -/
def stableId (s : String) : UInt64 :=
  (bytes s).foldl (fun h b => (h ^^^ b.toUInt64) * 0x100000001b3) 0xcbf29ce484222325

/-- `blend`: seven parts of the current vector to three of the context. -/
def blend (a b : List Float32) : List Float32 :=
  if a.length ≠ b.length then a
  else
    let alpha : Float32 := 0.7
    let beta : Float32 := 1.0 - alpha
    normalized ((a.zip b).map (fun (x, y) => alpha * x + beta * y))

/-- A point stored in the vector database. -/
structure Point where
  id : UInt64
  vector : List Float32
  binary : String
  ts : UInt64

/-- `VectorDb::upsert`. The first argument is what a request to store a point makes of
    the collection. -/
def VectorDb.upsert {C : Type} (db : VectorDb) (qdrantUpsert : C → Point → C) (points : C)
    (p : Point) : C :=
  match db.backend with
  | .qdrant => qdrantUpsert points p
  | .usearch => points

/-- What one call of `analyze` leaves behind. -/
structure Analysis where
  slowPath : SlowPath
  event : NormalizedEvent
  /-- The vector searched for, none when the call returned before searching. -/
  searched : Option (List Float32)
  /-- The point stored as the binary's new baseline. -/
  upserted : Option Point

namespace SlowPath

/-- `SlowPath::new`. The last argument is whether the collection could be
    ensured; the in-memory backend has none to ensure. -/
def new (cfg : SlowPathConfig) (embedder : Embedder)
    (qdrantSearch : List Float32 → Nat → Float32 → Except String (List Float32))
    (qdrantEnsured : Bool) : SlowPath :=
  let ensured := match cfg.vectordb with
    | .qdrant => qdrantEnsured
    | .usearch => true
  { embedder := embedder
    vectordb := { backend := cfg.vectordb, qdrantSearch := qdrantSearch }
    threshold := cfg.similarityThreshold
    enabled := cfg.enabled
    available := cfg.enabled && ensured
    context := ContextWindow.new cfg.timeWindowSecs embedder.dim }

/-- The critical section of `analyze`: read the context, then record the
    event and prune. Returns the vector to search for. -/
def searchVector (ctx : ContextWindow) (event : NormalizedEvent) (current : List Float32) :
    ContextWindow × List Float32 :=
  let blended := match ctx.contextVector event.process.pid with
    | some ctxVec => blend current ctxVec
    | none => current
  ((ctx.push event.process.pid event.timestamp current).pruneStalePids, blended)

/-- The escalation at the end of `analyze`. -/
def escalate (event : NormalizedEvent) : NormalizedEvent :=
  { event with
    action := .alerted
    severity := if event.severity < .medium then .medium else event.severity }

/-- `SlowPath::analyze`. -/
def analyze (sp : SlowPath) (event : NormalizedEvent) : Analysis :=
  if !sp.enabled || !sp.available then ⟨sp, event, none, none⟩
  -- Already blocked by the fast path, so no further analysis is needed.
  else if event.action = .blocked then ⟨sp, event, none, none⟩
  else match sp.embedder.embed event with
    | .error _ => ⟨sp, event, none, none⟩
    | .ok currentVector =>
      let (context, vector) := searchVector sp.context event currentVector
      let isAnomaly := match sp.vectordb.search vector 5 sp.threshold with
        | .ok scores => scores.isEmpty
        | .error _ => false
      -- An anomaly that carries any other verdict is left alone.
      let event := if isAnomaly && event.action = .allowed then escalate event else event
      { slowPath := { sp with context }
        event := event
        searched := some vector
        upserted := some
          { id := stableId event.process.binary
            vector := vector
            binary := event.process.binary
            ts := event.timestamp } }

/-- An escalation changes neither the process nor the time of an event. -/
theorem process_ite_escalate (b : Bool) (event : NormalizedEvent) :
    (if b = true then escalate event else event).process = event.process := by
  cases b with
  | true => rfl
  | false => rfl

theorem timestamp_ite_escalate (b : Bool) (event : NormalizedEvent) :
    (if b = true then escalate event else event).timestamp = event.timestamp := by
  cases b with
  | true => rfl
  | false => rfl

/-- A call that gets to the search, with the vector of its event. -/
structure Searches (sp : SlowPath) (event : NormalizedEvent) (current : List Float32) : Prop where
  enabled : sp.enabled = true
  available : sp.available = true
  action : event.action ≠ .blocked
  embed : sp.embedder.embed event = .ok current

/-- A call that does not get to the search does nothing. A call that does escalates its
    event where the event is allowed and has no neighbour. -/
theorem analyze_spec (sp : SlowPath) (event : NormalizedEvent) :
    ((∀ current, ¬ sp.Searches event current) ∧ sp.analyze event = ⟨sp, event, none, none⟩) ∨
    ∃ current vector anomaly, sp.Searches event current ∧
      vector = (searchVector sp.context event current).2 ∧
      (anomaly = true ↔
        sp.vectordb.search vector 5 sp.threshold = .ok [] ∧ event.action = .allowed) ∧
      sp.analyze event =
        { slowPath := { sp with context := (searchVector sp.context event current).1 }
          event := if anomaly = true then escalate event else event
          searched := some vector
          upserted := some
            { id := stableId event.process.binary
              vector := vector
              binary := event.process.binary
              ts := event.timestamp } } := by
  unfold analyze
  by_cases hoff : (!sp.enabled || !sp.available) = true
  · rw [if_pos hoff]
    rw [Bool.or_eq_true, Bool.not_eq_true', Bool.not_eq_true'] at hoff
    refine .inl ⟨fun current h => ?_, rfl⟩
    rcases hoff with hoff | hoff
    · exact absurd h.enabled (Bool.eq_false_iff.mp hoff)
    · exact absurd h.available (Bool.eq_false_iff.mp hoff)
  · rw [if_neg hoff]
    rw [Bool.or_eq_true, not_or, Bool.not_eq_true', Bool.not_eq_true', Bool.not_eq_false,
      Bool.not_eq_false] at hoff
    by_cases hblocked : event.action = .blocked
    · rw [if_pos hblocked]
      exact .inl ⟨fun current h => h.action hblocked, rfl⟩
    · rw [if_neg hblocked]
      cases hembed : sp.embedder.embed event with
      | error err =>
          refine .inl ⟨fun current h => ?_, rfl⟩
          rw [h.embed] at hembed
          cases hembed
      | ok current =>
          refine .inr ⟨current, (searchVector sp.context event current).2,
            (match sp.vectordb.search (searchVector sp.context event current).2 5 sp.threshold with
              | .ok scores => scores.isEmpty
              | .error _ => false) && decide (event.action = .allowed),
            ⟨hoff.1, hoff.2, hblocked, hembed⟩, rfl, ?_, ?_⟩
          · rw [Bool.and_eq_true, decide_eq_true_eq]
            refine and_congr_left' ?_
            cases sp.vectordb.search (searchVector sp.context event current).2 5 sp.threshold with
            | error err => simp only [Bool.false_eq_true, reduceCtorEq]
            | ok scores => rw [List.isEmpty_iff, Except.ok.injEq]
          · -- The baseline is read off the event after the escalation.
            dsimp only
            rw [process_ite_escalate, timestamp_ite_escalate]

end SlowPath

end VectorGuard
