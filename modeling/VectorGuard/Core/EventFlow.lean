import VectorGuard.Core.Pipeline

/-!
# Event Flow

The way of events through the two tasks of the daemon (`main.rs`), with anything
in between.

The pipeline task receives an event, filters and evaluates it and calls the
incident logger on it, all without a point where another task could run. Then it
waits for the advisor, offers a copy to the slow worker, which it drops when the
channel between the two is full, and hands the event to the terminal. The worker
takes a copy, waits for the services it asks, and calls the logger again if the
action has changed. Between two events each task may take a reload.

The events a run receives are numbered, and a copy carries the number of its
event. The numbers are not in the code. Configurations, directories and the
answers of the services are arbitrary at every step.

## Main definitions

* `EventFlow`: Where the two tasks are, their components and the channel.
* `FlowStep`: One step of a task.
* `FlowAction.recordCalls`: The calls of the incident logger in a step.
-/

namespace VectorGuard

/-- The capacity of the channel to the slow worker. -/
def slowCapacity : Nat := 1024

/-- An event with its number. -/
abbrev Numbered := Nat × NormalizedEvent

/-- Where the pipeline task is. -/
inductive PipelineAt
  /-- At its `select!`. -/
  | selecting
  /-- With an event that has been recorded and not yet offered to the worker. -/
  | advising (copy : Numbered)
  /-- Sending the event to the terminal. -/
  | sending
  | stopped

/-- Where the slow worker is. -/
inductive WorkerAt
  | selecting
  | analyzing (copy : Numbered)
  | stopped

structure EventFlow (glob : GlobCrate) where
  /-- The number of events received. -/
  received : Nat
  pipeline : PipelineAt
  scopeFilter : ScopeFilter glob
  fastPath : FastPath
  slowQueue : List Numbered
  worker : WorkerAt
  slowPath : SlowPath

/-- The tasks as they are spawned. -/
def EventFlow.init {glob : GlobCrate} (scopeFilter : ScopeFilter glob) (fastPath : FastPath)
    (slowPath : SlowPath) : EventFlow glob where
  received := 0
  pipeline := .selecting
  scopeFilter := scopeFilter
  fastPath := fastPath
  slowQueue := []
  worker := .selecting
  slowPath := slowPath

/-- The detector with other answers from its services. -/
def SlowPath.answering (sp : SlowPath) (provider : NormalizedEvent → Except String (List Float32))
    (qdrantSearch : List Float32 → Nat → Float32 → Except String (List Float32)) : SlowPath :=
  { sp with
    embedder := { sp.embedder with provider }
    vectordb := { sp.vectordb with qdrantSearch } }

inductive FlowAction
  /-- The pipeline receives an event, with what it records of it, if anything. -/
  | receive (n : Nat) (ev : NormalizedEvent) (recorded : Option NormalizedEvent)
  | forward
  /-- The channel to the worker is full. -/
  | drop
  | send
  /-- The terminal is gone. -/
  | hangUp
  | take
  /-- The worker is done with a copy. -/
  | analyze (n : Nat) (ev : NormalizedEvent) (step : WorkerStep)
  | finish
  | reloadPipeline (cfg : Config) (fs : FileSystem)
  | reloadWorker (cfg : SlowPathConfig)

/-- The calls of `IncidentLogger::record` in a step. -/
def FlowAction.recordCalls : FlowAction → List Numbered
  | .receive n _ (some ev) => [(n, ev)]
  | .analyze n _ step => if step.recordCalled then [(n, step.event)] else []
  | _ => []

inductive FlowStep (fromStr : String → Option RuleSet) {glob : GlobCrate} (s : EventFlow glob) :
    FlowAction → EventFlow glob → Prop
  /-- An event that is out of scope. -/
  | filter (ev : NormalizedEvent) (hphase : s.pipeline = .selecting)
      (hscope : pipelineEvent glob s.scopeFilter s.fastPath ev = none) :
      FlowStep fromStr s (.receive s.received ev none) { s with received := s.received + 1 }
  | record (ev ev' : NormalizedEvent) (hphase : s.pipeline = .selecting)
      (hscope : pipelineEvent glob s.scopeFilter s.fastPath ev = some ev') :
      FlowStep fromStr s (.receive s.received ev (some ev'))
        { s with received := s.received + 1, pipeline := .advising (s.received, ev') }
  | forward (copy : Numbered) (hphase : s.pipeline = .advising copy)
      (hroom : s.slowQueue.length < slowCapacity) :
      FlowStep fromStr s .forward
        { s with pipeline := .sending, slowQueue := s.slowQueue ++ [copy] }
  | drop (copy : Numbered) (hphase : s.pipeline = .advising copy)
      (hfull : slowCapacity ≤ s.slowQueue.length) :
      FlowStep fromStr s .drop { s with pipeline := .sending }
  | send (hphase : s.pipeline = .sending) :
      FlowStep fromStr s .send { s with pipeline := .selecting }
  | hangUp (hphase : s.pipeline = .sending) :
      FlowStep fromStr s .hangUp { s with pipeline := .stopped }
  | take (copy : Numbered) (rest : List Numbered) (hphase : s.worker = .selecting)
      (hqueue : s.slowQueue = copy :: rest) :
      FlowStep fromStr s .take { s with worker := .analyzing copy, slowQueue := rest }
  | analyze (copy : Numbered) (provider : NormalizedEvent → Except String (List Float32))
      (qdrantSearch : List Float32 → Nat → Float32 → Except String (List Float32))
      (hphase : s.worker = .analyzing copy) :
      FlowStep fromStr s
        (.analyze copy.1 copy.2 (slowWorkerEvent (s.slowPath.answering provider qdrantSearch) copy.2))
        { s with
          worker := .selecting
          slowPath :=
            (slowWorkerEvent (s.slowPath.answering provider qdrantSearch) copy.2).slowPath }
  /-- The pipeline is gone and the channel is empty. -/
  | finish (hphase : s.worker = .selecting) (hgone : s.pipeline = .stopped)
      (hempty : s.slowQueue = []) :
      FlowStep fromStr s .finish { s with worker := .stopped }
  | reloadPipeline (cfg : Config) (fs : FileSystem) (hphase : s.pipeline = .selecting) :
      FlowStep fromStr s (.reloadPipeline cfg fs)
        { s with
          scopeFilter := ScopeFilter.new glob cfg.scope
          fastPath := FastPath.new fromStr fs cfg.fastPath }
  | reloadWorker (cfg : SlowPathConfig) (embedder : Embedder)
      (qdrantSearch : List Float32 → Nat → Float32 → Except String (List Float32))
      (qdrantEnsured : Bool) (hphase : s.worker = .selecting) :
      FlowStep fromStr s (.reloadWorker cfg)
        { s with slowPath := SlowPath.new cfg embedder qdrantSearch qdrantEnsured }

end VectorGuard
