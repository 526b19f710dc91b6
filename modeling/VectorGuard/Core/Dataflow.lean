import VectorGuard.Core.EventFlow
import VectorGuard.Lib.Channels

/-!
# Dataflow

The tasks of the daemon with the channels between them (`main.rs`).

The source, which is the collector or an adapter, waits for room in the raw channel
with one event in hand. The pipeline task takes the events out of it one by one, and
waits for the advisor, offers a copy to the slow worker without waiting, and waits for
room in the channel to the terminal. The terminal is the interface or the headless
loop. The watch channel holds the configuration that was published last, and a version
that tells a receiver whether it has seen it. The pipeline and the worker each have a
receiver of their own and a reload of their own, in three steps between which another
configuration may be published.

When the source ends the pipeline stays, for the reloads, without listening to it.
When the terminal is gone the pipeline stops at the next event, and the others stop
after it.

Events are numbered as they are received, and the version a filter was built from is
kept. Neither number is in the code.

## Main definitions

* `Terminal`: What reads the processed events.
* `Dataflow`: Where the tasks are, and what is in the channels.
* `DataflowStep`: One step of a task.
-/

namespace VectorGuard

/-- The capacity of the channels from the source and to the terminal. -/
def eventCapacity : Nat := 4096

/-- `u64::MAX`. -/
def u64Max : Nat := 18446744073709551615

/-- `n.saturating_add(1)` on 64 bits. -/
def saturatingSucc (n : Nat) : Nat := min (n + 1) u64Max

/-- What reads the processed events: `run_loop` over the interface, or
    `run_headless`. -/
structure Terminal where
  State : Type
  /-- What an event does to it, none when it panics. -/
  push : State → NormalizedEvent → Option State
  /-- What it may do between two events. -/
  Turn : State → State → Prop
  /-- It leaves its loop in this state. -/
  Quits : State → Prop

/-- `run_headless`, which logs every event and never leaves. -/
def Terminal.headless : Terminal where
  State := Unit
  push _ _ := some ()
  Turn _ _ := False
  Quits _ := False

/-- Where `run_collector` or `adapter::run` is. -/
inductive SourceAt
  | reading
  /-- Waiting in `tx.send`. -/
  | sending (ev : NormalizedEvent)
  | ended

/-- Where `run_pipeline` is. -/
inductive PipelineTaskAt
  /-- At its `select!`. -/
  | selecting
  /-- `changed` has returned. -/
  | changed
  /-- With a configuration that is borrowed and nothing rebuilt yet. -/
  | rebuilding (version : Nat) (cfg : Config)
  /-- With a recorded event, waiting for the advisor. -/
  | advising (ev : Numbered)
  /-- Waiting in `proc_tx.send`. -/
  | delivering (ev : Numbered)
  | stopped

/-- Where `run_slow_worker` is. -/
inductive SlowWorkerAt
  | selecting
  | changed
  | rebuilding (cfg : Config)
  | analyzing (copy : Numbered)
  | stopped

structure Dataflow (glob : GlobCrate) (term : Terminal) where
  source : SourceAt
  raw : Channel NormalizedEvent eventCapacity
  /-- `raw_rx_opt` is still there. -/
  listening : Bool
  /-- The number of events received. -/
  received : Nat
  pipeline : PipelineTaskAt
  scopeFilter : ScopeFilter glob
  fastPath : FastPath
  /-- The version of the configuration these two were built from. -/
  built : Nat
  slowDrops : Nat
  slow : Channel Numbered slowCapacity
  worker : SlowWorkerAt
  slowPath : SlowPath
  proc : Channel Numbered eventCapacity
  /-- None when its loop is left. -/
  terminal : Option term.State
  /-- The value of the watch channel, and its version. -/
  published : Config
  version : Nat
  pipelineSeen : Nat
  workerSeen : Nat

namespace Dataflow

variable {glob : GlobCrate} {term : Terminal}

/-- The tasks as `main` spawns them. -/
def init (fromStr : String → Option RuleSet) (fs : FileSystem) (cfg : Config) (slowPath : SlowPath)
    (terminal : term.State) : Dataflow glob term where
  source := .reading
  raw := .empty
  listening := true
  received := 0
  pipeline := .selecting
  scopeFilter := ScopeFilter.new glob cfg.scope
  fastPath := FastPath.new fromStr fs cfg.fastPath
  built := 0
  slowDrops := 0
  slow := .empty
  worker := .selecting
  slowPath := slowPath
  proc := .empty
  terminal := some terminal
  published := cfg
  version := 0
  pipelineSeen := 0
  workerSeen := 0

/-- The receiver of the raw channel is there. -/
def Receiving (s : Dataflow glob term) : Prop := s.listening = true ∧ s.pipeline ≠ .stopped

/-- `slow_tx.try_send` succeeds. -/
def TakesCopy (s : Dataflow glob term) : Prop := s.slow.HasRoom ∧ s.worker ≠ .stopped

end Dataflow

/-- Where the pipeline goes from an event and what was recorded of it. -/
def PipelineTaskAt.withEvent (n : Nat) : Option NormalizedEvent → PipelineTaskAt
  | none => .selecting
  | some ev => .advising (n, ev)

inductive DataflowAction
  | emit (ev : NormalizedEvent)
  /-- The event in the source's hand enters the raw channel. -/
  | enter
  | sourceHangUp
  | sourceEnd
  /-- The pipeline receives an event, with the version of its filters and what it
      records of it, if anything. -/
  | receive (n : Nat) (ev : NormalizedEvent) (built : Nat) (recorded : Option NormalizedEvent)
  | park
  | forward (copy : Numbered)
  /-- No room for a copy, with whether there is a warning. -/
  | drop (copy : Numbered) (warned : Bool)
  | deliver
  | hangUp
  | changed
  | borrow
  | rebuild (cfg : Config) (fs : FileSystem)
  | take (copy : Numbered)
  /-- The worker is done with a copy. -/
  | analyze (n : Nat) (ev : NormalizedEvent) (step : WorkerStep)
  | finish
  | workerChanged
  | workerBorrow
  | workerRebuild (cfg : Config)
  /-- The terminal is shown an event. -/
  | present (ev : Numbered)
  /-- The terminal panics on an event. -/
  | crash (ev : Numbered)
  | turn
  | quit
  | publish (cfg : Config)

inductive DataflowStep (fromStr : String → Option RuleSet) {glob : GlobCrate} {term : Terminal}
    (s : Dataflow glob term) : DataflowAction → Dataflow glob term → Prop
  | emit (ev : NormalizedEvent) (hsource : s.source = .reading) :
      DataflowStep fromStr s (.emit ev) { s with source := .sending ev }
  | enter (ev : NormalizedEvent) (hsource : s.source = .sending ev) (hopen : s.Receiving)
      (hroom : s.raw.HasRoom) :
      DataflowStep fromStr s .enter { s with source := .reading, raw := s.raw.push ev hroom }
  /-- The receiver is gone. -/
  | sourceHangUp (ev : NormalizedEvent) (hsource : s.source = .sending ev)
      (hclosed : ¬ s.Receiving) : DataflowStep fromStr s .sourceHangUp { s with source := .ended }
  | sourceEnd (hsource : s.source = .reading) :
      DataflowStep fromStr s .sourceEnd { s with source := .ended }
  /-- From `recv` to the advisor, without a point where another task could run. -/
  | receive (ev : NormalizedEvent) (rest : List NormalizedEvent) (hphase : s.pipeline = .selecting)
      (hlistening : s.listening = true) (hqueue : s.raw.queue = ev :: rest) :
      DataflowStep fromStr s
        (.receive s.received ev s.built (pipelineEvent glob s.scopeFilter s.fastPath ev))
        { s with
          raw := s.raw.rest
          received := s.received + 1
          pipeline :=
            .withEvent s.received (pipelineEvent glob s.scopeFilter s.fastPath ev) }
  /-- The raw channel is empty and its sender gone. -/
  | park (hphase : s.pipeline = .selecting) (hlistening : s.listening = true)
      (hempty : s.raw.queue = []) (hended : s.source = .ended) :
      DataflowStep fromStr s .park { s with listening := false }
  | forward (copy : Numbered) (hphase : s.pipeline = .advising copy) (htakes : s.TakesCopy) :
      DataflowStep fromStr s (.forward copy)
        { s with pipeline := .delivering copy, slow := s.slow.push copy htakes.1 }
  | drop (copy : Numbered) (hphase : s.pipeline = .advising copy) (hfull : ¬ s.TakesCopy) :
      DataflowStep fromStr s (.drop copy (decide (saturatingSucc s.slowDrops).isPowerOfTwo))
        { s with pipeline := .delivering copy, slowDrops := saturatingSucc s.slowDrops }
  | deliver (ev : Numbered) (hphase : s.pipeline = .delivering ev) (hroom : s.proc.HasRoom)
      (hterminal : s.terminal.isSome) :
      DataflowStep fromStr s .deliver
        { s with pipeline := .selecting, proc := s.proc.push ev hroom }
  | hangUp (ev : Numbered) (hphase : s.pipeline = .delivering ev) (hgone : s.terminal = none) :
      DataflowStep fromStr s .hangUp { s with pipeline := .stopped }
  | changed (hphase : s.pipeline = .selecting) (hunseen : s.pipelineSeen ≠ s.version) :
      DataflowStep fromStr s .changed { s with pipeline := .changed, pipelineSeen := s.version }
  | borrow (hphase : s.pipeline = .changed) :
      DataflowStep fromStr s .borrow { s with pipeline := .rebuilding s.version s.published }
  | rebuild (version : Nat) (cfg : Config) (fs : FileSystem)
      (hphase : s.pipeline = .rebuilding version cfg) :
      DataflowStep fromStr s (.rebuild cfg fs)
        { s with
          pipeline := .selecting
          scopeFilter := ScopeFilter.new glob cfg.scope
          fastPath := FastPath.new fromStr fs cfg.fastPath
          built := version }
  | take (copy : Numbered) (rest : List Numbered) (hphase : s.worker = .selecting)
      (hqueue : s.slow.queue = copy :: rest) :
      DataflowStep fromStr s (.take copy) { s with worker := .analyzing copy, slow := s.slow.rest }
  | analyze (copy : Numbered) (provider : NormalizedEvent → Except String (List Float32))
      (qdrantSearch : List Float32 → Nat → Float32 → Except String (List Float32))
      (hphase : s.worker = .analyzing copy) :
      DataflowStep fromStr s
        (.analyze copy.1 copy.2 (slowWorkerEvent (s.slowPath.answering provider qdrantSearch) copy.2))
        { s with
          worker := .selecting
          slowPath :=
            (slowWorkerEvent (s.slowPath.answering provider qdrantSearch) copy.2).slowPath }
  /-- The pipeline is gone and the channel is empty. -/
  | finish (hphase : s.worker = .selecting) (hgone : s.pipeline = .stopped)
      (hempty : s.slow.queue = []) :
      DataflowStep fromStr s .finish { s with worker := .stopped }
  | workerChanged (hphase : s.worker = .selecting) (hunseen : s.workerSeen ≠ s.version) :
      DataflowStep fromStr s .workerChanged { s with worker := .changed, workerSeen := s.version }
  | workerBorrow (hphase : s.worker = .changed) :
      DataflowStep fromStr s .workerBorrow { s with worker := .rebuilding s.published }
  | workerRebuild (cfg : Config) (embedder : Embedder)
      (qdrantSearch : List Float32 → Nat → Float32 → Except String (List Float32))
      (qdrantEnsured : Bool) (hphase : s.worker = .rebuilding cfg) :
      DataflowStep fromStr s (.workerRebuild cfg)
        { s with
          worker := .selecting
          slowPath := SlowPath.new cfg.slowPath embedder qdrantSearch qdrantEnsured }
  | present (ev : Numbered) (rest : List Numbered) (st st' : term.State)
      (hterminal : s.terminal = some st) (hqueue : s.proc.queue = ev :: rest)
      (hpush : term.push st ev.2 = some st') :
      DataflowStep fromStr s (.present ev) { s with terminal := some st', proc := s.proc.rest }
  | crash (ev : Numbered) (rest : List Numbered) (st : term.State)
      (hterminal : s.terminal = some st) (hqueue : s.proc.queue = ev :: rest)
      (hpush : term.push st ev.2 = none) :
      DataflowStep fromStr s (.crash ev) { s with terminal := none, proc := s.proc.rest }
  | turn (st st' : term.State) (hterminal : s.terminal = some st) (hturn : term.Turn st st')
      (hstays : ¬ term.Quits st') :
      DataflowStep fromStr s .turn { s with terminal := some st' }
  | quit (st st' : term.State) (hterminal : s.terminal = some st) (hturn : term.Turn st st')
      (hquits : term.Quits st') :
      DataflowStep fromStr s .quit { s with terminal := none }
  /-- The hot reload task sends a configuration. -/
  | publish (cfg : Config) :
      DataflowStep fromStr s (.publish cfg)
        { s with published := cfg, version := s.version + 1 }

end VectorGuard
