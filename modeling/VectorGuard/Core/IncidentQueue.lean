import VectorGuard.Core.Incident

/-!
# Incident Queue

How an incident gets from a call of `record` into the log file
(`incident.rs`). Callers in different tasks share a sender behind a lock that
`record` only tries to take, a bounded channel, and a writer task that appends
line after line to the file.

A call of `record` decides without the lock whether there is a line to queue.
A call with a line then tries the lock once, and whoever holds it sends and
lets go in steps of its own, so other calls may find the lock held. The sender
is stored when the logger is built and never taken out; its absence is kept as
the branch it is in the code.

The writer opens the file first. If that fails it returns, what is in the channel is
lost, and no call can send any more. A write may fail after any part of the text; the
writer then goes on with the next line, and a line that is not written to its end gets no
newline.

Serialization is a parameter: the text of a record, none when it fails.

## Main definitions

* `IncidentLog`: The state callers and writer share.
* `LogStep`: One step of a caller or of the writer.
* `LogAction.returns`: The call that returns in a step, with its value.
-/

namespace VectorGuard

/-- The capacity of the channel to the writer. -/
def channelCapacity : Nat := 1024

/-- What a call does while it holds the lock. -/
inductive Holder
  | sending (event : NormalizedEvent) (json : String)
  | returning (event : NormalizedEvent) (queued : Bool)

/-- What the writer has in hand. -/
inductive WriterPhase
  | opening
  | receiving
  | writingLine (line : String)
  | writingNewline
  /-- The writer has returned, for want of a file. -/
  | gone
  deriving DecidableEq

structure IncidentLog where
  /-- The lock holds a sender. -/
  sender : Bool
  /-- The call that holds the lock, none when it is free. -/
  holder : Option Holder
  queue : List String
  writer : WriterPhase
  file : String

/-- The logger as it is built, with what the file held before. -/
def IncidentLog.init (file : String) : IncidentLog where
  sender := true
  holder := none
  queue := []
  writer := .opening
  file := file

/-- The line `record` has to queue for an event, none when it returns early. -/
def incidentLine (toJson : IncidentRecord → Option String) (event : NormalizedEvent) :
    Option String :=
  (incidentRecord event).bind toJson

inductive LogAction
  /-- A call returns before it tries the lock. -/
  | skip (event : NormalizedEvent)
  | lock (event : NormalizedEvent)
  /-- A call finds the lock held and returns. -/
  | contended (event : NormalizedEvent)
  | noSender
  | send
  | overflow
  /-- A call finds that there is no writer. -/
  | closed
  /-- The call that holds the lock lets go and returns. -/
  | release (event : NormalizedEvent) (queued : Bool)
  | openFile
  | openFailed
  | receive
  | writeLine
  | writeNewline
  /-- Only a part of a line is written. -/
  | lineFailed (part : String)
  | newlineFailed

/-- The call of `record` that returns in a step, with the value it returns. -/
def LogAction.returns : LogAction → Option (NormalizedEvent × Bool)
  | .skip event => some (event, false)
  -- A lock that is held is passed over in silence.
  | .contended event => some (event, true)
  | .release event queued => some (event, queued)
  | _ => none

/-- A write fails in a step. -/
def LogAction.writeFails : LogAction → Bool
  | .lineFailed _ | .newlineFailed => true
  | _ => false

inductive LogStep (toJson : IncidentRecord → Option String) (s : IncidentLog) :
    LogAction → IncidentLog → Prop
  | skip (event : NormalizedEvent) (hline : incidentLine toJson event = none) :
      LogStep toJson s (.skip event) s
  | lock (event : NormalizedEvent) (json : String) (hline : incidentLine toJson event = some json)
      (hfree : s.holder = none) :
      LogStep toJson s (.lock event) { s with holder := some (.sending event json) }
  | contended (event : NormalizedEvent) (json : String)
      (hline : incidentLine toJson event = some json) (hheld : s.holder ≠ none) :
      LogStep toJson s (.contended event) s
  | noSender (event : NormalizedEvent) (json : String)
      (hholder : s.holder = some (.sending event json)) (hsender : s.sender = false) :
      LogStep toJson s .noSender { s with holder := some (.returning event true) }
  | send (event : NormalizedEvent) (json : String)
      (hholder : s.holder = some (.sending event json)) (hsender : s.sender = true)
      (hopen : s.writer ≠ .gone) (hroom : s.queue.length < channelCapacity) :
      LogStep toJson s .send
        { s with queue := s.queue ++ [json], holder := some (.returning event true) }
  | overflow (event : NormalizedEvent) (json : String)
      (hholder : s.holder = some (.sending event json)) (hsender : s.sender = true)
      (hfull : channelCapacity ≤ s.queue.length) :
      LogStep toJson s .overflow { s with holder := some (.returning event false) }
  | closed (event : NormalizedEvent) (json : String)
      (hholder : s.holder = some (.sending event json)) (hsender : s.sender = true)
      (hgone : s.writer = .gone) :
      LogStep toJson s .closed { s with holder := some (.returning event false) }
  | release (event : NormalizedEvent) (queued : Bool)
      (hholder : s.holder = some (.returning event queued)) :
      LogStep toJson s (.release event queued) { s with holder := none }
  | openFile (hopening : s.writer = .opening) :
      LogStep toJson s .openFile { s with writer := .receiving }
  | openFailed (hopening : s.writer = .opening) :
      LogStep toJson s .openFailed { s with queue := [], writer := .gone }
  | receive (line : String) (rest : List String) (hidle : s.writer = .receiving)
      (hqueue : s.queue = line :: rest) :
      LogStep toJson s .receive { s with queue := rest, writer := .writingLine line }
  | writeLine (line : String) (hwriter : s.writer = .writingLine line) :
      LogStep toJson s .writeLine { s with file := s.file ++ line, writer := .writingNewline }
  | writeNewline (hwriter : s.writer = .writingNewline) :
      LogStep toJson s .writeNewline { s with file := s.file ++ "\n", writer := .receiving }
  | lineFailed (line part : String) (hwriter : s.writer = .writingLine line)
      (hpart : part.toList <+: line.toList) :
      LogStep toJson s (.lineFailed part) { s with file := s.file ++ part, writer := .receiving }
  | newlineFailed (hwriter : s.writer = .writingNewline) :
      LogStep toJson s .newlineFailed { s with writer := .receiving }

/-- No call is between lock and return, and the writer has drained the channel. -/
structure IncidentLog.Drained (s : IncidentLog) : Prop where
  free : s.holder = none
  empty : s.queue = []
  idle : s.writer = .receiving

end VectorGuard
