import VectorGuard.Core.Auditd
import VectorGuard.Core.Falco
import VectorGuard.Lib.Framing

/-!
# Log Tailing

The loop of `next_event` in the Falco and auditd adapters (`adapter/falco.rs`,
`adapter/auditd.rs`), which is the same in both.

The adapter reads a log that is still being written, from the end it had when
it was opened. `read_line` returns at a newline or at the end of the file: with
nothing left to read the adapter waits and tries again, and with part of a line
it goes on as if the line ended there. Text that is not UTF-8 makes
`next_event` fail, and what was read of it is gone.

One step of the model is one turn of the loop or one append by the writer. A
read may fill its buffer several times, but what it takes is contiguous, so it
is one step, at the time of its last fill. Opening the log is left out.

## Main definitions

* `LogAdapter`: The two adapters, as functions on lines.
* `Tail`: The unread bytes and what the calls have returned.
* `Tail.readLine`: One turn of the loop.
* `TailStep`: One turn of the loop or one append.
-/

namespace VectorGuard

/-- The adapters that tail a log. -/
inductive LogAdapter
  | falco (fromStr : String → Option Value)
  | auditd

/-- What a line that was read becomes, none when the loop goes on. -/
def LogAdapter.lineEvent (id : UInt64) (line : String) : LogAdapter → Option SourceEvent
  | .falco fromStr =>
    let line := trim line
    if line.isEmpty then none else parseFalcoJson fromStr id line
  | .auditd =>
    let line := trim line
    if line.isEmpty then none
    -- Only SYSCALL records become events.
    else if !containsStr line "type=SYSCALL" then none
    else some (parseAuditdSyscall id line)

structure Tail where
  /-- Bytes in the log that have not been read. -/
  unread : List UInt8
  /-- The counter of the adapter. -/
  nextId : UInt64
  /-- What the calls of `next_event` have returned. -/
  returned : List (Except String SourceEvent)

namespace Tail

/-- The adapter after it has opened the log. -/
def init (nextId : UInt64) : Tail := ⟨[], nextId, []⟩

/-- `AsyncBufReadExt::read_line`: the bytes it takes and the bytes it leaves. -/
def takeLine (unread : List UInt8) : List UInt8 × List UInt8 :=
  Framing.readFrame 10 unread

/-- One turn of the loop of `next_event`. -/
def readLine (adapter : LogAdapter) (s : Tail) : Tail :=
  let (taken, rest) := takeLine s.unread
  -- End of file: wait for new data.
  if taken.isEmpty then s
  else match fromUtf8 taken with
    | none =>
      { s with
        unread := rest
        returned := s.returned ++ [.error "stream did not contain valid UTF-8"] }
    | some line => match adapter.lineEvent s.nextId line with
      | some ev =>
        { unread := rest
          nextId := s.nextId + 1
          returned := s.returned ++ [.ok ev] }
      | none => { s with unread := rest }

end Tail

inductive TailAction
  | append (bytes : List UInt8)
  /-- A read that finds nothing. -/
  | wait
  /-- A read that finds a newline. -/
  | line
  /-- A read that finds bytes but no newline. -/
  | partialLine

/-- The writer appends, or the adapter reads. -/
inductive TailStep (adapter : LogAdapter) (s : Tail) : TailAction → Tail → Prop
  | append (bs : List UInt8) :
      TailStep adapter s (.append bs) { s with unread := s.unread ++ bs }
  | wait (hempty : s.unread = []) : TailStep adapter s .wait (s.readLine adapter)
  | line (hnewline : 10 ∈ s.unread) : TailStep adapter s .line (s.readLine adapter)
  | partialLine (hsome : s.unread ≠ []) (hnewline : 10 ∉ s.unread) :
      TailStep adapter s .partialLine (s.readLine adapter)

/-- All bytes a run appends. -/
def appended (acts : List TailAction) : List UInt8 :=
  acts.flatMap (fun a => match a with
    | .append bs => bs
    | _ => [])

/-- The text of a line in the log. -/
def logLine (line : String) : String := line ++ "\n"

/-- The bytes of a log. -/
def logBytes (lines : List String) : List UInt8 :=
  lines.flatMap (fun line => bytes (logLine line))

/-- The events of a log, one line after the other. -/
def logEvents (adapter : LogAdapter) (id : UInt64) : List String → List SourceEvent
  | [] => []
  | line :: rest => match adapter.lineEvent id (logLine line) with
    | some ev => ev :: logEvents adapter (id + 1) rest
    | none => logEvents adapter id rest

end VectorGuard
