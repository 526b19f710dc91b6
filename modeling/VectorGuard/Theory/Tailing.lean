import VectorGuard.Core.Tail
import VectorGuard.Lib.Transition

/-!
# Tailing

What the log adapters return while the log is being written.

As long as every read finds a newline or nothing at all, the adapter stands at
the start of a line whenever it reads, and what it has returned is what the
lines it has read decode to, wherever the writer's appends were cut. A read
that finds part of a line breaks this for good: the part is decoded on its own
and the remainder becomes a line of its own. For an audit record the part is
often a record, with its last number cut short and the later fields missing.

## Theorems

* `logEvents_append`: The events of a log in two parts.
* `readLine_logBytes`: A read at the start of a line that finds a newline.
* `tail_of_run`: The position of the adapter in a run of whole reads.
* `returned_of_wholeReads`: What such a run returns.
-/

namespace VectorGuard

variable {adapter : LogAdapter} {id : UInt64} {acts : List TailAction} {s : Tail}

theorem bytes_logLine (line : String) : bytes (logLine line) = bytes line ++ [10] := by
  unfold bytes logLine
  rw [String.toByteArray_append, ByteArray.data_append, Array.toList_append]
  rfl

/-- A log is the stream of its lines, each closed by a newline. -/
theorem logBytes_eq_frames (lines : List String) :
    logBytes lines = Framing.frames 10 (lines.map bytes) := by
  unfold logBytes Framing.frames
  rw [List.flatMap_map]
  exact List.flatMap_congr (fun line _ => bytes_logLine line)

theorem logEvents_append (id : UInt64) (lines lines' : List String) :
    logEvents adapter id (lines ++ lines')
      = logEvents adapter id lines
        ++ logEvents adapter (id + UInt64.ofNat (logEvents adapter id lines).length) lines' := by
  induction lines generalizing id with
  | nil =>
      exact congrArg (fun i => logEvents adapter i lines') (UInt64.add_zero id).symm
  | cons line rest ih =>
      rw [List.cons_append, logEvents, logEvents]
      cases adapter.lineEvent id (logLine line) with
      | none =>
          exact ih id
      | some ev =>
          simp only [List.cons_append, ih (id + 1), List.length_cons, UInt64.ofNat_add,
            UInt64.ofNat_one]
          rw [UInt64.add_assoc, UInt64.add_comm 1]

/-- A read at the start of a line that finds a newline takes that line, and the
    call returns its event, if it has one. -/
theorem readLine_logBytes (line : String) (rest : List UInt8)
    (htake : Tail.takeLine s.unread = (bytes (logLine line), rest)) :
    s.readLine adapter
      = { unread := rest
          nextId := s.nextId + UInt64.ofNat (logEvents adapter s.nextId [line]).length
          returned := s.returned ++ (logEvents adapter s.nextId [line]).map .ok } := by
  -- A line has at least its newline, so the read is not taken for the end.
  have hsome : (bytes (logLine line)).isEmpty = false := by
    rw [bytes_logLine]
    cases bytes line <;> rfl
  unfold Tail.readLine
  rw [htake]
  simp only [hsome, Bool.false_eq_true, if_false, fromUtf8_bytes, logEvents]
  cases adapter.lineEvent s.nextId (logLine line) with
  | none =>
      simp only [List.map_nil, List.append_nil, List.length_nil]
      exact congrArg (fun i => Tail.mk rest i s.returned) (UInt64.add_zero _).symm
  | some ev =>
      rfl

/-- In a run of whole reads the adapter stands at the start of a line: the lines
    before it are decoded, and what is unread continues the log. -/
theorem tail_of_run (lines : List String) (hlines : ∀ line ∈ lines, 10 ∉ bytes line)
    (hrun : Transition.Run (TailStep adapter) (Tail.init id) acts s) :
    .partialLine ∉ acts → ∀ later, appended acts ++ later = logBytes lines →
      ∃ done left, lines = done ++ left ∧ s.unread ++ later = logBytes left ∧
        s.nextId = id + UInt64.ofNat (logEvents adapter id done).length ∧
        s.returned = (logEvents adapter id done).map .ok := by
  -- What is still to be appended is quantified over, so that an append moves its
  -- bytes from there to what is unread.
  refine hrun.invariant (I := fun acts s => .partialLine ∉ acts → ∀ later,
    appended acts ++ later = logBytes lines → ∃ done left, lines = done ++ left ∧
      s.unread ++ later = logBytes left ∧
      s.nextId = id + UInt64.ofNat (logEvents adapter id done).length ∧
      s.returned = (logEvents adapter id done).map .ok) ?_ ?_
  · intro _ later hlater
    exact ⟨[], lines, rfl, hlater, (UInt64.add_zero id).symm, rfl⟩
  · intro acts t a u _ ih hstep hwhole later hlater
    rw [List.mem_append, List.mem_singleton, not_or] at hwhole
    have hbefore := ih hwhole.1
    unfold appended at hlater
    rw [List.flatMap_append, List.flatMap_singleton] at hlater
    cases hstep with
    | append bs =>
        -- What is appended now was still to come before.
        rw [List.append_assoc] at hlater
        rcases hbefore (bs ++ later) hlater with ⟨done, left, hsplit, hunread, hid, hreturned⟩
        refine ⟨done, left, hsplit, ?_, hid, hreturned⟩
        rw [List.append_assoc]
        exact hunread
    | wait hempty =>
        -- A read at the end of the file leaves the adapter as it is.
        rw [List.append_nil] at hlater
        have hidle : t.readLine adapter = t := by
          unfold Tail.readLine
          rw [hempty]
          rfl
        rw [hidle]
        exact hbefore later hlater
    | line hnewline =>
        rw [List.append_nil] at hlater
        rcases hbefore later hlater with ⟨done, left, hsplit, hunread, hid, hreturned⟩
        -- The bytes in hand begin with a whole frame, the first line that is left.
        rw [logBytes_eq_frames] at hunread
        have hleft : ∀ r ∈ left.map bytes, 10 ∉ r := by
          intro r hr
          rcases List.mem_map.mp hr with ⟨line, hline, rfl⟩
          exact hlines line (hsplit ▸ List.mem_append_right done hline)
        rcases Framing.readFrame_frames 10 (left.map bytes) t.unread later hleft hunread hnewline
          with ⟨r, rs, rest, hrecords, htake, hrest⟩
        rcases List.map_eq_cons_iff.mp hrecords with ⟨line, left', rfl, rfl, rfl⟩
        rw [← bytes_logLine] at htake
        rw [readLine_logBytes line rest htake]
        refine ⟨done ++ [line], left', ?_, ?_, ?_, ?_⟩
        · rw [hsplit, List.append_assoc, List.singleton_append]
        · rw [logBytes_eq_frames]
          exact hrest
        · simp only [logEvents_append, List.length_append, UInt64.ofNat_add, hid]
          exact UInt64.add_assoc _ _ _
        · simp only [logEvents_append, List.map_append, hreturned, hid]
    | partialLine hsome hnewline =>
        exact absurd rfl hwhole.2

theorem logBytes_append (lines lines' : List String) :
    logBytes (lines ++ lines') = logBytes lines ++ logBytes lines' :=
  List.flatMap_append

theorem logBytes_eq_nil_iff (lines : List String) : logBytes lines = [] ↔ lines = [] := by
  rw [logBytes_eq_frames, Framing.frames_eq_nil_iff, List.map_eq_nil_iff]

/-- A run that writes a log, in whatever pieces, and in which no read finds part
    of a line returns at every point the events of the lines it has read, and
    the events of the whole log once it has read all of it. -/
theorem returned_of_wholeReads (lines : List String) (hlines : ∀ line ∈ lines, 10 ∉ bytes line)
    (hrun : Transition.Run (TailStep adapter) (Tail.init id) acts s)
    (hwhole : .partialLine ∉ acts) (hwritten : appended acts <+: logBytes lines) :
    (∃ done left, lines = done ++ left ∧ logBytes done ++ s.unread = appended acts ∧
        s.returned = (logEvents adapter id done).map .ok) ∧
      (appended acts = logBytes lines → s.unread = [] →
        s.returned = (logEvents adapter id lines).map .ok) := by
  rcases hwritten with ⟨later, hlater⟩
  rcases tail_of_run lines hlines hrun hwhole later hlater
    with ⟨done, left, hsplit, hunread, _, hreturned⟩
  constructor
  · refine ⟨done, left, hsplit, ?_, hreturned⟩
    rw [← List.append_left_inj later, hlater, List.append_assoc, hunread, hsplit, logBytes_append]
  · intro hall hdrained
    -- Nothing is unread and nothing is to come, so no line is left.
    rw [hall, List.append_right_eq_self] at hlater
    rw [hdrained, hlater, List.append_nil, eq_comm, logBytes_eq_nil_iff] at hunread
    rw [hsplit, hunread, List.append_nil]
    exact hreturned

/-- An audit record of an `nc` run by root, cut inside its process number. -/
def ncFront : String := "type=SYSCALL syscall=59 pid=42"

def ncBack : String := "17 uid=0 comm=\"nc\""

def ncRecord : String := ncFront ++ ncBack

/-- The reads of an adapter that arrive between two appends are harmless while
    they find nothing. -/
theorem ncRecord_returned :
    ∃ s, Transition.Run (TailStep .auditd) (Tail.init 0)
        [.wait, .append (bytes ncFront), .append (bytes ncBack ++ [10]), .line] s ∧
      s.returned = (logEvents .auditd 0 [ncRecord]).map .ok := by
  have hrun : Transition.Run (TailStep .auditd) (Tail.init 0) [] _ := Transition.Run.nil
  have hrun := hrun.snoc (.wait rfl)
  have hrun := hrun.snoc (.append (bytes ncFront))
  have hrun := hrun.snoc (.append (bytes ncBack ++ [10]))
  have hrun := hrun.snoc (.line (by decide))
  refine ⟨_, hrun, (returned_of_wholeReads [ncRecord] (by decide) hrun (by simp) ?_).2 ?_ ?_⟩
  · exact ⟨[], by decide⟩
  · decide
  · decide

/-- The same record, read once before and once after its end arrives, is
    returned as a record of another process by another user. -/
theorem ncRecord_torn :
    ∃ s, Transition.Run (TailStep .auditd) (Tail.init 0)
        [.append (bytes ncFront), .partialLine, .append (bytes ncBack ++ [10]), .line] s ∧
      appended [.append (bytes ncFront), .partialLine, .append (bytes ncBack ++ [10]), .line]
        = logBytes [ncRecord] ∧
      s.unread = [] ∧
      s.returned.map (Except.map (fun ev => (ev.process.pid, ev.process.uid)))
        = [.ok (42, 65534)] ∧
      (logEvents .auditd 0 [ncRecord]).map (fun ev => (ev.process.pid, ev.process.uid))
        = [(4217, 0)] := by
  have hrun : Transition.Run (TailStep .auditd) (Tail.init 0) [] _ := Transition.Run.nil
  have hrun := hrun.snoc (.append (bytes ncFront))
  have hrun := hrun.snoc (.partialLine (by decide) (by decide))
  have hrun := hrun.snoc (.append (bytes ncBack ++ [10]))
  have hrun := hrun.snoc (.line (by decide))
  exact ⟨_, hrun, by decide, by decide, by rfl, by decide⟩

end VectorGuard
