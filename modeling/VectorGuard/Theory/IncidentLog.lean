import VectorGuard.Core.IncidentQueue
import VectorGuard.Lib.Transition

/-!
# The Incident Log

Whether the answer of `record` can be trusted.

A call that gets the lock answers truthfully: its line is in the channel when it
returns true, and the writer empties the channel in order, as far as the file opens and
can be written. A call that finds the lock held by another call queues nothing and returns
true all the same. So the file accounts for every call that returned true in exactly those
runs in which no call meets another inside the lock, which is what `file_of_uncontended`
shows of them.

## Main definitions

* `linesText`: The text of some lines.
* `trueCalls`: The events of the calls that returned true, in order.
* `owedCalls`: These, and the call that will return true when it lets go.

## Theorems

* `accounted_of_run`: Where the lines of a run without contention are.
* `file_of_uncontended`: What the file holds once the channel has drained.
-/

namespace VectorGuard

variable {toJson : IncidentRecord → Option String} {start : String} {acts : List LogAction}
  {s : IncidentLog}

/-- The text of some lines, each closed by a newline. -/
def linesText : List String → String
  | [] => ""
  | line :: rest => line ++ "\n" ++ linesText rest

theorem linesText_append (lines lines' : List String) :
    linesText (lines ++ lines') = linesText lines ++ linesText lines' := by
  induction lines with
  | nil =>
      exact String.empty_append.symm
  | cons line rest ih =>
      rw [List.cons_append, linesText, linesText, ih]
      simp only [String.append_assoc]

/-- The events of the calls that returned true, in the order they returned. -/
def trueCalls (acts : List LogAction) : List NormalizedEvent :=
  acts.filterMap (fun a => match a.returns with
    | some (event, true) => some event
    | _ => none)

/-- The call that has queued its line and has not returned yet. -/
def Holder.owed : Option Holder → List NormalizedEvent
  | some (.returning event true) => [event]
  | _ => []

/-- The calls that have returned true or are about to. -/
def owedCalls (acts : List LogAction) (s : IncidentLog) : List NormalizedEvent :=
  trueCalls acts ++ Holder.owed s.holder

/-- What the writer has taken out of the channel and not yet written. -/
def WriterPhase.rest : WriterPhase → String
  | .writingLine line => line ++ "\n"
  | .writingNewline => "\n"
  | .opening | .receiving | .gone => ""

/-- The file as it will be when the writer has emptied the channel. -/
def eventualFile (s : IncidentLog) : String :=
  s.file ++ s.writer.rest ++ linesText s.queue

/-- The sender is in place, a call inside the lock has the line of its event,
    and the lines on their way to the file, unless there is none, are those the calls
    answer for. -/
structure Accounted (toJson : IncidentRecord → Option String) (start : String)
    (acts : List LogAction) (s : IncidentLog) : Prop where
  sender : s.sender = true
  holder : ∀ event json, s.holder = some (.sending event json) →
    incidentLine toJson event = some json
  lines : s.writer ≠ .gone →
    ∃ lines, (owedCalls acts s).map (incidentLine toJson) = lines.map some ∧
      eventualFile s = start ++ linesText lines

theorem trueCalls_snoc (acts : List LogAction) (a : LogAction) :
    trueCalls (acts ++ [a]) = trueCalls acts ++ trueCalls [a] := by
  unfold trueCalls
  rw [List.filterMap_append]

/-- A writer that has returned stays away. -/
theorem gone_step {t u : IncidentLog} {a : LogAction} (hstep : LogStep toJson t a u)
    (h : t.writer = .gone) : u.writer = .gone := by
  cases hstep with
  | openFailed _ => rfl
  | openFile hwriter => rw [h] at hwriter; cases hwriter
  | receive _ _ hwriter _ => rw [h] at hwriter; cases hwriter
  | writeLine _ hwriter => rw [h] at hwriter; cases hwriter
  | writeNewline hwriter => rw [h] at hwriter; cases hwriter
  | lineFailed _ _ hwriter _ => rw [h] at hwriter; cases hwriter
  | newlineFailed hwriter => rw [h] at hwriter; cases hwriter
  | _ => exact h

/-- A step other than a contended call or a write that fails queues the line of a call
    that will return true, or leaves both as they are, while there is a writer. -/
theorem step_lines (t u : IncidentLog) (a : LogAction) (hacc : Accounted toJson start acts t)
    (hstep : LogStep toJson t a u) (hfree : ∀ event, a ≠ .contended event)
    (hworks : a.writeFails = false) (hthere : u.writer ≠ .gone) :
    ∃ calls lines, owedCalls (acts ++ [a]) u = owedCalls acts t ++ calls ∧
      calls.map (incidentLine toJson) = lines.map some ∧
      eventualFile u = eventualFile t ++ linesText lines := by
  unfold owedCalls
  rw [trueCalls_snoc]
  cases hstep with
  | skip event hline =>
      exact ⟨[], [], by simp [trueCalls, LogAction.returns], rfl, String.append_empty.symm⟩
  | lock event json hline hlock =>
      rw [hlock]
      exact ⟨[], [], by simp [trueCalls, LogAction.returns, Holder.owed], rfl,
        String.append_empty.symm⟩
  | contended event json hline hheld =>
      exact absurd rfl (hfree event)
  | noSender event json hholder hsender =>
      -- The sender is never taken out.
      rw [hacc.sender] at hsender
      exact absurd hsender (by decide)
  | send event json hholder hsender _ hroom =>
      -- The line goes into the channel and the call will return true.
      refine ⟨[event], [json], ?_, ?_, ?_⟩
      · simp [hholder, trueCalls, LogAction.returns, Holder.owed]
      · rw [List.map_singleton, hacc.holder event json hholder, List.map_singleton]
      · unfold eventualFile
        simp only [linesText_append, String.append_assoc]
  | overflow event json hholder hsender hfull =>
      -- The call will return false.
      exact ⟨[], [], by simp [hholder, trueCalls, LogAction.returns, Holder.owed], rfl,
        String.append_empty.symm⟩
  | closed event json hholder hsender hgone =>
      exact absurd hgone hthere
  | release event queued hholder =>
      -- What the call owed is now accounted for by its answer.
      refine ⟨[], [], ?_, rfl, String.append_empty.symm⟩
      cases queued <;>
        simp [hholder, trueCalls, LogAction.returns, Holder.owed]
  | openFile hopening =>
      refine ⟨[], [], by simp [trueCalls, LogAction.returns], rfl, ?_⟩
      unfold eventualFile
      rw [hopening]
      exact String.append_empty.symm
  | openFailed hopening =>
      exact absurd rfl hthere
  | receive line rest hidle hqueue =>
      -- The writer moves text along, from the channel to the file.
      refine ⟨[], [], by simp [trueCalls, LogAction.returns], rfl, ?_⟩
      unfold eventualFile
      rw [hidle, hqueue]
      simp only [WriterPhase.rest, linesText, String.append_empty, String.append_assoc]
  | writeLine line hwriter =>
      refine ⟨[], [], by simp [trueCalls, LogAction.returns], rfl, ?_⟩
      unfold eventualFile
      rw [hwriter]
      simp only [WriterPhase.rest, linesText, String.append_empty, String.append_assoc]
  | writeNewline hwriter =>
      refine ⟨[], [], by simp [trueCalls, LogAction.returns], rfl, ?_⟩
      unfold eventualFile
      rw [hwriter]
      simp only [WriterPhase.rest, linesText, String.append_empty, String.append_assoc]
  | lineFailed line part hwriter hpart =>
      exact absurd hworks (by simp [LogAction.writeFails])
  | newlineFailed hwriter =>
      exact absurd hworks (by simp [LogAction.writeFails])

/-- A call inside the lock has the line of its event, and nobody takes the
    sender out. -/
theorem step_holder (t u : IncidentLog) (a : LogAction) (hstep : LogStep toJson t a u)
    (hholder : ∀ event json, t.holder = some (.sending event json) →
      incidentLine toJson event = some json) :
    u.sender = t.sender ∧ ∀ event json, u.holder = some (.sending event json) →
      incidentLine toJson event = some json := by
  cases hstep with
  | lock event json hline hlock =>
      refine ⟨rfl, fun event' json' h => ?_⟩
      simp only [Option.some.injEq, Holder.sending.injEq] at h
      rw [← h.1, ← h.2]
      exact hline
  | noSender event json _ hsender =>
      exact ⟨rfl, fun _ _ h => absurd h (by simp)⟩
  | send event json _ hsender _ hroom =>
      exact ⟨rfl, fun _ _ h => absurd h (by simp)⟩
  | closed event json _ hsender hgone =>
      exact ⟨rfl, fun _ _ h => absurd h (by simp)⟩
  | overflow event json _ hsender hfull =>
      exact ⟨rfl, fun _ _ h => absurd h (by simp)⟩
  | release event queued _ =>
      exact ⟨rfl, fun _ _ h => absurd h (by simp)⟩
  | _ =>
      exact ⟨rfl, hholder⟩

/-- Without contention every line is accounted for, as long as no write fails. -/
theorem accounted_of_run
    (hrun : Transition.Run (LogStep toJson) (IncidentLog.init start) acts s) :
    (∀ event, .contended event ∉ acts) → (∀ a ∈ acts, a.writeFails = false) →
      Accounted toJson start acts s := by
  refine hrun.invariant (I := fun acts s => (∀ event, .contended event ∉ acts) →
    (∀ a ∈ acts, a.writeFails = false) → Accounted toJson start acts s) ?_ ?_
  · intro _ _
    refine ⟨rfl, fun _ _ h => absurd h (by simp [IncidentLog.init]), fun _ => ⟨[], rfl, ?_⟩⟩
    simp [eventualFile, IncidentLog.init, WriterPhase.rest, linesText]
  · -- The calls grow by those of the step and the file by their lines.
    intro acts t a u _ ih hstep hfree hworks
    have hacc := ih (fun event hmem => hfree event (List.mem_append_left _ hmem))
      (fun a hmem => hworks a (List.mem_append_left _ hmem))
    have hnot : ∀ event, a ≠ .contended event := by
      intro event heq
      exact hfree event (heq ▸ List.mem_append_right acts List.mem_cons_self)
    rcases step_holder t u a hstep hacc.holder with ⟨hsender, hholder⟩
    refine ⟨hsender.trans hacc.sender, hholder, fun hthere => ?_⟩
    have hwork := hworks a (List.mem_append_right acts List.mem_cons_self)
    rcases step_lines t u a hacc hstep hnot hwork hthere with ⟨calls, new, howed, hnew, hfile⟩
    rcases hacc.lines (fun hgone => hthere (gone_step hstep hgone)) with ⟨lines, hlines, hold⟩
    refine ⟨lines ++ new, ?_, ?_⟩
    · rw [howed, List.map_append, List.map_append, hlines, hnew]
    · rw [hfile, hold, linesText_append]
      simp only [String.append_assoc]

/-- In a run in which no call finds the lock held and no write fails, the file holds, once
    the writer has drained the channel, what it held before and one line for every call
    that returned true, in order. Only calls with a line return true. -/
theorem file_of_uncontended
    (hrun : Transition.Run (LogStep toJson) (IncidentLog.init start) acts s)
    (hfree : ∀ event, .contended event ∉ acts) (hworks : ∀ a ∈ acts, a.writeFails = false)
    (hdrained : s.Drained) :
    ∃ lines, (trueCalls acts).map (incidentLine toJson) = lines.map some ∧
      s.file = start ++ linesText lines := by
  have hthere : s.writer ≠ .gone := by
    rw [hdrained.idle]
    exact WriterPhase.noConfusion
  rcases (accounted_of_run hrun hfree hworks).lines hthere with ⟨lines, hlines, hfile⟩
  refine ⟨lines, ?_, ?_⟩
  · unfold owedCalls at hlines
    rw [hdrained.free] at hlines
    simp only [Holder.owed, List.append_nil] at hlines
    exact hlines
  · unfold eventualFile at hfile
    rw [hdrained.empty, hdrained.idle] at hfile
    simp only [WriterPhase.rest, linesText, String.append_empty] at hfile
    exact hfile

/-- A serialization that keeps the binary only. -/
def binaryJson (record : IncidentRecord) : Option String := some record.binary

/-- One call and the writer, one after the other. -/
theorem nc_logged :
    ∃ s, Transition.Run (LogStep binaryJson) (IncidentLog.init "")
        [.openFile, .lock (.plainAlert "nc"), .send, .release (.plainAlert "nc") true, .receive,
          .writeLine, .writeNewline] s ∧
      ∃ lines, (trueCalls [.openFile, .lock (.plainAlert "nc"), .send,
          .release (.plainAlert "nc") true, .receive, .writeLine, .writeNewline]).map
            (incidentLine binaryJson) = lines.map some ∧
        s.file = "" ++ linesText lines := by
  have hrun : Transition.Run (LogStep binaryJson) (IncidentLog.init "") [] _ := Transition.Run.nil
  have hrun := hrun.snoc (.openFile rfl)
  have hrun := hrun.snoc (.lock (.plainAlert "nc") "nc" (by decide) rfl)
  have hrun := hrun.snoc (.send _ _ rfl rfl (by decide) (by decide))
  have hrun := hrun.snoc (.release _ _ rfl)
  have hrun := hrun.snoc (.receive "nc" [] rfl rfl)
  have hrun := hrun.snoc (.writeLine "nc" rfl)
  have hrun := hrun.snoc (.writeNewline rfl)
  exact ⟨_, hrun, file_of_uncontended hrun (by simp) (by simp [LogAction.writeFails])
    ⟨rfl, rfl, rfl⟩⟩

/-- Two alerts at the same time: both calls return true, and the file ends up
    with the line of the first only. -/
theorem sh_lost :
    ∃ acts s, Transition.Run (LogStep binaryJson) (IncidentLog.init "") acts s ∧
      (∀ a ∈ acts, a.writeFails = false) ∧ s.Drained ∧
      (trueCalls acts).map (incidentLine binaryJson) = [some "sh", some "nc"] ∧
      s.file = "nc\n" := by
  have hrun : Transition.Run (LogStep binaryJson) (IncidentLog.init "") [] _ := Transition.Run.nil
  have hrun := hrun.snoc (.openFile rfl)
  have hrun := hrun.snoc (.lock (.plainAlert "nc") "nc" (by decide) rfl)
  have hrun := hrun.snoc (.contended (.plainAlert "sh") "sh" (by decide) (by simp))
  have hrun := hrun.snoc (.send _ _ rfl rfl (by decide) (by decide))
  have hrun := hrun.snoc (.release _ _ rfl)
  have hrun := hrun.snoc (.receive "nc" [] rfl rfl)
  have hrun := hrun.snoc (.writeLine "nc" rfl)
  have hrun := hrun.snoc (.writeNewline rfl)
  exact ⟨_, _, hrun, by simp [LogAction.writeFails], ⟨rfl, rfl, rfl⟩, by decide, by decide⟩

end VectorGuard
