import VectorGuard.Theory.IncidentLog
import VectorGuard.Theory.TextLines

/-!
# The Records of the Incident Log

Whether the incident log can be read back.

A binary, a path, a system call and the name of a rule come from outside and may hold
any character, quotes and newlines among them. The text of a record has none of them as
they are: it is one line, and it tells the record (`readRecord_json`). So whatever the
calls of `record` do to each other and wherever the writer stands, the lines of the file
are the records of earlier runs and, in order, of the calls whose line has been written.
No event can make up a line or hide one. Only a write that fails can, which may leave a
part of a line in the file or no newline behind one; what was there before stays even so.

## Main definitions

* `readLog`: The records in a file, none when some line is no record.
* `queuedCalls`: The events of the calls that put a line into the channel.
* `IncidentLog.unwritten`: The lines that are not in the file yet.

## Theorems

* `readRecord_json`: The text of a record tells the record.
* `appended_of_run`: What the file held before is never touched.
* `IncidentLog.readable_of_run`: What is read from the file in any state of any run.
-/

namespace VectorGuard

open Transition (Run)

/-! ### One record -/

/-- The number in a field. -/
def numberIn (fields : List (List Char × FlatJson.Scalar)) (key : String) : Option Nat :=
  match fields.lookup key.toList with
  | some (.num n) => some n
  | _ => none

/-- The text in a field. -/
def textIn (fields : List (List Char × FlatJson.Scalar)) (key : String) : Option String :=
  match fields.lookup key.toList with
  | some (.str s) => some (String.ofList s)
  | _ => none

/-- The record in a line. -/
def readRecord (line : String) : Option IncidentRecord := do
  let fields ← FlatJson.decode line.toList
  let timestamp ← numberIn fields "timestamp"
  let pid ← numberIn fields "pid"
  let ppid ← numberIn fields "ppid"
  let uid ← numberIn fields "uid"
  let binary ← textIn fields "binary"
  let eventType ← textIn fields "event_type"
  let action ← textIn fields "action"
  some {
    timestamp := UInt64.ofNat timestamp
    pid := UInt32.ofNat pid
    ppid := UInt32.ofNat ppid
    uid := UInt32.ofNat uid
    binary := binary
    eventType := eventType
    rule := textIn fields "rule"
    action := action }

/-- The records in a file. -/
def readLog (text : String) : Option (List IncidentRecord) := (lines text).mapM readRecord

/-- The file after some records. -/
def logText (records : List IncidentRecord) : String :=
  closedLines (records.map IncidentRecord.json)

theorem numbers_fields (record : IncidentRecord) :
    numberIn record.fields "timestamp" = some record.timestamp.toNat ∧
    numberIn record.fields "pid" = some record.pid.toNat ∧
    numberIn record.fields "ppid" = some record.ppid.toNat ∧
    numberIn record.fields "uid" = some record.uid.toNat :=
  ⟨rfl, rfl, rfl, rfl⟩

theorem texts_fields (record : IncidentRecord) :
    textIn record.fields "binary" = some record.binary ∧
    textIn record.fields "event_type" = some record.eventType ∧
    textIn record.fields "rule" = record.rule ∧
    textIn record.fields "action" = some record.action := by
  have hread : ∀ s : String, some (String.ofList s.toList) = some s :=
    fun s => congrArg some String.ofList_toList
  refine ⟨hread _, hread _, ?_, hread _⟩
  rcases record with ⟨timestamp, pid, ppid, uid, binary, eventType, rule, action⟩
  cases rule with
  | none => rfl
  | some rule => exact hread rule

/-- The text of a record tells the record. -/
theorem readRecord_json (record : IncidentRecord) : readRecord record.json = some record := by
  rcases numbers_fields record with ⟨htimestamp, hpid, hppid, huid⟩
  rcases texts_fields record with ⟨hbinary, htype, hrule, haction⟩
  unfold readRecord IncidentRecord.json
  rw [String.toList_ofList, FlatJson.decode_encode]
  simp only [Option.bind_eq_bind, Option.bind_some, htimestamp, hpid, hppid, huid, hbinary, htype,
    hrule, haction, UInt64.ofNat_toNat, UInt32.ofNat_toNat]

/-- The text of a record is one line. -/
theorem isLine_json (record : IncidentRecord) : IsLine record.json := by
  have hprintable := FlatJson.printable_encode record.fields
  unfold IsLine IncidentRecord.json
  rw [String.toList_ofList]
  constructor
  · exact fun h => absurd (hprintable _ h) (by decide)
  · exact fun h => absurd (hprintable _ (List.mem_of_getLast? h)) (by decide)

theorem json_ne_empty (record : IncidentRecord) : record.json ≠ "" := by
  intro h
  have hnil : record.json.toList = [] := by rw [h]; rfl
  unfold IncidentRecord.json at hnil
  rw [String.toList_ofList] at hnil
  exact absurd hnil (List.cons_ne_nil _ _)

theorem mapM_readRecord (records : List IncidentRecord) :
    (records.map IncidentRecord.json).mapM readRecord = some records := by
  induction records with
  | nil =>
      rfl
  | cons record records ih =>
      rw [List.map_cons, List.mapM_cons, readRecord_json, ih]
      rfl

/-- The records of a file are read, also while the last newline is missing. -/
theorem readLog_of_consists {text : String} {records : List IncidentRecord}
    (h : Consists text (records.map IncidentRecord.json)) : readLog text = some records := by
  unfold readLog
  rw [lines_of_consists h, mapM_readRecord]
  intro line hline
  rcases List.mem_map.mp hline with ⟨record, _, rfl⟩
  exact isLine_json record

/-! ### The file over a run -/

variable {earlier : List IncidentRecord} {acts : List LogAction} {s t u : IncidentLog}

/-- The serialization of the code, which does not fail. -/
def serialize (record : IncidentRecord) : Option String := some record.json

/-- The events of the calls that put a line into the channel, in the order they returned. -/
def queuedCalls (acts : List LogAction) : List NormalizedEvent :=
  acts.filterMap (fun a => match a with
    | .release event true => some event
    | _ => none)

/-- The lines that are in the channel or in the hand of the writer. -/
def IncidentLog.unwritten (s : IncidentLog) : List String :=
  match s.writer with
  | .writingLine line => line :: s.queue
  | _ => s.queue

/-- The newline the writer owes the file. -/
def WriterPhase.due : WriterPhase → String
  | .writingNewline => "\n"
  | _ => ""

/-- Some records are in the file, and others are on their way, unless there is no writer. -/
structure IncidentLog.Holds (s : IncidentLog) (written waiting : List IncidentRecord) : Prop where
  unwritten : s.writer ≠ .gone → s.unwritten = waiting.map IncidentRecord.json
  file : s.file ++ s.writer.due = logText written

theorem queuedCalls_snoc (acts : List LogAction) (a : LogAction) :
    queuedCalls (acts ++ [a]) = queuedCalls acts ++ queuedCalls [a] := by
  unfold queuedCalls
  rw [List.filterMap_append]

theorem logText_concat (records : List IncidentRecord) (record : IncidentRecord) :
    logText (records ++ [record]) = logText records ++ (record.json ++ "\n") := by
  unfold logText
  rw [List.map_append, List.map_singleton, closedLines_append, closedLines_cons]
  exact congrArg _ String.append_empty

/-- The line of an event is the text of its record. -/
theorem exists_record_of_line {event : NormalizedEvent} {line : String}
    (h : incidentLine serialize event = some line) :
    ∃ record, incidentRecord event = some record ∧ line = record.json := by
  rcases Option.bind_eq_some_iff.mp h with ⟨record, hrecord, hline⟩
  exact ⟨record, hrecord, (Option.some.inj hline).symm⟩

/-- Text that only moves along leaves the records where they are. -/
theorem IncidentLog.Holds.keep {written waiting : List IncidentRecord}
    (h : t.Holds written waiting) (hfile : u.file ++ u.writer.due = t.file ++ t.writer.due)
    (hunwritten : u.writer ≠ .gone → t.writer ≠ .gone ∧ u.unwritten = t.unwritten) :
    u.Holds (written ++ []) waiting := by
  rw [List.append_nil]
  refine ⟨fun hthere => ?_, hfile.trans h.file⟩
  rcases hunwritten hthere with ⟨hbefore, hsame⟩
  exact hsame.trans (h.unwritten hbefore)

/-- What a step does, unless a write fails: at most one record joins those on their way, and
    at most one of these gets into the file. -/
theorem holds_step {written waiting : List IncidentRecord} {a : LogAction}
    (hstep : LogStep serialize t a u) (hworks : a.writeFails = false) (hsender : t.sender = true)
    (hholder : ∀ event json, t.holder = some (.sending event json) →
      incidentLine serialize event = some json)
    (h : t.Holds written waiting) :
    ∃ new done waiting', (queuedCalls [a] ++ Holder.owed u.holder).map incidentRecord
        = (Holder.owed t.holder).map incidentRecord ++ new.map some ∧
      done ++ waiting' = waiting ++ new ∧ u.Holds (written ++ done) waiting' := by
  have hthere : ∀ {phase : WriterPhase}, t.writer = phase → phase ≠ .gone → t.writer ≠ .gone :=
    fun hphase hne => hphase ▸ hne
  cases hstep with
  | skip event hline =>
      exact ⟨[], [], waiting, by simp [queuedCalls], by simp, h.keep rfl (fun hu => ⟨hu, rfl⟩)⟩
  | lock event json hline hfree =>
      exact ⟨[], [], waiting, by simp [queuedCalls, Holder.owed, hfree], by simp,
        h.keep rfl (fun hu => ⟨hu, rfl⟩)⟩
  | contended event json hline hheld =>
      exact ⟨[], [], waiting, by simp [queuedCalls], by simp, h.keep rfl (fun hu => ⟨hu, rfl⟩)⟩
  | noSender event json hhas hnone =>
      rw [hsender] at hnone
      exact absurd hnone (by decide)
  | send event json hhas _ hopen hroom =>
      -- The record joins those on their way.
      rcases exists_record_of_line (hholder event json hhas) with ⟨record, hrecord, rfl⟩
      refine ⟨[record], [], waiting ++ [record], by simp [queuedCalls, Holder.owed, hhas, hrecord],
        by simp, fun _ => ?_, by rw [List.append_nil]; exact h.file⟩
      rw [List.map_append, ← h.unwritten hopen]
      unfold IncidentLog.unwritten
      cases t.writer <;> rfl
  | overflow event json hhas _ hfull =>
      exact ⟨[], [], waiting, by simp [queuedCalls, Holder.owed, hhas], by simp,
        h.keep rfl (fun hu => ⟨hu, rfl⟩)⟩
  | closed event json hhas _ hgone =>
      exact ⟨[], [], waiting, by simp [queuedCalls, Holder.owed, hhas], by simp,
        h.keep rfl (fun hu => ⟨hu, rfl⟩)⟩
  | release event queued hhas =>
      refine ⟨[], [], waiting, ?_, by simp, h.keep rfl (fun hu => ⟨hu, rfl⟩)⟩
      cases queued <;> simp [queuedCalls, Holder.owed, hhas]
  | openFile hopening =>
      refine ⟨[], [], waiting, by simp [queuedCalls], by simp, h.keep (by rw [hopening]; rfl)
        (fun _ => ⟨hthere hopening WriterPhase.noConfusion, ?_⟩)⟩
      unfold IncidentLog.unwritten
      rw [hopening]
  | openFailed hopening =>
      -- What was on its way is lost.
      exact ⟨[], [], waiting, by simp [queuedCalls], by simp,
        h.keep (by rw [hopening]; rfl) (fun hu => absurd rfl hu)⟩
  | receive line rest hidle hqueue =>
      refine ⟨[], [], waiting, by simp [queuedCalls], by simp, h.keep (by rw [hidle]; rfl)
        (fun _ => ⟨hthere hidle WriterPhase.noConfusion, ?_⟩)⟩
      unfold IncidentLog.unwritten
      rw [hidle, hqueue]
  | writeLine line hwriter =>
      -- The first record on its way is in the file now.
      have hunwritten := h.unwritten (hthere hwriter WriterPhase.noConfusion)
      have hfile := h.file
      unfold IncidentLog.unwritten at hunwritten
      rw [hwriter] at hunwritten hfile
      cases waiting with
      | nil =>
          exact absurd hunwritten (List.cons_ne_nil _ _)
      | cons record waiting =>
          rcases List.cons.inj hunwritten with ⟨rfl, hqueue⟩
          refine ⟨[], [record], waiting, by simp [queuedCalls], by simp, fun _ => hqueue, ?_⟩
          have hnone : (WriterPhase.writingLine record.json).due = "" := rfl
          rw [logText_concat, ← hfile, hnone, String.append_empty]
          exact String.append_assoc
  | writeNewline hwriter =>
      refine ⟨[], [], waiting, by simp [queuedCalls], by simp,
        h.keep (by rw [hwriter]; exact String.append_empty)
          (fun _ => ⟨hthere hwriter WriterPhase.noConfusion, ?_⟩)⟩
      unfold IncidentLog.unwritten
      rw [hwriter]
  | lineFailed line part hwriter hpart =>
      exact absurd hworks (by simp [LogAction.writeFails])
  | newlineFailed hwriter =>
      exact absurd hworks (by simp [LogAction.writeFails])

/-- A step appends to the file, and leaves it while it is not open. -/
theorem file_step {toJson : IncidentRecord → Option String} {a : LogAction}
    (hstep : LogStep toJson t a u) :
    (∃ more, u.file = t.file ++ more) ∧
      (u.writer = .opening ∨ u.writer = .gone →
        (t.writer = .opening ∨ t.writer = .gone) ∧ u.file = t.file) := by
  have hsame : ∀ text : String, ∃ more, text = text ++ more :=
    fun text => ⟨"", String.append_empty.symm⟩
  cases hstep with
  | openFile _ => exact ⟨hsame _, fun h => absurd h (by simp)⟩
  | openFailed hopening => exact ⟨hsame _, fun _ => ⟨.inl hopening, rfl⟩⟩
  | receive _ _ _ _ => exact ⟨hsame _, fun h => absurd h (by simp)⟩
  | writeLine line _ => exact ⟨⟨line, rfl⟩, fun h => absurd h (by simp)⟩
  | writeNewline _ => exact ⟨⟨"\n", rfl⟩, fun h => absurd h (by simp)⟩
  | lineFailed _ part _ _ => exact ⟨⟨part, rfl⟩, fun h => absurd h (by simp)⟩
  | newlineFailed _ => exact ⟨hsame _, fun h => absurd h (by simp)⟩
  | _ => exact ⟨hsame _, fun h => ⟨h, rfl⟩⟩

/-- The file holds what it held before in every state of every run, and nothing else before
    it is open or if it does not open. -/
theorem appended_of_run {toJson : IncidentRecord → Option String} {start : String}
    (hrun : Run (LogStep toJson) (IncidentLog.init start) acts s) :
    (∃ more, s.file = start ++ more) ∧
      (s.writer = .opening ∨ s.writer = .gone → s.file = start) := by
  refine hrun.invariant (I := fun _ s => (∃ more, s.file = start ++ more) ∧
    (s.writer = .opening ∨ s.writer = .gone → s.file = start)) ?_ ?_
  · exact ⟨⟨"", String.append_empty.symm⟩, fun _ => rfl⟩
  · intro acts t a u _ ih hstep
    rcases ih with ⟨⟨more, hmore⟩, hunopened⟩
    rcases file_step hstep with ⟨⟨more', hmore'⟩, hkept⟩
    refine ⟨⟨more ++ more', by rw [hmore', hmore, String.append_assoc]⟩, fun hu => ?_⟩
    rcases hkept hu with ⟨ht, hfile⟩
    exact hfile.trans (hunopened ht)

/-- The lines of the file are the records of what the file held before and of the calls
    that have put a line into the channel, whatever those are about. -/
structure Recorded (earlier : List IncidentRecord) (acts : List LogAction) (s : IncidentLog) :
    Prop where
  sender : s.sender = true
  holder : ∀ event json, s.holder = some (.sending event json) →
    incidentLine serialize event = some json
  records : ∃ written waiting,
    (queuedCalls acts ++ Holder.owed s.holder).map incidentRecord = (written ++ waiting).map some ∧
      s.Holds (earlier ++ written) waiting

theorem recorded_of_run
    (hrun : Run (LogStep serialize) (IncidentLog.init (logText earlier)) acts s) :
    (∀ a ∈ acts, a.writeFails = false) → Recorded earlier acts s := by
  refine hrun.invariant (I := fun acts s => (∀ a ∈ acts, a.writeFails = false) →
    Recorded earlier acts s) ?_ ?_
  · intro _
    refine ⟨rfl, fun _ _ h => absurd h (by simp [IncidentLog.init]), [], [], rfl, fun _ => rfl, ?_⟩
    rw [List.append_nil]
    exact String.append_empty
  · intro acts t a u _ ih hstep hworks
    have ih := ih (fun a hmem => hworks a (List.mem_append_left _ hmem))
    have hwork := hworks a (List.mem_append_right acts List.mem_cons_self)
    rcases ih.records with ⟨written, waiting, hcalls, hholds⟩
    rcases step_holder t u a hstep ih.holder with ⟨hsender, hholder⟩
    rcases holds_step hstep hwork ih.sender ih.holder hholds with
      ⟨new, done, waiting', howed, hmoved, hholds'⟩
    refine ⟨hsender.trans ih.sender, hholder, written ++ done, waiting', ?_, ?_⟩
    · rw [queuedCalls_snoc, List.append_assoc, List.map_append, howed, ← List.append_assoc,
        ← List.map_append, hcalls, ← List.map_append, List.append_assoc written,
        List.append_assoc written, hmoved]
    · rw [← List.append_assoc]
      exact hholds'

/-- A file that some records are in is read as these. -/
theorem IncidentLog.Holds.readLog {written waiting : List IncidentRecord}
    (h : s.Holds written waiting) : readLog s.file = some written := by
  apply readLog_of_consists
  have hfile := h.file
  cases hwriter : s.writer with
  | writingNewline =>
      rw [hwriter] at hfile
      refine Or.inr ⟨hfile, fun hlast => ?_⟩
      rcases List.mem_map.mp (List.mem_of_getLast? hlast) with ⟨record, _, hempty⟩
      exact json_ne_empty record hempty
  | _ =>
      rw [hwriter] at hfile
      exact Or.inl ((String.append_empty).symm.trans hfile)

/-- Nothing was written to a file that is not open. -/
theorem written_of_unopened {written : List IncidentRecord} (hfile : s.file = logText earlier)
    (hread : readLog s.file = some (earlier ++ written)) : written = [] := by
  have hearlier : readLog (logText earlier) = some earlier := readLog_of_consists (.inl rfl)
  rw [hfile, hearlier] at hread
  exact List.self_eq_append_right.mp (Option.some.inj hread)

/-- No run takes anything of what the file held before. As long as no write fails, whatever
    the events are about and however their calls and the writer interleave, the file is read
    in every state as the records it held before and those of the first of the calls that
    put a line into the channel. The lines of the others are on their way, and none is once
    the channel has drained; if the file does not open, all are lost. -/
theorem IncidentLog.readable_of_run
    (hrun : Run (LogStep serialize) (IncidentLog.init (logText earlier)) acts s) :
    (∃ more, s.file = logText earlier ++ more) ∧
    ((∀ a ∈ acts, a.writeFails = false) → ∃ written waiting,
      (queuedCalls acts ++ Holder.owed s.holder).map incidentRecord
        = (written ++ waiting).map some ∧
      readLog s.file = some (earlier ++ written) ∧
      (s.writer ≠ .gone → s.unwritten = waiting.map IncidentRecord.json) ∧
      (s.writer = .gone → written = []) ∧
      (s.Drained → (queuedCalls acts).map incidentRecord = written.map some)) := by
  rcases appended_of_run hrun with ⟨happended, hunopened⟩
  refine ⟨happended, fun hworks => ?_⟩
  rcases (recorded_of_run hrun hworks).records with ⟨written, waiting, hcalls, hholds⟩
  have hread := hholds.readLog
  refine ⟨written, waiting, hcalls, hread, hholds.unwritten,
    fun hgone => written_of_unopened (hunopened (.inr hgone)) hread, fun hdrained => ?_⟩
  -- Nothing is on its way, and no call holds the lock.
  have hnone := hholds.unwritten (by rw [hdrained.idle]; exact WriterPhase.noConfusion)
  unfold IncidentLog.unwritten at hnone
  rw [hdrained.idle, hdrained.empty] at hnone
  have howed : Holder.owed none = [] := rfl
  rw [hdrained.free, howed, List.append_nil] at hcalls
  rw [hcalls, List.map_eq_nil_iff.mp hnone.symm, List.append_nil]

/-- An alert about nc, in a file that was empty. -/
theorem nc_readable :
    ∃ acts s, Run (LogStep serialize) (IncidentLog.init (logText [])) acts s ∧
      queuedCalls acts = [.plainAlert "nc"] ∧
      (∃ more, s.file = logText [] ++ more) ∧
      ∃ written waiting, (queuedCalls acts ++ Holder.owed s.holder).map incidentRecord
          = (written ++ waiting).map some ∧
        readLog s.file = some ([] ++ written) ∧
        (s.writer ≠ .gone → s.unwritten = waiting.map IncidentRecord.json) ∧
        (s.writer = .gone → written = []) ∧
        (s.Drained → (queuedCalls acts).map incidentRecord = written.map some) := by
  have hline : ∃ json, incidentLine serialize (.plainAlert "nc") = some json := ⟨_, rfl⟩
  rcases hline with ⟨json, hline⟩
  have hrun : Run (LogStep serialize) (IncidentLog.init (logText [])) [] _ := .nil
  have hrun := hrun.snoc (.lock (.plainAlert "nc") json hline rfl)
  have hrun := hrun.snoc (.send _ _ rfl rfl WriterPhase.noConfusion (Nat.succ_pos _))
  have hrun := hrun.snoc (.release _ _ rfl)
  have hrun := hrun.snoc (.openFile rfl)
  have hrun := hrun.snoc (.receive json [] rfl rfl)
  have hrun := hrun.snoc (.writeLine json rfl)
  have hrun := hrun.snoc (.writeNewline rfl)
  rcases IncidentLog.readable_of_run hrun with ⟨happended, hreadable⟩
  exact ⟨_, _, hrun, rfl, happended, hreadable (by simp [LogAction.writeFails])⟩

end VectorGuard
