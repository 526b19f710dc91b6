import VectorGuard.Core.Tui
import VectorGuard.Lib.SlidingWindow

/-!
# Dashboard

What the terminal interface remembers of the events it was sent.

An event is counted, gets a row on the events tab, one on the incidents tab if it is
an incident, and is noted with its process. Of either kind of rows the last five
hundred are kept. Three separate matches classify the event, and the process map is
updated in place, so what the state is after a while is not in sight in any one of
them. It is a function of the events in their order, `Reflects`, and each event
extends that function by itself.

## Main definitions

* `rowOf`, `incidentRowOf`: The rows of an event, none where a push panics.
* `processOf`: What is known about a process after some events.
* `Reflects`: The dashboard shows exactly the given events.

## Theorems

* `map_pushRow`: Pushing a row keeps the rows of the last five hundred events.
* `lookup_noteProcess`: Noting an event extends what is known about every process.
* `Reflects.pushEvent`: An event extends what the dashboard shows.
* `reflects_of_pushed`: The dashboard as a function of the events.
-/

namespace VectorGuard

open SlidingWindow

/-- The severities that are counted as high. -/
def isSevere (severity : Severity) : Bool :=
  match severity with
  | .high | .critical => true
  | _ => false

namespace App

variable {evs : List NormalizedEvent} {ev : NormalizedEvent}

/-! ### Rows -/

/-- The row of an event on the events tab. -/
def rowOf (ev : NormalizedEvent) : Option EventRow :=
  (shortKind ev.eventType.fullKind).map (eventRow ev)

/-- The row of an event on the incidents tab. -/
def incidentRowOf (ev : NormalizedEvent) : Option IncidentRow :=
  (shortKind ev.eventType.fullKind).map (incidentRow ev)

/-- The events that are incidents. -/
def incidentsOf (evs : List NormalizedEvent) : List NormalizedEvent :=
  evs.filter (fun ev => isIncident ev.action)

theorem incidentsOf_append_singleton (evs : List NormalizedEvent) (ev : NormalizedEvent) :
    incidentsOf (evs ++ [ev]) = incidentsOf evs ++ (if isIncident ev.action then [ev] else []) := by
  unfold incidentsOf
  rw [List.filter_append, List.filter_singleton]
  cases isIncident ev.action <;> rfl

theorem pushRow_eq_lastN {α : Type} {rows : List α} (row : α) (h : rows.length ≤ maxRows) :
    pushRow rows row = lastN maxRows (rows ++ [row]) := by
  have hlen : (rows ++ [row]).length = rows.length + 1 := List.length_append
  unfold pushRow lastN
  dsimp only
  split
  · have hone : (rows ++ [row]).length - maxRows = 1 := by omega
    rw [hone]
  · have hzero : (rows ++ [row]).length - maxRows = 0 := by omega
    rw [hzero, List.drop_zero]

/-- Pushing the row of an event onto the rows of the last events gives the rows of
    the last events with that one. -/
theorem map_pushRow {α : Type} {f : NormalizedEvent → Option α} {rows : List α} {row : α}
    (h : rows.map some = (lastN maxRows evs).map f) (hrow : f ev = some row) :
    (pushRow rows row).map some = (lastN maxRows (evs ++ [ev])).map f := by
  have hlen : rows.length ≤ maxRows := by
    have hlen := congrArg List.length h
    rw [List.length_map, List.length_map] at hlen
    exact hlen.le.trans (length_lastN_le maxRows evs)
  have hsnoc : rows.map some ++ [some row] = (lastN maxRows evs ++ [ev]).map f := by
    rw [h, List.map_append, List.map_singleton, hrow]
  rw [pushRow_eq_lastN row hlen, ← lastN_map, List.map_append, List.map_singleton, hsnoc,
    lastN_map, lastN_append_lastN]

/-! ### Processes -/

/-- The events of a process. -/
def eventsOf (pid : UInt32) (evs : List NormalizedEvent) : List NormalizedEvent :=
  evs.filter (fun ev => ev.process.pid == pid)

/-- What is known about a process: what its first event says about it, the number of
    its events, and its latest action. -/
def processOf (pid : UInt32) (evs : List NormalizedEvent) : Option ProcessNode :=
  (eventsOf pid evs).head?.bind (fun first =>
    (eventsOf pid evs).getLast?.map (fun latest =>
      { pid := pid
        ppid := first.process.ppid
        name := first.process.binary
        uid := first.process.uid
        eventCount := (eventsOf pid evs).length
        lastAction := latest.action.debug
        lastSeen := formatTs latest.timestamp }))

theorem eventsOf_append_singleton (pid : UInt32) (evs : List NormalizedEvent)
    (ev : NormalizedEvent) :
    eventsOf pid (evs ++ [ev]) =
      eventsOf pid evs ++ (if ev.process.pid = pid then [ev] else []) := by
  unfold eventsOf
  rw [List.filter_append, List.filter_singleton]
  by_cases hpid : ev.process.pid = pid
  · rw [if_pos hpid, beq_iff_eq.mpr hpid]
    rfl
  · rw [if_neg hpid, beq_eq_false_iff_ne.mpr hpid]
    rfl

/-- Noting an event extends what is known about every process. -/
theorem lookup_noteProcess {map : ProcessMap}
    (h : ∀ pid, map.lookup pid = processOf pid evs) (ev : NormalizedEvent) (pid : UInt32) :
    (noteProcess map ev).lookup pid = processOf pid (evs ++ [ev]) := by
  by_cases hpid : ev.process.pid = pid
  · subst hpid
    have hown := eventsOf_append_singleton ev.process.pid evs ev
    rw [if_pos rfl] at hown
    unfold noteProcess
    rw [h, AList.lookup_insert]
    unfold processOf
    rw [hown, List.getLast?_concat]
    cases eventsOf ev.process.pid evs with
    | nil =>
        rfl
    | cons first rest =>
        rw [List.getLast?_cons, List.length_append]
        rfl
  · -- The events of other processes do not matter.
    have hown := eventsOf_append_singleton pid evs ev
    rw [if_neg hpid, List.append_nil] at hown
    unfold noteProcess
    rw [AList.lookup_insert_ne (Ne.symm hpid), h]
    unfold processOf
    rw [hown]

/-! ### Events -/

/-- The dashboard shows exactly the given events. -/
structure Reflects (app : App) (evs : List NormalizedEvent) : Prop where
  totalEvents : app.stats.totalEvents = evs.length
  events : app.events.map some = (lastN maxRows evs).map rowOf
  incidents : app.incidents.map some = (lastN maxRows (incidentsOf evs)).map incidentRowOf
  counted : app.stats.blocked + app.stats.alerts = (incidentsOf evs).length
  highSeverity : app.stats.highSeverity = evs.countP (fun ev => isSevere ev.severity)
  processes : ∀ pid, app.processMap.lookup pid = processOf pid evs

theorem highSeverity_countEvent (stats : Stats) (ev : NormalizedEvent) :
    (countEvent stats ev).highSeverity =
      stats.highSeverity + (if isSevere ev.severity then 1 else 0) := by
  unfold countEvent
  cases ev.severity <;> cases ev.action <;> rfl

/-- An event extends what the dashboard shows. -/
theorem Reflects.pushEvent {app app' : App} (h : app.Reflects evs)
    (hpush : app.pushEvent ev = some app') : app'.Reflects (evs ++ [ev]) := by
  rcases Option.map_eq_some_iff.mp hpush with ⟨kind, hkind, heq⟩
  have hrow : rowOf ev = some (eventRow ev kind) := by
    rw [rowOf, hkind, Option.map_some]
  have hincident : incidentRowOf ev = some (incidentRow ev kind) := by
    rw [incidentRowOf, hkind, Option.map_some]
  subst heq
  refine ⟨?_, map_pushRow h.events hrow, ?_, ?_, ?_, lookup_noteProcess h.processes ev⟩
  · rw [totalEvents_countEvent, h.totalEvents, List.length_append, List.length_singleton]
  · rw [incidentsOf_append_singleton]
    dsimp only
    split
    · exact map_pushRow h.incidents hincident
    · rw [List.append_nil]
      exact h.incidents
  · rw [incidents_countEvent, h.counted, incidentsOf_append_singleton, List.length_append]
    split <;> rfl
  · rw [highSeverity_countEvent, h.highSeverity, List.countP_append, List.countP_singleton]

theorem Reflects.pushEvents {app app' : App} {past : List NormalizedEvent} (h : app.Reflects past)
    (hpush : evs.foldlM App.pushEvent app = some app') : app'.Reflects (past ++ evs) := by
  induction evs generalizing app past with
  | nil =>
      rw [List.append_nil, ← Option.some.inj hpush]
      exact h
  | cons ev evs ih =>
      rcases Option.bind_eq_some_iff.mp hpush with ⟨mid, hmid, hrest⟩
      rw [List.append_cons]
      exact ih (h.pushEvent hmid) hrest

theorem reflects_withApproval (text : String) (store : Option ApprovalStore) (now : Int) :
    (withApproval text store now).Reflects [] :=
  ⟨rfl, rfl, rfl, rfl, rfl, fun _ => rfl⟩

/-- After any events that do not panic, the dashboard is the function of the events in
    their order that `Reflects` describes. -/
theorem reflects_of_pushed (text : String) (store : Option ApprovalStore) (now : Int) (app : App)
    (hpush : evs.foldlM App.pushEvent (withApproval text store now) = some app) :
    app.Reflects evs :=
  (reflects_withApproval text store now).pushEvents hpush

/-- An exec and an alert of one process. -/
theorem reflects_exec_alert :
    ∃ app, [NormalizedEvent.plainExec "sh", NormalizedEvent.plainAlert "sh"].foldlM App.pushEvent
        (withApproval "" none 0) = some app ∧
      app.Reflects [NormalizedEvent.plainExec "sh", NormalizedEvent.plainAlert "sh"] :=
  ⟨_, rfl, reflects_of_pushed "" none 0 _ rfl⟩

end App

end VectorGuard
