import VectorGuard.Lib.Transition
import VectorGuard.Theory.ProcessTree

/-!
# Cursors

Whether the four cursors of the terminal interface point at rows.

A cursor is an index of what is shown, and what is shown can shrink without it. The
proposals are the only list whose cursor is corrected when it does. An event that
pushes out a shown row while it is not shown itself leaves one row fewer, and the
cursor on the last row points behind it. The process tree may hide processes, and
its cursor is bounded by how many there are and not by how many are shown.

`Benign` says of a step that it is none of these. It is about the state before the
step, and a run keeps the cursors on rows if and only if all of its steps are.

## Main definitions

* `AppOp`, `App.apply`: What can happen to the interface.
* `Cursors`: Every cursor points at a row.
* `Benign`: A step that does not lose the row of a cursor.

## Theorems

* `pointsAt_pushRow_iff`, `pointsAt_proc_iff`: When a cursor survives an event.
* `cursors_pushEvent_iff`, `cursors_scrollDown_iff`: The steps that can go wrong.
* `cursors_iff_benign`: A run keeps the cursors when its steps are benign.
* `parents_in_a_circle_not_pointed_at`: A run that does not.
-/

namespace VectorGuard

open FileTree

/-- What can happen to the interface. The keys are those pressed while a filter is
    typed. -/
inductive AppOp
  | pushEvent (ev : NormalizedEvent)
  | scrollUp
  | scrollDown
  | nextTab
  | selectTab (tab : Tab)
  | startFilter
  | filterKey (key : Key)
  | cycleIncidentFilter
  | maybeRefreshPending (fs : FileTree) (interval now : Int) (wall : Nat)

/-- An index of some rows, or the first when there are none. -/
def PointsAt (cursor rows : Nat) : Prop := cursor = 0 ∨ cursor < rows

instance (cursor rows : Nat) : Decidable (PointsAt cursor rows) :=
  inferInstanceAs (Decidable (_ ∨ _))

/-! ### Rows -/

section Rows

variable {α : Type} {shown : α → Bool} {rows : List α} {row : α} {cursor len len' : Nat}

/-- A new row takes the row of a cursor away: it is not shown, the row that makes
    room for it was shown, and the cursor is on the last row and not on the first. -/
def LosesLast (shown : α → Bool) (rows : List α) (row : α) (cursor : Nat) : Prop :=
  maxRows ≤ rows.length ∧ rows.head?.any shown ∧ shown row = false ∧
    cursor ≠ 0 ∧ cursor + 1 = (rows.filter shown).length

theorem PointsAt.mono (h : PointsAt cursor len) (hle : len ≤ len') : PointsAt cursor len' := by
  rcases h with hzero | hlt
  · exact .inl hzero
  · exact .inr (Nat.lt_of_lt_of_le hlt hle)

theorem PointsAt.of_le {cursor' : Nat} (h : PointsAt cursor len) (hle : cursor' ≤ cursor) :
    PointsAt cursor' len := by
  rcases h with hzero | hlt
  · exact .inl (by omega)
  · exact .inr (by omega)

theorem PointsAt.pred (h : PointsAt cursor len) : PointsAt (cursor - 1) len :=
  h.of_le (Nat.sub_le cursor 1)

/-- A cursor that is brought back to the last row. -/
theorem pointsAt_last (len : Nat) : PointsAt (len - 1) len := by
  cases len with
  | zero => exact .inl rfl
  | succ n => exact .inr (Nat.lt_succ_self n)

/-- A cursor on a row keeps to the rows unless it loses the last one. -/
theorem pointsAt_pushRow_iff (h : PointsAt cursor (rows.filter shown).length) :
    PointsAt cursor ((pushRow rows row).filter shown).length ↔
      ¬ LosesLast shown rows row cursor := by
  by_cases hfull : maxRows ≤ rows.length
  · cases rows with
    | nil => exact absurd hfull (Nat.not_succ_le_zero 499)
    | cons first rest =>
        rw [pushRow_of_le row hfull]
        rw [List.length_cons] at hfull
        unfold LosesLast
        unfold PointsAt at h ⊢
        -- The new row counts when it is shown, and so did the first one.
        simp only [← List.countP_eq_length_filter, List.countP_append, List.countP_cons,
          List.countP_nil, List.head?_cons, Option.any_some] at h ⊢
        cases hfirst : shown first <;> cases hrow : shown row <;>
          simp [hfirst, hfull] at h ⊢ <;> omega
  · rw [pushRow_of_lt row (Nat.lt_of_not_le hfull), List.filter_append, List.length_append]
    have hkept := h.mono (Nat.le_add_right _ ([row].filter shown).length)
    exact iff_of_true hkept (fun hloses => hfull hloses.1)

end Rows

namespace App

variable (lower : Lowercase) (fromStr : String → Option RuleSet)

/-- What an operation does, none when it panics. -/
def apply (app : App) : AppOp → Option App
  | .pushEvent ev => app.pushEvent ev
  | .scrollUp => some app.scrollUp
  | .scrollDown => some (app.scrollDown lower)
  | .nextTab => some app.nextTab
  | .selectTab tab => some { app with activeTab := tab }
  | .startFilter => some app.startFilter
  | .filterKey key => some (app.pressFiltering key)
  | .cycleIncidentFilter => some app.cycleIncidentFilter
  | .maybeRefreshPending fs interval now wall =>
    some (app.maybeRefreshPending lower fromStr fs interval now wall)

/-- Every cursor points at a row. -/
structure Cursors (app : App) : Prop where
  event : PointsAt app.eventScroll (app.filteredEvents lower).length
  incident : PointsAt app.incidentScroll app.filteredIncidents.length
  pending : PointsAt app.pendingScroll app.pending.length
  proc : PointsAt app.procScroll app.processTreeRows.length

/-- An event keeps the cursor of the tree on a row. A new process that is not in the
    tree takes what is below it away, and then more processes have to stay than the
    cursor counts. -/
def KeepsProc (map : ProcessMap) (ev : NormalizedEvent) (cursor : Nat) : Prop :=
  cursor = 0 ∨ (map.lookup ev.process.pid).isSome ∨
    HidesNothing map ev.process.pid ev.process.ppid ∨ MoreThan cursor (Stays map ev.process.pid)

/-- A step that does not lose the row of a cursor. -/
def Benign (app : App) : AppOp → Prop
  | .pushEvent ev =>
    (∀ kind, shortKind ev.eventType.fullKind = some kind →
      ¬ LosesLast (showsEvent lower app.filterQuery) app.events (eventRow ev kind)
        app.eventScroll ∧
      (isIncident ev.action →
        ¬ LosesLast (showsIncident app.incidentFilter) app.incidents (incidentRow ev kind)
          app.incidentScroll)) ∧
    KeepsProc app.processMap ev app.procScroll
  | .scrollDown =>
    app.activeTab = .processTree → app.procScroll + 1 < app.processMap.keys.length →
      app.procScroll + 1 < app.processTreeRows.length
  | _ => True

/-- A step of the interface. -/
def Step (app : App) (op : AppOp) (app' : App) : Prop := app.apply lower fromStr op = some app'

/-- A step to where every cursor points at a row. -/
def PointedStep (app : App) (op : AppOp) (app' : App) : Prop :=
  app.Step lower fromStr op app' ∧ app'.Cursors lower

/-- A step that is benign where it is taken. -/
def BenignStep (app : App) (op : AppOp) (app' : App) : Prop :=
  app.Step lower fromStr op app' ∧ app.Benign lower op

/-! ### Steps -/

section Steps

variable {lower fromStr} {app app' : App}

/-- The tree loses the row of its cursor with what a new process hides. -/
theorem pointsAt_proc_iff {ev : NormalizedEvent} (hkeyed : WellKeyed app.processMap)
    (hmap : app'.processMap = noteProcess app.processMap ev) {cursor : Nat}
    (h : PointsAt cursor app.processTreeRows.length) :
    PointsAt cursor app'.processTreeRows.length ↔ KeepsProc app.processMap ev cursor := by
  have hkeyed' : WellKeyed app'.processMap := by
    rw [hmap]
    exact hkeyed.noteProcess
  unfold PointsAt KeepsProc at *
  rw [lt_length_processTreeRows_iff app hkeyed] at h
  rw [lt_length_processTreeRows_iff app' hkeyed', hmap]
  by_cases hknown : (app.processMap.lookup ev.process.pid).isSome
  · have hkept : cursor = 0 ∨ MoreThan cursor (InTree (noteProcess app.processMap ev)) :=
      h.imp_right (fun hmore => hmore.mono (fun _ => inTree_noteProcess_known hknown))
    exact iff_of_true hkept (.inr (.inl hknown))
  · have hnew := Option.not_isSome_iff_eq_none.mp hknown
    by_cases hhides : HidesNothing app.processMap ev.process.pid ev.process.ppid
    · have hkept : cursor = 0 ∨ MoreThan cursor (InTree (noteProcess app.processMap ev)) :=
        h.imp_right (fun hmore => hmore.mono (fun _ => inTree_noteProcess_new hnew hhides))
      exact iff_of_true hkept (.inr (.inr (.inl hhides)))
    · -- The new process is not in the tree, so what stays is what is left.
      have hstays : ∀ pid, InTree (noteProcess app.processMap ev) pid ↔
          Stays app.processMap ev.process.pid pid :=
        fun _ => inTree_iff_stays hnew (fun hclear => hhides (.inr hclear))
      constructor
      · rintro (hzero | hmore)
        · exact .inl hzero
        · exact .inr (.inr (.inr (hmore.mono (fun pid => (hstays pid).mp))))
      · rintro (hzero | hknown' | hhides' | hmore)
        · exact .inl hzero
        · exact absurd hknown' hknown
        · exact absurd hhides' hhides
        · exact .inr (hmore.mono (fun pid => (hstays pid).mpr))

/-- An event keeps the cursors on rows if and only if none of them loses its row. -/
theorem cursors_pushEvent_iff {ev : NormalizedEvent} (h : app.Cursors lower)
    (hkeyed : WellKeyed app.processMap) (hpush : app.pushEvent ev = some app') :
    app'.Cursors lower ↔ app.Benign lower (.pushEvent ev) := by
  rcases Option.map_eq_some_iff.mp hpush with ⟨kind, hkind, rfl⟩
  -- Each list keeps its cursor unless the row of the cursor is the one that is pushed out.
  have hevent : PointsAt app.eventScroll
      ((pushRow app.events (eventRow ev kind)).filter (showsEvent lower app.filterQuery)).length ↔
      ¬ LosesLast (showsEvent lower app.filterQuery) app.events (eventRow ev kind)
        app.eventScroll := pointsAt_pushRow_iff h.event
  have hincident : PointsAt app.incidentScroll
      ((if isIncident ev.action then pushRow app.incidents (incidentRow ev kind)
        else app.incidents).filter (showsIncident app.incidentFilter)).length ↔
      (isIncident ev.action →
        ¬ LosesLast (showsIncident app.incidentFilter) app.incidents (incidentRow ev kind)
          app.incidentScroll) := by
    by_cases hinc : isIncident ev.action
    · rw [if_pos hinc]
      exact (pointsAt_pushRow_iff h.incident).trans (imp_iff_right hinc).symm
    · rw [if_neg hinc]
      exact iff_of_true h.incident (fun hinc' => absurd hinc' hinc)
  constructor
  · intro hcursors
    refine ⟨fun kind' hkind' => ?_, (pointsAt_proc_iff hkeyed rfl h.proc).mp hcursors.proc⟩
    rw [← Option.some.inj (hkind.symm.trans hkind')]
    exact ⟨hevent.mp hcursors.event, hincident.mp hcursors.incident⟩
  · rintro ⟨hrows, hproc⟩
    rcases hrows kind hkind with ⟨hkeepsEvent, hkeepsIncident⟩
    exact ⟨hevent.mpr hkeepsEvent, hincident.mpr hkeepsIncident, h.pending,
      (pointsAt_proc_iff hkeyed rfl h.proc).mpr hproc⟩

theorem Cursors.scrollUp (h : app.Cursors lower) : app.scrollUp.Cursors lower := by
  unfold App.scrollUp
  cases app.activeTab with
  | processTree => exact ⟨h.event, h.incident, h.pending, h.proc.pred⟩
  | incidents => exact ⟨h.event, h.incident.pred, h.pending, h.proc⟩
  | config => exact ⟨h.event, h.incident, h.pending, h.proc⟩
  | pending => exact ⟨h.event, h.incident, h.pending.pred, h.proc⟩
  | dashboard | events => exact ⟨h.event.pred, h.incident, h.pending, h.proc⟩

/-- Three of the cursors move within what is shown, and the one of the tree if and
    only if the step is benign. -/
theorem cursors_scrollDown_iff (h : app.Cursors lower) :
    (app.scrollDown lower).Cursors lower ↔ app.Benign lower .scrollDown := by
  unfold App.scrollDown Benign
  cases htab : app.activeTab with
  | processTree =>
      dsimp only
      split
      · -- The bound is the number of processes, and a row may be missing for some.
        next hbound =>
          constructor
          · intro hcursors _ _
            exact hcursors.proc.resolve_left (Nat.succ_ne_zero _)
          · intro hbenign
            exact ⟨h.event, h.incident, h.pending, .inr (hbenign rfl hbound)⟩
      · next hbound => exact iff_of_true h (fun _ hbound' => absurd hbound' hbound)
  | config => exact iff_of_true ⟨h.event, h.incident, h.pending, h.proc⟩ (fun htree => nomatch htree)
  | incidents =>
      refine iff_of_true ?_ (fun htree => nomatch htree)
      dsimp only
      split
      · next hbound => exact ⟨h.event, .inr hbound, h.pending, h.proc⟩
      · exact h
  | pending =>
      refine iff_of_true ?_ (fun htree => nomatch htree)
      dsimp only
      split
      · next hbound => exact ⟨h.event, h.incident, .inr hbound, h.proc⟩
      · exact h
  | dashboard | events =>
      refine iff_of_true ?_ (fun htree => nomatch htree)
      dsimp only
      split
      · next hbound => exact ⟨.inr hbound, h.incident, h.pending, h.proc⟩
      · exact h

/-- Without a query every event is shown. -/
theorem showsEvent_empty (e : EventRow) : showsEvent lower "" e = true := by
  unfold showsEvent
  rw [lower.empty]
  rfl

/-- Applying a filter goes to the first row, and clearing it only adds rows. -/
theorem Cursors.pressFiltering (h : app.Cursors lower) (key : Key) :
    (app.pressFiltering key).Cursors lower := by
  cases key with
  | esc =>
      refine ⟨h.event.mono ?_, h.incident, h.pending, h.proc⟩
      have hall : app.events.filter (showsEvent lower "") = app.events :=
        List.filter_eq_self.mpr (fun e _ => showsEvent_empty e)
      change _ ≤ (app.events.filter (showsEvent lower "")).length
      rw [hall]
      exact List.length_filter_le _ app.events
  | enter => exact ⟨.inl rfl, h.incident, h.pending, h.proc⟩
  | _ => exact ⟨h.event, h.incident, h.pending, h.proc⟩

/-- A refresh brings the cursor back to the last proposal. -/
theorem Cursors.maybeRefreshPending (h : app.Cursors lower) (fs : FileTree)
    (interval now : Int) (wall : Nat) :
    (app.maybeRefreshPending lower fromStr fs interval now wall).Cursors lower := by
  rcases app.maybeRefreshPending_cases lower fromStr fs interval now wall with
    ⟨_, last, heq⟩ | ⟨items, _, heq⟩
  · rw [heq]
    exact ⟨h.event, h.incident, h.pending, h.proc⟩
  · rw [heq]
    refine ⟨h.event, h.incident, ?_, h.proc⟩
    change PointsAt (min app.pendingScroll (items.length - 1)) (items.map _).length
    rw [List.length_map]
    exact (pointsAt_last items.length).of_le (Nat.min_le_right _ _)

end Steps

/-! ### Runs -/

section Runs

variable {lower fromStr} {app app' : App} {op : AppOp} {ops : List AppOp} {text : String}
  {store : Option ApprovalStore} {now : Int}

theorem processMap_scrollUp (app : App) : app.scrollUp.processMap = app.processMap := by
  unfold scrollUp
  cases app.activeTab <;> rfl

theorem processMap_scrollDown (lower : Lowercase) (app : App) :
    (app.scrollDown lower).processMap = app.processMap := by
  unfold scrollDown
  cases app.activeTab <;> dsimp only <;> split <;> rfl

theorem processMap_pressFiltering (app : App) (key : Key) :
    (app.pressFiltering key).processMap = app.processMap := by
  cases key <;> rfl

theorem processMap_maybeRefreshPending (app : App) (fs : FileTree) (interval now : Int)
    (wall : Nat) :
    (app.maybeRefreshPending lower fromStr fs interval now wall).processMap = app.processMap := by
  rcases app.maybeRefreshPending_cases lower fromStr fs interval now wall with
    ⟨_, last, heq⟩ | ⟨items, _, heq⟩
  · rw [heq]
  · rw [heq]

/-- No operation but an event touches the processes. -/
theorem wellKeyed_step (hkeyed : WellKeyed app.processMap)
    (hstep : app.Step lower fromStr op app') : WellKeyed app'.processMap := by
  cases op with
  | pushEvent ev =>
      rcases Option.map_eq_some_iff.mp hstep with ⟨kind, _, rfl⟩
      exact hkeyed.noteProcess
  | scrollUp =>
      rw [← Option.some.inj hstep, processMap_scrollUp]
      exact hkeyed
  | scrollDown =>
      rw [← Option.some.inj hstep, processMap_scrollDown]
      exact hkeyed
  | filterKey key =>
      rw [← Option.some.inj hstep, processMap_pressFiltering]
      exact hkeyed
  | maybeRefreshPending fs interval now wall =>
      rw [← Option.some.inj hstep, processMap_maybeRefreshPending]
      exact hkeyed
  | _ =>
      rw [← Option.some.inj hstep]
      exact hkeyed

/-- A step from cursors on rows leads to cursors on rows if and only if it is benign. -/
theorem cursors_step_iff (h : app.Cursors lower) (hkeyed : WellKeyed app.processMap)
    (hstep : app.Step lower fromStr op app') : app'.Cursors lower ↔ app.Benign lower op := by
  cases op with
  | pushEvent ev => exact cursors_pushEvent_iff h hkeyed hstep
  | scrollUp => exact iff_of_true (Option.some.inj hstep ▸ h.scrollUp) trivial
  | scrollDown =>
      rw [← Option.some.inj hstep]
      exact cursors_scrollDown_iff h
  | filterKey key => exact iff_of_true (Option.some.inj hstep ▸ h.pressFiltering key) trivial
  | maybeRefreshPending fs interval now wall =>
      exact iff_of_true (Option.some.inj hstep ▸ h.maybeRefreshPending fs interval now wall) trivial
  | cycleIncidentFilter =>
      exact iff_of_true (Option.some.inj hstep ▸ ⟨h.event, .inl rfl, h.pending, h.proc⟩) trivial
  | _ =>
      exact iff_of_true (Option.some.inj hstep ▸ ⟨h.event, h.incident, h.pending, h.proc⟩) trivial

/-- At the start nothing is shown and every cursor is on the first row. -/
theorem cursors_withApproval : (withApproval text store now).Cursors lower :=
  ⟨.inl rfl, .inl rfl, .inl rfl, .inl rfl⟩

/-- Every cursor points at a row all along a run if and only if every step of it is
    benign. -/
theorem cursors_iff_benign :
    Transition.Run (PointedStep lower fromStr) (withApproval text store now) ops app ↔
      Transition.Run (BenignStep lower fromStr) (withApproval text store now) ops app := by
  have hstart : WellKeyed (withApproval text store now).processMap := by
    intro pid node hlookup
    cases hlookup
  refine Transition.Run.iff_of_invariant
    (I := fun app => WellKeyed app.processMap ∧ app.Cursors lower)
    ⟨hstart, cursors_withApproval⟩ ?_ ?_
  · intro app op app' hinv hstep
    exact ⟨wellKeyed_step hinv.1 hstep.1, hstep.2⟩
  · intro app op app' hinv
    exact and_congr_right (fun hstep => cursors_step_iff hinv.2 hinv.1 hstep)

end Runs

/-! ### Processes as parents of each other -/

/-- A process that executes something. -/
def execBy (pid ppid : UInt32) : NormalizedEvent :=
  let sh := NormalizedEvent.plainExec "sh"
  { sh with process := { sh.process with pid, ppid } }

/-- A lower case that leaves everything as it is. -/
def asIs : Lowercase := ⟨id, rfl⟩

/-- Two processes that are the parents of each other are not in the tree, and the
    cursor goes to the second row of none. -/
theorem parents_in_a_circle_not_pointed_at :
    ¬ ∀ (lower : Lowercase) (fromStr : String → Option RuleSet) (text : String)
      (store : Option ApprovalStore) (now : Int) (ops : List AppOp) (app : App),
      Transition.Run (Step lower fromStr) (withApproval text store now) ops app →
        app.Cursors lower := by
  intro hall
  have hrun : Transition.Run (Step asIs (fun _ => none)) (withApproval "" none 0) [] _ :=
    Transition.Run.nil
  have hrun := hrun.snoc (show Step _ _ _ (.pushEvent (execBy 10 20)) _ from rfl)
  have hrun := hrun.snoc (show Step _ _ _ (.pushEvent (execBy 20 10)) _ from rfl)
  have hrun := hrun.snoc (show Step _ _ _ (.selectTab .processTree) _ from rfl)
  have hrun := hrun.snoc (show Step _ _ _ .scrollDown _ from rfl)
  have hproc := (hall _ _ _ _ _ _ _ hrun).proc
  revert hproc
  decide +kernel

end App

end VectorGuard
