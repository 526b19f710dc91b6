import VectorGuard.Lib.Selection
import VectorGuard.Theory.Modes
import VectorGuard.Theory.Staging

/-!
# Selections

Whether a selection keeps denoting the row that was selected.

A popup and the cursor of the proposals remember an index. The rows are events,
which push out the oldest one of too many, and proposals, which are read again from
disk; no index is moved with them. An event that pushes out a shown row moves up
every row behind it, and the popup on one of these shows the next. A refresh that
lists another number of proposals before the selected one leaves the index with
another proposal, which is then the one that is approved or rejected.

`Disturbed` says of a step that it is one of these. It is about the rows and the
directory before the step, and a run keeps the selection if and only if none of its
steps is disturbed. Events are told apart by how many were counted before them, as
rows may be alike, and proposals by their ids.

## Main definitions

* `RowId`, `Selector`: What identifies a row, and what selects one.
* `App.selected`: The row that is shown in a popup or reviewed.
* `KeepsSelected`: A row that is there is the selected one.
* `Disturbed`: A step that loses the selected row.

## Theorems

* `review_selected`: A review is about the selected proposal.
* `keepsSelected_pushEvent_iff`, `keepsSelected_refresh_iff`: The steps that can go
  wrong.
* `keepsSelected_iff_undisturbed`: A run keeps the selection when nothing disturbs it.
* `cursor_moves_to_next_proposal`: A run that does not.
-/

namespace VectorGuard

open FileTree Selection

/-- What identifies a row of a tab. -/
inductive RowId
  | event (number : Int)
  | incident (number : Int)
  | proposal (id : String)
  deriving DecidableEq, Repr

/-- What selects a row: the three detail popups, and the cursor of the proposals. -/
inductive Selector
  | event
  | incident
  | pending
  | cursor
  deriving DecidableEq, Repr

/-- The proposals of a listing. -/
def itemIds (items : List PendingItem) : List RowId := items.map (fun item => .proposal item.id)

/-- A new row pushes out a row that is shown. -/
def LosesOldest {α : Type} (shown : α → Bool) (rows : List α) : Prop :=
  maxRows ≤ rows.length ∧ rows.head?.any shown

section Pushing

variable {α : Type} {shown : α → Bool} {rows : List α} {row : α} {index : Nat} {next k : Int}

/-- A row that is put behind the others has a number of its own. -/
theorem follows_next_iff (hk : k < next) {ids : List Int} :
    Follows (ids ++ (if shown row then [next] else [])) index k ↔ Follows ids index k := by
  by_cases hshown : shown row = true
  · rw [if_pos hshown]
    exact follows_append_iff (Int.ne_of_lt hk)
  · rw [if_neg hshown, List.append_nil]

/-- An index loses its row to a new one if and only if that pushes out a shown row,
    and the row of the index is behind it. -/
theorem follows_pushRow_iff (hk : k < next)
    (h : Follows (numbers shown (next - rows.length) rows) index k) :
    Follows (numbers shown (next + 1 - (pushRow rows row).length) (pushRow rows row)) index k ↔
      ¬ (LosesOldest shown rows ∧ k ∈ (numbers shown (next - rows.length) rows).tail) := by
  by_cases hfull : maxRows ≤ rows.length
  · cases rows with
    | nil => exact absurd hfull (Nat.not_succ_le_zero 499)
    | cons first rest =>
        have hstart : next - ((first :: rest).length : Int) + 1 = next - rest.length := by
          rw [List.length_cons]
          omega
        have hstart' : next + 1 - ((rest ++ [row]).length : Int) = next - rest.length := by
          rw [List.length_append, List.length_singleton]
          omega
        rw [pushRow_of_le row hfull, hstart', numbers_append, Int.sub_add_cancel, follows_next_iff hk]
        by_cases hfirst : shown first = true
        · -- Every row behind the first moves up.
          rw [numbers_cons_pos hfirst, hstart] at h ⊢
          rw [List.tail_cons, and_iff_right ⟨hfull, hfirst⟩]
          have hnodup := nodup_numbers shown (next - ((first :: rest).length : Int)) (first :: rest)
          rw [numbers_cons_pos hfirst, hstart] at hnodup
          exact follows_tail_iff hnodup h
        · rw [numbers_cons_neg hfirst, hstart] at h
          exact iff_of_true h (fun hloses => hfirst hloses.1.2)
  · have hstart : next + 1 - ((rows ++ [row]).length : Int) = next - rows.length := by
      rw [List.length_append, List.length_singleton]
      omega
    rw [pushRow_of_lt row (Nat.lt_of_not_le hfull), hstart, numbers_append, Int.sub_add_cancel,
      follows_next_iff hk]
    exact iff_of_true h (fun hloses => hfull hloses.1.1)

end Pushing

/-! ### Listings -/

/-- No proposal is listed twice. -/
theorem nodup_itemIds {store : ApprovalStore} {fromStr : String → Option RuleSet} {fs : FileTree}
    {items : List PendingItem} (h : store.listPending fromStr fs = .ok items) :
    (itemIds items).Nodup := by
  unfold ApprovalStore.listPending at h
  split at h
  · rw [← Except.ok.inj h]
    exact List.nodup_nil
  · split at h
    · cases h
    · next entries hentries =>
        rcases Option.bind_eq_some_iff.mp hentries with ⟨path, _, hread⟩
        have hperm := List.mergeSort_perm
          (entries.filterMap (fun e => store.pendingItem fromStr fs e.1 e.2))
          (fun i j => i.createdAt ≤ j.createdAt)
        rw [← Except.ok.inj h]
        refine ((hperm.map (fun item => RowId.proposal item.id)).nodup_iff).mpr ?_
        -- The id of an item and the name of its file give each other.
        have hnames := nodup_readDir hread
        unfold List.Nodup at hnames ⊢
        rw [List.pairwise_map] at hnames ⊢
        rw [List.pairwise_filterMap]
        refine hnames.imp (fun hne item hitem item' hitem' hid => hne ?_)
        rcases id_pendingItem hitem with ⟨hstem, hname⟩
        rcases id_pendingItem hitem' with ⟨hstem', hname'⟩
        rw [hname, hname', ← hstem, ← hstem', RowId.proposal.inj hid]

namespace App

variable (lower : Lowercase) (fromStr : String → Option RuleSet)

/-- The number of the oldest event that is kept. -/
def firstEvent (app : App) : Int := app.stats.totalEvents - app.events.length

/-- The number of the oldest incident that is kept. -/
def firstIncident (app : App) : Int :=
  (app.stats.blocked + app.stats.alerts : Nat) - app.incidents.length

/-- The rows that an index is about, in the order they are shown in. -/
def shownIds (app : App) : Selector → List RowId
  | .event => (numbers (showsEvent lower app.filterQuery) app.firstEvent app.events).map .event
  | .incident =>
    (numbers (showsIncident app.incidentFilter) app.firstIncident app.incidents).map .incident
  | .pending | .cursor => app.pending.map (fun row => .proposal row.id)

/-- The index that is remembered. -/
def indexOf (app : App) : Selector → Option Nat
  | .event => app.selectedEvent
  | .incident => app.selectedIncident
  | .pending => app.selectedPending
  | .cursor => some app.pendingScroll

/-- The row at the index. -/
def selected (app : App) (sel : Selector) : Option RowId :=
  (app.indexOf sel).bind (fun index => (app.shownIds lower sel)[index]?)

/-- A row that is there is the selected one. -/
def KeepsSelected (sel : Selector) (row : RowId) (app : App) : Prop :=
  row ∈ app.shownIds lower sel → app.selected lower sel = some row

/-- A key that moves the cursor of the proposals. -/
def MovesCursor (app : App) (input : TuiInput) : Prop :=
  app.NoMode ∧ app.activeTab = .pending ∧
    ∃ key now os, input = .key key now os ∧ key ∈ [.up, .char 'k', .down, .char 'j']

/-- What can happen while something is selected: events and refreshes while a popup is
    open, and whatever does not move the cursor. -/
def LeavesSelected (app : App) : Selector → TuiInput → Prop
  | .cursor, input => ¬ app.MovesCursor input
  | _, .pushEvent _ => True
  | _, .maybeRefreshPending _ _ _ => True
  | _, _ => False

/-- As many proposals are listed before the row as the index says. The cursor may also
    be behind all of them, when the row is the last one. -/
def ListedAt (app : App) (row : RowId) (items : List PendingItem) : Selector → Prop
  | .cursor => (itemIds items).idxOf row = app.pendingScroll ∨
      (itemIds items).idxOf row + 1 = items.length ∧ items.length ≤ app.pendingScroll
  | sel => app.indexOf sel = some ((itemIds items).idxOf row)

/-- A step that loses the selected row. -/
def Disturbed (app : App) (sel : Selector) (row : RowId) (fs : FileTree) : TuiInput → Prop
  | .pushEvent ev => match sel with
    | .event => LosesOldest (showsEvent lower app.filterQuery) app.events ∧
        row ∈ (app.shownIds lower sel).tail
    | .incident => isIncident ev.action ∧
        LosesOldest (showsIncident app.incidentFilter) app.incidents ∧
        row ∈ (app.shownIds lower sel).tail
    | _ => False
  | .maybeRefreshPending interval now _ =>
    ∃ items, app.readsListing fromStr fs interval now = some items ∧ row ∈ itemIds items ∧
      ¬ app.ListedAt row items sel
  | _ => False

/-- A step while something is selected. -/
def SelectedStep (sel : Selector) (app : App) (act : FileTree × TuiInput) (app' : App) : Prop :=
  app.InputStep lower fromStr act app' ∧ app.LeavesSelected sel act.2

/-- A step to where the row is still the selected one. -/
def KeepingStep (sel : Selector) (row : RowId) (app : App) (act : FileTree × TuiInput)
    (app' : App) : Prop :=
  app.SelectedStep lower fromStr sel act app' ∧ app'.KeepsSelected lower sel row

/-- A step that is not disturbed where it is taken. -/
def UndisturbedStep (sel : Selector) (row : RowId) (app : App) (act : FileTree × TuiInput)
    (app' : App) : Prop :=
  app.SelectedStep lower fromStr sel act app' ∧ ¬ app.Disturbed lower fromStr sel row act.1 act.2

/-! ### What a selection is for -/

section Rows

variable {lower fromStr} {app app' : App} {sel : Selector} {row : RowId} {index : Nat}

/-- A review is about the proposal at the cursor. -/
theorem review_selected {α : Type} {store : ApprovalStore} {id : String}
    (act : ApprovalStore → FileTree → String → FileTree × Except (Option String) α)
    (call : String → DiskCall) (done failed : String) (fs : FileTree) (now : Int) (os : String)
    (hstore : app.approvalStore = some store)
    (hselected : app.selected lower .cursor = some (.proposal id)) :
    (review act call done failed app fs now os).fs = (act store fs id).1 := by
  change (app.pending.map (fun row => RowId.proposal row.id))[app.pendingScroll]? = _ at hselected
  rw [List.getElem?_map, Option.map_eq_some_iff] at hselected
  rcases hselected with ⟨item, hitem, hid⟩
  unfold review
  rw [hstore, hitem]
  rw [RowId.proposal.injEq] at hid
  rw [← hid]

theorem keepsSelected_iff (hindex : app.indexOf sel = some index) :
    app.KeepsSelected lower sel row ↔ Follows (app.shownIds lower sel) index row := by
  unfold KeepsSelected selected Follows
  rw [hindex, Option.bind_some]

/-- The same rows and the same index. -/
theorem keepsSelected_congr (hids : app'.shownIds lower sel = app.shownIds lower sel)
    (hindex : app'.indexOf sel = app.indexOf sel) :
    app'.KeepsSelected lower sel row ↔ app.KeepsSelected lower sel row := by
  unfold KeepsSelected selected
  rw [hids, hindex]

end Rows

/-! ### Steps -/

section Steps

variable {lower fromStr} {app app' : App} {sel : Selector} {row : RowId} {index : Nat} {k : Int}

theorem keepsSelected_event_iff (hindex : app.selectedEvent = some index) :
    app.KeepsSelected lower .event (.event k) ↔
      Follows (numbers (showsEvent lower app.filterQuery) app.firstEvent app.events) index k := by
  have hsel : app.indexOf .event = some index := hindex
  rw [keepsSelected_iff hsel]
  exact follows_map_iff (fun _ _ => RowId.event.inj)

theorem keepsSelected_incident_iff (hindex : app.selectedIncident = some index) :
    app.KeepsSelected lower .incident (.incident k) ↔
      Follows (numbers (showsIncident app.incidentFilter) app.firstIncident app.incidents)
        index k := by
  have hsel : app.indexOf .incident = some index := hindex
  rw [keepsSelected_iff hsel]
  exact follows_map_iff (fun _ _ => RowId.incident.inj)

theorem mem_tail_map_iff {α β : Type} {f : α → β} (hf : Function.Injective f) {a : α} {l : List α} :
    f a ∈ (l.map f).tail ↔ a ∈ l.tail := by
  rw [← List.map_tail, List.mem_map_of_injective hf]

/-- An event keeps the selected event if and only if it does not push out a row before
    it. -/
theorem keepsEvent_pushEvent_iff {ev : NormalizedEvent} (hindex : app.selectedEvent = some index)
    (hk : k < app.stats.totalEvents) (h : app.KeepsSelected lower .event (.event k))
    (hpush : app.pushEvent ev = some app') :
    app'.KeepsSelected lower .event (.event k) ↔
      ¬ (LosesOldest (showsEvent lower app.filterQuery) app.events ∧
        .event k ∈ (app.shownIds lower .event).tail) := by
  rcases Option.map_eq_some_iff.mp hpush with ⟨kind, _, heq⟩
  have hindex' : app'.selectedEvent = some index := by
    rw [← heq]
    exact hindex
  rw [keepsSelected_event_iff hindex] at h
  rw [keepsSelected_event_iff hindex', ← heq]
  unfold firstEvent shownIds
  rw [mem_tail_map_iff (fun _ _ => RowId.event.inj), totalEvents_countEvent]
  exact follows_pushRow_iff hk h

/-- An event that is an incident keeps the selected incident if and only if it does not
    push out a row before it, and any other event keeps it. -/
theorem keepsIncident_pushEvent_iff {ev : NormalizedEvent}
    (hindex : app.selectedIncident = some index)
    (hk : k < (app.stats.blocked + app.stats.alerts : Nat))
    (h : app.KeepsSelected lower .incident (.incident k)) (hpush : app.pushEvent ev = some app') :
    app'.KeepsSelected lower .incident (.incident k) ↔
      ¬ (isIncident ev.action ∧ LosesOldest (showsIncident app.incidentFilter) app.incidents ∧
        .incident k ∈ (app.shownIds lower .incident).tail) := by
  rcases Option.map_eq_some_iff.mp hpush with ⟨kind, _, heq⟩
  have hindex' : app'.selectedIncident = some index := by
    rw [← heq]
    exact hindex
  rw [keepsSelected_incident_iff hindex] at h
  rw [keepsSelected_incident_iff hindex', ← heq]
  unfold firstIncident shownIds
  rw [mem_tail_map_iff (fun _ _ => RowId.incident.inj)]
  dsimp only
  rw [incidents_countEvent]
  by_cases hinc : isIncident ev.action
  · rw [if_pos hinc, if_pos hinc, and_iff_right hinc]
    exact follows_pushRow_iff hk h
  · rw [if_neg hinc, if_neg hinc, Nat.add_zero]
    exact iff_of_true h (fun hloses => hinc hloses.1)

theorem nodup_readsListing {fs : FileTree} {interval now : Int} {items : List PendingItem}
    (h : app.readsListing fromStr fs interval now = some items) : (itemIds items).Nodup := by
  rcases Option.bind_eq_some_iff.mp h with ⟨store, _, hread⟩
  split at hread
  · cases hread
  · cases hlisting : store.listPending fromStr fs with
    | error _ =>
        rw [hlisting] at hread
        cases hread
    | ok listed =>
        rw [hlisting] at hread
        rw [← Option.some.inj hread]
        exact nodup_itemIds hlisting

/-- The index after a refresh, where the cursor is brought back to the last row. -/
def indexAfter (app : App) (items : List PendingItem) : Selector → Option Nat
  | .cursor => some (min app.pendingScroll (items.length - 1))
  | sel => app.indexOf sel

theorem indexAfter_eq_iff {items : List PendingItem} (hmem : row ∈ itemIds items) :
    app.indexAfter items sel = some ((itemIds items).idxOf row) ↔ app.ListedAt row items sel := by
  have hlt := List.idxOf_lt_length_of_mem hmem
  have hlength : (itemIds items).length = items.length := List.length_map _
  rw [hlength] at hlt
  cases sel with
  | cursor =>
      unfold indexAfter ListedAt
      rw [Option.some.injEq]
      omega
  | _ => exact Iff.rfl

/-- A refresh keeps the selected proposal if and only if it lists as many before it as
    the index says. -/
theorem keepsProposal_refresh_iff (hsel : sel = .pending ∨ sel = .cursor)
    (hindex : (app.indexOf sel).isSome) (h : app.KeepsSelected lower sel row) (fs : FileTree)
    (interval now : Int) (wall : Nat) :
    (app.maybeRefreshPending lower fromStr fs interval now wall).KeepsSelected lower sel row ↔
      ¬ app.Disturbed lower fromStr sel row fs (.maybeRefreshPending interval now wall) := by
  unfold Disturbed
  rcases app.maybeRefreshPending_cases lower fromStr fs interval now wall with
    ⟨hnone, last, heq⟩ | ⟨items, hitems, heq⟩
  · -- Without a new listing the rows stay, and nothing is disturbed.
    have hkept : (app.maybeRefreshPending lower fromStr fs interval now wall).KeepsSelected
        lower sel row := by
      rw [heq]
      rcases hsel with rfl | rfl
      · exact h
      · exact h
    refine iff_of_true hkept (fun ⟨items, hitems, _⟩ => ?_)
    rw [hnone] at hitems
    cases hitems
  · -- With one, the rows are its items, and the index is what the refresh makes of it.
    have hids : (app.maybeRefreshPending lower fromStr fs interval now wall).shownIds lower sel
        = itemIds items := by
      rw [heq]
      rcases hsel with rfl | rfl
      · exact List.map_map
      · exact List.map_map
    have hafter : (app.maybeRefreshPending lower fromStr fs interval now wall).indexOf sel
        = app.indexAfter items sel := by
      rw [heq]
      rcases hsel with rfl | rfl
      · rfl
      · rfl
    have hsome : ∃ index, app.indexAfter items sel = some index := by
      rcases hsel with rfl | rfl
      · exact Option.isSome_iff_exists.mp hindex
      · exact ⟨_, rfl⟩
    rcases hsome with ⟨index, hindexAfter⟩
    -- Ids occur once in a listing, so the row is at the index exactly if it is listed there.
    rw [keepsSelected_iff (hafter.trans hindexAfter), hids,
      follows_iff_idxOf (nodup_readsListing hitems)]
    constructor
    · rintro hidx ⟨items', hitems', hmem, hmoved⟩
      rw [← Option.some.inj (hitems.symm.trans hitems')] at hmem hmoved
      refine hmoved ((indexAfter_eq_iff hmem).mp ?_)
      rw [hindexAfter, hidx hmem]
    · intro hquiet hmem
      have hlisted : app.ListedAt row items sel := by
        by_contra hmoved
        exact hquiet ⟨items, hitems, hmem, hmoved⟩
      have hat := (indexAfter_eq_iff hmem).mpr hlisted
      rw [hindexAfter] at hat
      exact (Option.some.inj hat).symm

/-- What the cursor of the proposals is about. -/
def proposals (app : App) : List PendingRow × Nat := (app.pending, app.pendingScroll)

theorem proposals_scrollUp (htab : app.activeTab ≠ .pending) :
    app.scrollUp.proposals = app.proposals := by
  unfold scrollUp
  cases hactive : app.activeTab with
  | pending => exact absurd hactive htab
  | _ => rfl

theorem proposals_scrollDown (htab : app.activeTab ≠ .pending) :
    (app.scrollDown lower).proposals = app.proposals := by
  unfold scrollDown
  cases hactive : app.activeTab with
  | pending => exact absurd hactive htab
  | config => rfl
  | _ =>
      dsimp only
      split <;> rfl

theorem proposals_openDetail (app : App) : (app.openDetail lower).proposals = app.proposals := by
  unfold openDetail
  cases app.activeTab <;> dsimp only <;> split <;> rfl

theorem proposals_pressNormal {key : Key}
    (hstill : key ∈ [.up, .char 'k', .down, .char 'j'] → app.activeTab ≠ .pending) :
    (app.pressNormal lower key).proposals = app.proposals := by
  rcases pressNormal_cases lower app key with
    ⟨hkey, heq⟩ | ⟨hkey, heq⟩ | heq | heq | heq | heq | ⟨state, tab, heq⟩
  · have hmem : key ∈ [Key.up, .char 'k'] ++ [.down, .char 'j'] := List.mem_append_left _ hkey
    rw [heq]
    exact proposals_scrollUp (hstill hmem)
  · have hmem : key ∈ [Key.up, .char 'k'] ++ [.down, .char 'j'] := List.mem_append_right _ hkey
    rw [heq]
    exact proposals_scrollDown (hstill hmem)
  · rw [heq]
    exact proposals_openDetail app
  · rw [heq]
    rfl
  · rw [heq]
    rfl
  · rw [heq]
    rfl
  · rw [heq]
    rfl

/-- No other key than one that moves the cursor touches it. -/
theorem proposals_press (writes : Bool) (fs : FileTree) {now : Int} {os : String} {key : Key}
    (hstill : ¬ app.MovesCursor (.key key now os)) :
    (app.press lower writes fs now os key).app.proposals = app.proposals := by
  rcases press_cases lower writes app fs now os key with
    heq | ⟨_, heq⟩ | ⟨_, _, heq⟩ | ⟨hnone, ⟨_, _, heq⟩ | ⟨_, _, heq⟩ | heq⟩
  · rw [heq]
    unfold pressDetail
    split <;> rfl
  · rw [heq]
    rfl
  · rw [heq]
    cases key <;> rfl
  · rw [heq]
    rfl
  · rw [heq]
    rfl
  · rw [heq]
    exact proposals_pressNormal (fun hkey htab => hstill ⟨hnone, htab, key, now, os, rfl, hkey⟩)

theorem keepsCursor_congr (h : app'.proposals = app.proposals) :
    app'.KeepsSelected lower .cursor row ↔ app.KeepsSelected lower .cursor row := by
  have hpending : app'.pending = app.pending := congrArg Prod.fst h
  have hscroll : app'.pendingScroll = app.pendingScroll := congrArg Prod.snd h
  refine keepsSelected_congr ?_ ?_
  · exact congrArg (List.map (fun row : PendingRow => RowId.proposal row.id)) hpending
  · exact congrArg some hscroll

end Steps

/-! ### Runs -/

section Runs

variable {lower fromStr} {app app' : App} {sel : Selector} {row : RowId}
  {act : FileTree × TuiInput}

/-- A selector and a row of its tab. -/
def Selects : Selector → RowId → Prop
  | .event, .event _ => True
  | .incident, .incident _ => True
  | .pending, .proposal _ => True
  | .cursor, .proposal _ => True
  | _, _ => False

/-- The row has been there. -/
def HasBeen (app : App) : RowId → Prop
  | .event k => k < app.stats.totalEvents
  | .incident k => k < (app.stats.blocked + app.stats.alerts : Nat)
  | .proposal _ => True

/-- A row has been selected and not been lost. -/
structure Tracks (lower : Lowercase) (sel : Selector) (row : RowId) (app : App) : Prop where
  index : (app.indexOf sel).isSome
  hasBeen : app.HasBeen row
  kept : app.KeepsSelected lower sel row

/-- What is selected is tracked. -/
theorem tracks_of_selected (h : app.selected lower sel = some row) :
    Selects sel row ∧ app.Tracks lower sel row := by
  rcases Option.bind_eq_some_iff.mp h with ⟨index, hindex, hat⟩
  have hmem : row ∈ app.shownIds lower sel := List.mem_of_getElem? hat
  have htracks : app.HasBeen row → app.Tracks lower sel row := by
    intro hbeen
    exact ⟨by rw [hindex]; rfl, hbeen, fun _ => h⟩
  -- The number of a row and its place differ by the first number that is stored.
  have hcast : ∀ (next : Nat) (len : Nat), (next : Int) - len + len = next := by
    intro next len
    omega
  cases sel with
  | event =>
      rcases List.mem_map.mp hmem with ⟨k, hk, rfl⟩
      have hbounds := (bounds_of_mem_numbers hk).2
      unfold firstEvent at hbounds
      rw [hcast] at hbounds
      exact ⟨trivial, htracks hbounds⟩
  | incident =>
      rcases List.mem_map.mp hmem with ⟨k, hk, rfl⟩
      have hbounds := (bounds_of_mem_numbers hk).2
      unfold firstIncident at hbounds
      rw [hcast] at hbounds
      exact ⟨trivial, htracks hbounds⟩
  | pending | cursor =>
      rcases List.mem_map.mp hmem with ⟨item, _, rfl⟩
      exact ⟨trivial, htracks trivial⟩

/-- A step keeps the selected row if and only if it is not disturbed. -/
theorem keepsSelected_step_iff (hselects : Selects sel row) (h : app.Tracks lower sel row)
    (hstep : app.SelectedStep lower fromStr sel act app') :
    app'.KeepsSelected lower sel row ↔ ¬ app.Disturbed lower fromStr sel row act.1 act.2 := by
  rcases act with ⟨fs, input⟩
  rcases hstep with ⟨hinput, hleaves⟩
  cases input with
  | key key now os =>
      rcases hinput.key with ⟨writes, rfl⟩
      cases sel with
      | cursor =>
          exact iff_of_true ((keepsCursor_congr (proposals_press writes fs hleaves)).mpr h.kept)
            (fun hdisturbed => hdisturbed)
      | _ => cases hleaves
  | tab =>
      rw [← hinput.tab]
      cases sel with
      | cursor =>
          have hproposals : app.pressTab.proposals = app.proposals := by
            unfold pressTab
            split <;> rfl
          exact iff_of_true ((keepsCursor_congr hproposals).mpr h.kept)
            (fun hdisturbed => hdisturbed)
      | _ => cases hleaves
  | pushEvent ev =>
      have hpush := hinput.pushEvent
      cases row with
      | event k =>
          cases sel with
          | event =>
              rcases Option.isSome_iff_exists.mp h.index with ⟨index, hindex⟩
              exact keepsEvent_pushEvent_iff hindex h.hasBeen h.kept hpush
          | _ => cases hselects
      | incident k =>
          cases sel with
          | incident =>
              rcases Option.isSome_iff_exists.mp h.index with ⟨index, hindex⟩
              exact keepsIncident_pushEvent_iff hindex h.hasBeen h.kept hpush
          | _ => cases hselects
      | proposal id =>
          rcases Option.map_eq_some_iff.mp hpush with ⟨kind, _, rfl⟩
          cases sel with
          | pending | cursor => exact iff_of_true h.kept (fun hdisturbed => hdisturbed)
          | _ => cases hselects
  | maybeRefreshPending interval now wall =>
      rw [← hinput.refresh]
      cases sel with
      | pending => exact keepsProposal_refresh_iff (.inl rfl) h.index h.kept fs interval now wall
      | cursor => exact keepsProposal_refresh_iff (.inr rfl) h.index h.kept fs interval now wall
      | event | incident =>
          -- A listing has no events.
          refine iff_of_true ?_ (fun ⟨items, _, hmem, _⟩ => ?_)
          · rcases app.maybeRefreshPending_cases lower fromStr fs interval now wall with
              ⟨_, last, heq⟩ | ⟨items, _, heq⟩
            · rw [heq]
              exact h.kept
            · rw [heq]
              exact h.kept
          · rcases List.mem_map.mp hmem with ⟨item, _, rfl⟩
            cases hselects

/-- An event is counted. -/
theorem HasBeen.pushEvent {ev : NormalizedEvent} (h : app.HasBeen row)
    (hpush : app.pushEvent ev = some app') : app'.HasBeen row := by
  rcases Option.map_eq_some_iff.mp hpush with ⟨kind, _, rfl⟩
  cases row with
  | event k =>
      have hk : k < app.stats.totalEvents := h
      change k < (countEvent app.stats ev).totalEvents
      rw [totalEvents_countEvent]
      omega
  | incident k =>
      have hk : k < (app.stats.blocked + app.stats.alerts : Nat) := h
      change k < ((countEvent app.stats ev).blocked + (countEvent app.stats ev).alerts : Nat)
      rw [incidents_countEvent]
      split <;> omega
  | proposal id => trivial

/-- A row that is kept stays tracked. -/
theorem Tracks.step (hselects : Selects sel row) (h : app.Tracks lower sel row)
    (hstep : app.SelectedStep lower fromStr sel act app') (hkept : app'.KeepsSelected lower sel row) :
    app'.Tracks lower sel row := by
  rcases act with ⟨fs, input⟩
  rcases hstep with ⟨hinput, hleaves⟩
  -- Of the cursor nothing is remembered but where it is.
  have hcursor : sel = .cursor → app'.Tracks lower sel row := by
    rintro rfl
    refine ⟨rfl, ?_, hkept⟩
    cases row with
    | proposal id => trivial
    | _ => cases hselects
  by_cases hsel : sel = .cursor
  · exact hcursor hsel
  cases input with
  | key key now os =>
      cases sel with
      | cursor => exact hcursor rfl
      | _ => cases hleaves
  | tab =>
      cases sel with
      | cursor => exact hcursor rfl
      | _ => cases hleaves
  | pushEvent ev =>
      -- A new event moves the numbering on, and the row was there before it.
      have hpush := hinput.pushEvent
      refine ⟨?_, h.hasBeen.pushEvent hpush, hkept⟩
      rcases Option.map_eq_some_iff.mp hpush with ⟨kind, _, rfl⟩
      cases sel <;> exact h.index
  | maybeRefreshPending interval now wall =>
      -- Of the rows, a refresh changes the proposals alone.
      have hrefresh := hinput.refresh
      rcases app.maybeRefreshPending_cases lower fromStr fs interval now wall with
        ⟨_, last, heq⟩ | ⟨items, _, heq⟩
      · rw [hrefresh] at heq
        refine ⟨?_, ?_, hkept⟩
        · rw [heq]
          cases sel <;> exact h.index
        · rw [heq]
          cases row <;> exact h.hasBeen
      · rw [hrefresh] at heq
        refine ⟨?_, ?_, hkept⟩
        · rw [heq]
          cases sel with
          | cursor => exact absurd rfl hsel
          | _ => exact h.index
        · rw [heq]
          cases row <;> exact h.hasBeen

/-- A run keeps what is selected at its start, for as long as it is there, if and only
    if none of its steps disturbs it. -/
theorem keepsSelected_iff_undisturbed (lower : Lowercase) (fromStr : String → Option RuleSet)
    (app app' : App) (sel : Selector) (row : RowId) (acts : List (FileTree × TuiInput))
    (hselected : app.selected lower sel = some row) :
    Transition.Run (KeepingStep lower fromStr sel row) app acts app' ↔
      Transition.Run (UndisturbedStep lower fromStr sel row) app acts app' := by
  rcases tracks_of_selected hselected with ⟨hselects, htracks⟩
  refine Transition.Run.iff_of_invariant (I := fun app => app.Tracks lower sel row) htracks ?_ ?_
  · intro app act app' htracked hstep
    exact htracked.step hselects hstep.1 hstep.2
  · intro app act app' htracked
    exact and_congr_right (fun hstep => keepsSelected_step_iff hselects htracked hstep)

end Runs

/-! ### A proposal that moves up -/

/-- A directory with three proposals. -/
def threeProposals : FileTree :=
  let staged := fun (fs : FileTree) (now : Nat) (name : String) =>
    (exampleStore.stagePending (fun _ => some "") fs now (Rule.bare name .alert)).1
  staged (staged (staged emptyRoot 0 "a") 1 "b") 2 "c"

/-- The first one is rejected by someone else. -/
def firstRejected : FileTree := (exampleStore.reject threeProposals "0-a").1

/-- A rule that every text has. -/
def anyRule : String → Option RuleSet := fun _ => some ⟨[Rule.bare "r" .alert]⟩

/-- A proposal of the directory. -/
def proposedAt (t : Nat) (name : String) : PendingItem where
  id := toString t ++ "-" ++ name
  path := "/pending/" ++ toString t ++ "-" ++ name ++ ".toml"
  rule := Rule.bare "r" .alert
  createdAt := t

theorem listPending_threeProposals :
    exampleStore.listPending anyRule threeProposals =
      .ok [proposedAt 0 "a", proposedAt 1 "b", proposedAt 2 "c"] := by
  have hpath : threeProposals.resolve exampleStore.pendingDir = some ["pending"] := by
    decide +kernel
  have hread : threeProposals.readDir ["pending"] =
      some [("2-c.toml", .file 2), ("1-b.toml", .file 1), ("0-a.toml", .file 0)] := by
    decide +kernel
  have hitems : [("2-c.toml", Entry.file 2), ("1-b.toml", .file 1), ("0-a.toml", .file 0)].filterMap
      (fun e => exampleStore.pendingItem anyRule threeProposals e.1 e.2) =
      [proposedAt 2 "c", proposedAt 1 "b", proposedAt 0 "a"] := by
    rfl
  rw [listPending_of_readDir hpath (by decide +kernel) hread, hitems]
  simp [List.mergeSort, List.MergeSort.Internal.splitInTwo, proposedAt]

theorem listPending_firstRejected :
    exampleStore.listPending anyRule firstRejected = .ok [proposedAt 1 "b", proposedAt 2 "c"] := by
  have hpath : firstRejected.resolve exampleStore.pendingDir = some ["pending"] := by
    decide +kernel
  have hread : firstRejected.readDir ["pending"] =
      some [("2-c.toml", .file 2), ("1-b.toml", .file 1)] := by
    decide +kernel
  have hitems : [("2-c.toml", Entry.file 2), ("1-b.toml", .file 1)].filterMap
      (fun e => exampleStore.pendingItem anyRule firstRejected e.1 e.2) =
      [proposedAt 2 "c", proposedAt 1 "b"] := by
    rfl
  rw [listPending_of_readDir hpath (by decide +kernel) hread, hitems]
  simp [List.mergeSort, List.MergeSort.Internal.splitInTwo, proposedAt]

/-- What is shown after a refresh. -/
def listed (app : App) (fs : FileTree) (items : List PendingItem) : App :=
  { app with
    pendingLastRefresh := 0
    pending := items.map (pendingRow asIs fs 0)
    pendingScroll := min app.pendingScroll (items.length - 1) }

theorem inputStep_listed {app : App} {fs : FileTree} {items : List PendingItem}
    (h : app.readsListing anyRule fs 0 0 = some items) :
    app.InputStep asIs anyRule (fs, .maybeRefreshPending 0 0 0) (listed app fs items) := by
  rcases app.maybeRefreshPending_cases asIs anyRule fs 0 0 0 with ⟨hnone, _⟩ | ⟨items', hsome, heq⟩
  · rw [h] at hnone
    cases hnone
  · rw [h] at hsome
    rw [← Option.some.inj hsome] at heq
    exact ⟨true, _, rfl, heq⟩

/-- The three proposals are shown. -/
def threeShown : App :=
  listed (withApproval "" (some exampleStore) 0) threeProposals
    [proposedAt 0 "a", proposedAt 1 "b", proposedAt 2 "c"]

/-- The cursor is moved to the second one. -/
def onSecond : App := { threeShown with activeTab := .pending, pendingScroll := 1 }

theorem readsListing_onSecond {app : App} (hstore : app.approvalStore = some exampleStore)
    (hdue : app.pendingLastRefresh = 0) : app.readsListing anyRule threeProposals 0 0 =
      some [proposedAt 0 "a", proposedAt 1 "b", proposedAt 2 "c"] := by
  unfold readsListing
  rw [hstore, hdue]
  exact congrArg Except.toOption listPending_threeProposals

/-- It stays there when an event comes and the directory is read again. -/
theorem keepsSelected_of_second :
    ∃ app', Transition.Run (KeepingStep asIs anyRule .cursor (.proposal "1-b")) onSecond
        [(threeProposals, .pushEvent (.plainExec "ls")),
          (threeProposals, .maybeRefreshPending 0 0 0)] app' ∧
      app'.selected asIs .cursor = some (.proposal "1-b") := by
  have hleaves : ∀ {app : App} {input : TuiInput}, (∀ key now os, input ≠ .key key now os) →
      app.LeavesSelected .cursor input := by
    rintro app input hkey ⟨_, _, key, now, os, heq, _⟩
    exact hkey key now os heq
  have hrun : Transition.Run (UndisturbedStep asIs anyRule .cursor (.proposal "1-b")) onSecond [] _ :=
    Transition.Run.nil
  have hrun := hrun.snoc (show UndisturbedStep _ _ _ _ _
      (threeProposals, .pushEvent (.plainExec "ls")) _ from
    ⟨⟨⟨true, _, rfl, rfl⟩, hleaves (fun _ _ _ => TuiInput.noConfusion)⟩, id⟩)
  have hreads : App.readsListing anyRule ((onSecond.pushEvent (.plainExec "ls")).getD onSecond)
      threeProposals 0 0 = _ := readsListing_onSecond rfl rfl
  have hrun := hrun.snoc (show UndisturbedStep _ _ _ _ _
      (threeProposals, .maybeRefreshPending 0 0 0) _ from
    ⟨⟨inputStep_listed hreads, hleaves (fun _ _ _ => TuiInput.noConfusion)⟩, by
      -- One proposal is listed before the row, as the cursor says.
      rintro ⟨items, hitems, _, hlisted⟩
      rw [← Option.some.inj (hreads.symm.trans hitems)] at hlisted
      exact hlisted (.inl (by decide +kernel))⟩)
  have hkeeps := (keepsSelected_iff_undisturbed _ _ _ _ .cursor (.proposal "1-b") _
    (by decide +kernel)).mpr hrun
  rcases hkeeps.of_snoc with ⟨_, _, hstep⟩
  exact ⟨_, hkeeps, hstep.2 (by decide +kernel)⟩

theorem run_onSecond :
    Transition.Run (InputStep asIs anyRule) (withApproval "" (some exampleStore) 0)
      [(threeProposals, .maybeRefreshPending 0 0 0), (threeProposals, .key (.char '6') 0 ""),
        (threeProposals, .key .down 0 "")] onSecond := by
  have hreads : (withApproval "" (some exampleStore) 0).readsListing anyRule threeProposals 0 0 =
      some [proposedAt 0 "a", proposedAt 1 "b", proposedAt 2 "c"] :=
    congrArg Except.toOption listPending_threeProposals
  have hrun := Transition.Run.nil.snoc (inputStep_listed hreads)
  have hrun := hrun.snoc (show InputStep asIs anyRule threeShown
    (threeProposals, .key (.char '6') 0 "") { threeShown with activeTab := .pending } from
      ⟨true, _, rfl, rfl⟩)
  exact hrun.snoc (show InputStep asIs anyRule { threeShown with activeTab := .pending }
    (threeProposals, .key .down 0 "") onSecond from
      ⟨true, _, rfl, rfl⟩)

/-- When the first proposal is gone, the cursor is on the third. -/
theorem cursor_moves_to_next_proposal :
    ¬ ∀ (lower : Lowercase) (fromStr : String → Option RuleSet) (text : String)
      (store : Option ApprovalStore) (now : Int) (before acts : List (FileTree × TuiInput))
      (app app' : App) (sel : Selector) (row : RowId),
      Transition.Run (InputStep lower fromStr) (withApproval text store now) before app →
      app.selected lower sel = some row →
      Transition.Run (SelectedStep lower fromStr sel) app acts app' →
        app'.KeepsSelected lower sel row := by
  intro hall
  have hreads : onSecond.readsListing anyRule firstRejected 0 0 =
      some [proposedAt 1 "b", proposedAt 2 "c"] :=
    congrArg Except.toOption listPending_firstRejected
  have hleaves : onSecond.LeavesSelected .cursor (.maybeRefreshPending 0 0 0) := by
    rintro ⟨_, _, key, now, os, hkey, _⟩
    cases hkey
  have hrun : Transition.Run (SelectedStep asIs anyRule .cursor) onSecond _ _ :=
    Transition.Run.nil.snoc ⟨inputStep_listed hreads, hleaves⟩
  have hkept := hall _ _ _ _ _ _ _ _ _ .cursor (.proposal "1-b") run_onSecond (by decide +kernel) hrun
  unfold KeepsSelected at hkept
  revert hkept
  decide +kernel

end App

end VectorGuard
