import VectorGuard.Theory.Cursors
import VectorGuard.Theory.RuleExpiry

/-!
# Keyboard Modes

What a key can do, and when.

A key goes to the detail popup if one is open, else to the field that is edited, else
to the filter that is typed, and only then has it a meaning of its own. The modes are
spread over five fields, and each is entered by a key without a mode, so there is
never more than one.

What must not happen by accident is what changes the rules or the configuration on
disk. The handler says which of the three calls that do it has made, so that a call
that fails or changes nothing is seen as well. Neither a call is made nor a file or
the saved configuration changed but by the one key for it, without a mode, on the tab
of it.

## Main definitions

* `App.InputStep`: A step of the interface.
* `Exclusive`: At most one mode, at most one selection.
* `ProtectsRules`: What the calls are made by, and what changes anything on disk.

## Theorems

* `pressNormal_cases`, `press_cases`: What a key can do.
* `press_disk`: What a key does on disk.
* `exclusive_step`: What every step preserves.
* `modes_of_run`: The modes along every run.
-/

namespace VectorGuard

open FileTree

namespace App

variable (lower : Lowercase) (fromStr : String → Option RuleSet)

/-- A step of the interface, on the files as they are at the time. -/
def InputStep (app : App) (act : FileTree × TuiInput) (app' : App) : Prop :=
  ∃ writes out, app.handle lower fromStr writes act.1 act.2 = some out ∧ out.app = app'

/-- A step of the interface while a field is edited. -/
def EditingStep (app : App) (act : FileTree × TuiInput) (app' : App) : Prop :=
  app.InputStep lower fromStr act app' ∧ app.config.editing = true

/-- The three modes. -/
def modes (app : App) : List Bool :=
  [app.isDetailOpen, app.config.editing, decide (app.inputMode = .filtering)]

/-- The three selections. -/
def selections (app : App) : List Bool :=
  [app.selectedEvent.isSome, app.selectedIncident.isSome, app.selectedPending.isSome]

/-- At most one mode is active and at most one selection is set. -/
structure Exclusive (app : App) : Prop where
  modes : app.modes.count true ≤ 1
  selections : app.selections.count true ≤ 1

/-- No mode is active. -/
structure NoMode (app : App) : Prop where
  detail : app.isDetailOpen = false
  editing : app.config.editing = false
  filtering : app.inputMode = .normal

/-- The input is a key that is pressed with no mode active on a tab. -/
def PressedOn (app : App) (input : TuiInput) (c : Char) (tab : Tab) : Prop :=
  (∃ now os, input = .key (.char c) now os) ∧ app.NoMode ∧ app.activeTab = tab

/-- What each of the calls on disk is made by, and what changes files or the saved
    configuration. -/
structure ProtectsRules (app : App) : Prop where
  approve : ∀ writes fs input out id, app.handle lower fromStr writes fs input = some out →
    .approve id ∈ out.calls → app.PressedOn input 'a' .pending
  reject : ∀ writes fs input out id, app.handle lower fromStr writes fs input = some out →
    .reject id ∈ out.calls → app.PressedOn input 'r' .pending
  saveConfig : ∀ writes fs input out, app.handle lower fromStr writes fs input = some out →
    .saveConfig ∈ out.calls → app.PressedOn input 's' .config
  files : ∀ writes fs input out, app.handle lower fromStr writes fs input = some out →
    out.fs ≠ fs → app.PressedOn input 'a' .pending ∨ app.PressedOn input 'r' .pending
  saved : ∀ writes fs input out, app.handle lower fromStr writes fs input = some out →
    out.app.config.file ≠ app.config.file → app.PressedOn input 's' .config

section Keys

variable {lower fromStr} {app app' : App}

theorem noMode_of (hdetail : ¬ app.isDetailOpen = true) (hediting : ¬ app.config.editing = true)
    (hfiltering : ¬ app.inputMode = .filtering) : app.NoMode := by
  refine ⟨Bool.eq_false_iff.mpr hdetail, Bool.eq_false_iff.mpr hediting, ?_⟩
  cases hmode : app.inputMode with
  | normal => rfl
  | filtering => exact absurd hmode hfiltering

/-- What a key without a mode does. -/
theorem pressNormal_cases (lower : Lowercase) (app : App) (key : Key) :
    (key ∈ [.up, .char 'k'] ∧ app.pressNormal lower key = app.scrollUp) ∨
    (key ∈ [.down, .char 'j'] ∧ app.pressNormal lower key = app.scrollDown lower) ∨
    app.pressNormal lower key = app.openDetail lower ∨
    app.pressNormal lower key = { app with config := app.config.startConfigEdit } ∨
    app.pressNormal lower key = app.cycleIncidentFilter ∨
    app.pressNormal lower key = app.startFilter ∨
    ∃ state tab, app.pressNormal lower key = { app with state := state, activeTab := tab } := by
  have hnothing : ∃ state tab, app = { app with state := state, activeTab := tab } :=
    ⟨app.state, app.activeTab, rfl⟩
  unfold pressNormal
  split
  case h_10 | h_11 => exact .inl ⟨by decide, rfl⟩
  case h_12 | h_13 => exact .inr (.inl ⟨by decide, rfl⟩)
  -- The enter key, and the letters that mean something on one tab.
  case h_14 =>
      split
      · exact .inr (.inr (.inl rfl))
      · exact .inr (.inr (.inl rfl))
      · exact .inr (.inr (.inl rfl))
      · exact .inr (.inr (.inr (.inl rfl)))
      · exact .inr (.inr (.inr (.inr (.inr (.inr hnothing)))))
  case h_15 =>
      split
      · exact .inr (.inr (.inr (.inl rfl)))
      · exact .inr (.inr (.inr (.inr (.inr (.inr hnothing)))))
  case h_16 =>
      split
      · exact .inr (.inr (.inl rfl))
      · exact .inr (.inr (.inr (.inr (.inr (.inr hnothing)))))
  case h_17 =>
      split
      · exact .inr (.inr (.inr (.inr (.inl rfl))))
      · exact .inr (.inr (.inr (.inr (.inr (.inr hnothing)))))
  case h_18 =>
      split
      · exact .inr (.inr (.inr (.inr (.inr (.inl rfl)))))
      · exact .inr (.inr (.inr (.inr (.inr (.inr hnothing)))))
  all_goals exact .inr (.inr (.inr (.inr (.inr (.inr ⟨_, _, rfl⟩)))))

/-- What a key does to the interface, by the mode it is pressed in. -/
theorem press_cases (lower : Lowercase) (writes : Bool) (app : App) (fs : FileTree) (now : Int)
    (os : String) (key : Key) :
    (app.press lower writes fs now os key).app = app.pressDetail key ∨
    app.config.editing = true ∧ (app.press lower writes fs now os key).app =
      { app with config := app.config.pressEditing key } ∨
    app.config.editing = false ∧ app.inputMode = .filtering ∧
      (app.press lower writes fs now os key).app = app.pressFiltering key ∨
    app.NoMode ∧
      ((∃ file modified, (app.press lower writes fs now os key).app =
        { app with config := { app.config with file := file, modified := modified } }) ∨
      (∃ toast last, (app.press lower writes fs now os key).app =
        { app with pendingToast := toast, pendingLastRefresh := last }) ∨
      (app.press lower writes fs now os key).app = app.pressNormal lower key) := by
  have hreview : ∀ {out : InputOutcome}, (out.app = app ∨ ∃ toast, out.app = { app with
      pendingToast := some (toast, now + toastTime), pendingLastRefresh := now - anHour }) →
      ∃ toast last, out.app = { app with pendingToast := toast, pendingLastRefresh := last } := by
    rintro out (heq | ⟨toast, heq⟩)
    · exact ⟨_, _, heq⟩
    · exact ⟨_, _, heq⟩
  unfold press
  by_cases hdetail : app.isDetailOpen = true
  · rw [if_pos hdetail]
    exact .inl rfl
  rw [if_neg hdetail]
  by_cases hediting : app.config.editing = true
  · rw [if_pos hediting]
    exact .inr (.inl ⟨hediting, rfl⟩)
  rw [if_neg hediting]
  by_cases hfiltering : app.inputMode = .filtering
  · rw [if_pos hfiltering]
    exact .inr (.inr (.inl ⟨Bool.eq_false_iff.mpr hediting, hfiltering, rfl⟩))
  rw [if_neg hfiltering]
  -- Without a mode three keys go to disk, each on its tab.
  refine .inr (.inr (.inr ⟨noMode_of hdetail hediting hfiltering, ?_⟩))
  split
  · unfold App.saveConfig
    cases writes with
    | true => exact .inl ⟨_, _, rfl⟩
    | false => exact .inl ⟨app.config.file, app.config.modified, rfl⟩
  split
  · exact .inr (.inl (hreview (review_cases _ _ _ _ app fs now os)))
  split
  · exact .inr (.inl (hreview (review_cases _ _ _ _ app fs now os)))
  · exact .inr (.inr rfl)

/-- Nothing but saving changes the configuration that is saved. -/
theorem file_pressEditing (e : ConfigEditor) (key : Key) : (e.pressEditing key).file = e.file := by
  have hconfirm : ∀ e : ConfigEditor, e.confirmConfigEdit.file = e.file := by
    intro e
    unfold ConfigEditor.confirmConfigEdit
    cases e.fields[e.fieldIdx]? <;> rfl
  unfold ConfigEditor.pressEditing
  cases key with
  | enter => exact hconfirm e
  | char c =>
      dsimp only
      split
      · exact hconfirm _
      · rfl
  | _ => rfl

theorem file_scrollDown (app : App) : (app.scrollDown lower).config.file = app.config.file := by
  unfold scrollDown
  cases app.activeTab with
  | config =>
      dsimp only
      unfold ConfigEditor.scrollConfigDown
      split <;> rfl
  | _ =>
      dsimp only
      try split
      all_goals rfl

theorem file_pressNormal (app : App) (key : Key) :
    (app.pressNormal lower key).config.file = app.config.file := by
  rcases pressNormal_cases lower app key with
    ⟨_, heq⟩ | ⟨_, heq⟩ | heq | heq | heq | heq | ⟨state, tab, heq⟩
  · rw [heq]
    unfold scrollUp
    cases app.activeTab <;> rfl
  · rw [heq]
    exact file_scrollDown app
  · rw [heq]
    unfold openDetail
    cases app.activeTab <;> dsimp only <;> split <;> rfl
  · rw [heq]
    unfold ConfigEditor.startConfigEdit
    cases app.config.fields[app.config.fieldIdx]? <;> rfl
  · rw [heq]
    rfl
  · rw [heq]
    rfl
  · rw [heq]

/-- A review makes its own call or none, and does not touch the configuration. -/
theorem review_disk {α : Type}
    (act : ApprovalStore → FileTree → String → FileTree × Except (Option String) α)
    (call : String → DiskCall) (done failed : String) (app : App) (fs : FileTree) (now : Int)
    (os : String) :
    ((review act call done failed app fs now os).calls = [] ∨
      ∃ id, (review act call done failed app fs now os).calls = [call id]) ∧
    (review act call done failed app fs now os).app.config = app.config := by
  unfold review
  cases app.approvalStore with
  | none => exact ⟨.inl rfl, rfl⟩
  | some store =>
      cases app.pending[app.pendingScroll]? with
      | none => exact ⟨.inl rfl, rfl⟩
      | some item => exact ⟨.inr ⟨_, rfl⟩, rfl⟩

/-- What an input does on disk: one of three keys makes the call that is its own, without a
    mode and on its tab, and any other input makes none and changes nothing. -/
def OnDisk (app : App) (fs : FileTree) (input : TuiInput) (out : InputOutcome) : Prop :=
  (app.PressedOn input 's' .config ∧ out.calls = [.saveConfig] ∧ out.fs = fs) ∨
  (app.PressedOn input 'a' .pending ∧ (out.calls = [] ∨ ∃ id, out.calls = [.approve id]) ∧
    out.app.config = app.config) ∨
  (app.PressedOn input 'r' .pending ∧ (out.calls = [] ∨ ∃ id, out.calls = [.reject id]) ∧
    out.app.config = app.config) ∨
  (out.calls = [] ∧ out.fs = fs ∧ out.app.config.file = app.config.file)

theorem onDisk_of_quiet {fs : FileTree} {input : TuiInput}
    (h : app'.config.file = app.config.file) : app.OnDisk fs input ⟨app', fs, []⟩ :=
  .inr (.inr (.inr ⟨rfl, rfl, h⟩))

theorem press_disk (writes : Bool) (fs : FileTree) (now : Int) (os : String) (key : Key) :
    app.OnDisk fs (.key key now os) (app.press lower writes fs now os key) := by
  unfold press
  dsimp only
  by_cases hdetail : app.isDetailOpen = true
  · rw [if_pos hdetail]
    refine onDisk_of_quiet ?_
    unfold pressDetail
    split <;> rfl
  rw [if_neg hdetail]
  by_cases hediting : app.config.editing = true
  · rw [if_pos hediting]
    exact onDisk_of_quiet (file_pressEditing app.config key)
  rw [if_neg hediting]
  by_cases hfiltering : app.inputMode = .filtering
  · rw [if_pos hfiltering]
    refine onDisk_of_quiet ?_
    unfold pressFiltering
    cases key <;> rfl
  rw [if_neg hfiltering]
  have hmode := noMode_of hdetail hediting hfiltering
  have hpressed : ∀ c tab, (key = .char c && app.activeTab = tab) = true →
      app.PressedOn (.key key now os) c tab := by
    intro c tab hkey
    rw [Bool.and_eq_true, decide_eq_true_eq, decide_eq_true_eq] at hkey
    exact ⟨⟨now, os, by rw [hkey.1]⟩, hmode, hkey.2⟩
  -- The keys of the three calls, one after the other.
  by_cases hs : (key = .char 's' && app.activeTab = .config) = true
  · rw [if_pos hs]
    exact .inl ⟨hpressed _ _ hs, rfl, rfl⟩
  rw [if_neg hs]
  by_cases ha : (key = .char 'a' && app.activeTab = .pending) = true
  · rw [if_pos ha]
    exact .inr (.inl ⟨hpressed _ _ ha, review_disk _ _ _ _ app fs now os⟩)
  rw [if_neg ha]
  by_cases hr : (key = .char 'r' && app.activeTab = .pending) = true
  · rw [if_pos hr]
    exact .inr (.inr (.inl ⟨hpressed _ _ hr, review_disk _ _ _ _ app fs now os⟩))
  rw [if_neg hr]
  exact onDisk_of_quiet (file_pressNormal app key)

theorem handle_disk {writes : Bool} {fs : FileTree} {input : TuiInput} {out : InputOutcome}
    (h : app.handle lower fromStr writes fs input = some out) : app.OnDisk fs input out := by
  cases input with
  | key key now os =>
      rw [← Option.some.inj h]
      exact press_disk writes fs now os key
  | tab =>
      rw [← Option.some.inj h]
      refine onDisk_of_quiet ?_
      unfold pressTab
      split <;> rfl
  | pushEvent ev =>
      rcases Option.map_eq_some_iff.mp h with ⟨pushed, hpush, rfl⟩
      rcases Option.map_eq_some_iff.mp hpush with ⟨kind, _, rfl⟩
      exact onDisk_of_quiet rfl
  | maybeRefreshPending interval now wall =>
      rw [← Option.some.inj h]
      refine onDisk_of_quiet ?_
      rcases app.maybeRefreshPending_cases lower fromStr fs interval now wall with
        ⟨_, last, heq⟩ | ⟨items, _, heq⟩
      · rw [heq]
      · rw [heq]

/-- In every state each call on disk is made by its own key only, and nothing but the key
    changes files or the saved configuration. -/
theorem protectsRules (app : App) : app.ProtectsRules lower fromStr := by
  refine ⟨?_, ?_, ?_, ?_, ?_⟩
  · intro writes fs input out id h hcall
    rcases handle_disk h with ⟨_, hcalls, _⟩ | ⟨hkey, _⟩ | ⟨_, hcalls | ⟨_, hcalls⟩, _⟩ | ⟨hcalls, _⟩
    · simp [hcalls] at hcall
    · exact hkey
    all_goals simp [hcalls] at hcall
  · intro writes fs input out id h hcall
    rcases handle_disk h with ⟨_, hcalls, _⟩ | ⟨_, hcalls | ⟨_, hcalls⟩, _⟩ | ⟨hkey, _⟩ | ⟨hcalls, _⟩
    · simp [hcalls] at hcall
    · simp [hcalls] at hcall
    · simp [hcalls] at hcall
    · exact hkey
    · simp [hcalls] at hcall
  · intro writes fs input out h hcall
    rcases handle_disk h with
      ⟨hkey, _⟩ | ⟨_, hcalls | ⟨_, hcalls⟩, _⟩ | ⟨_, hcalls | ⟨_, hcalls⟩, _⟩ | ⟨hcalls, _⟩
    · exact hkey
    all_goals simp [hcalls] at hcall
  · intro writes fs input out h hchanged
    rcases handle_disk h with ⟨_, _, hfs⟩ | ⟨hkey, _⟩ | ⟨hkey, _⟩ | ⟨_, hfs, _⟩
    · exact absurd hfs hchanged
    · exact .inl hkey
    · exact .inr hkey
    · exact absurd hfs hchanged
  · intro writes fs input out h hchanged
    rcases handle_disk h with ⟨hkey, _⟩ | ⟨_, _, hconfig⟩ | ⟨_, _, hconfig⟩ | ⟨_, _, hfile⟩
    · exact hkey
    · exact absurd (congrArg ConfigEditor.file hconfig) hchanged
    · exact absurd (congrArg ConfigEditor.file hconfig) hchanged
    · exact absurd hfile hchanged

end Keys

/-! ### One mode at a time -/

section Steps

variable {lower fromStr} {app app' : App}

/-- The fields that the modes are spread over. -/
def flags (app : App) : List Bool :=
  app.selections ++ [app.config.editing, decide (app.inputMode = .filtering)]

/-- At most one of the fields is set. -/
theorem exclusive_iff : app.Exclusive ↔ app.flags.count true ≤ 1 := by
  have hcounts : app.flags.count true ≤ 1 ↔
      app.modes.count true ≤ 1 ∧ app.selections.count true ≤ 1 := by
    unfold flags modes selections isDetailOpen
    cases app.selectedEvent.isSome <;> cases app.selectedIncident.isSome <;>
      cases app.selectedPending.isSome <;> cases app.config.editing <;>
      cases decide (app.inputMode = .filtering) <;> decide
  rw [hcounts]
  exact ⟨fun h => ⟨h.modes, h.selections⟩, fun h => ⟨h.1, h.2⟩⟩

/-- Without a mode none of the fields is set. -/
theorem NoMode.count_flags (h : app.NoMode) : app.flags.count true = 0 := by
  have hselected := h.detail
  unfold isDetailOpen at hselected
  unfold flags selections
  rw [h.editing, h.filtering]
  revert hselected
  cases app.selectedEvent.isSome <;> cases app.selectedIncident.isSome <;>
    cases app.selectedPending.isSome <;> decide

/-- One field is set, the others are as they were. -/
theorem count_flags_set (flags : List Bool) (i : Nat) :
    (flags.set i true).count true ≤ flags.count true + 1 := by
  induction flags generalizing i with
  | nil => exact Nat.zero_le _
  | cons flag rest ih =>
      cases i with
      | zero =>
          rw [List.set_cons_zero, List.count_cons_self]
          exact Nat.succ_le_succ (List.count_le_count_cons)
      | succ i =>
          have hrest := ih i
          rw [List.set_cons_succ, List.count_cons, List.count_cons]
          omega

theorem flags_scrollUp (app : App) : app.scrollUp.flags = app.flags := by
  unfold scrollUp
  cases app.activeTab <;> rfl

theorem flags_scrollDown (app : App) : (app.scrollDown lower).flags = app.flags := by
  unfold scrollDown
  cases app.activeTab with
  | config =>
      dsimp only
      unfold ConfigEditor.scrollConfigDown
      split <;> rfl
  | _ =>
      dsimp only
      try split
      all_goals rfl

theorem flags_maybeRefreshPending (app : App) (fs : FileTree) (interval now : Int) (wall : Nat) :
    (app.maybeRefreshPending lower fromStr fs interval now wall).flags = app.flags := by
  rcases app.maybeRefreshPending_cases lower fromStr fs interval now wall with
    ⟨_, last, heq⟩ | ⟨items, _, heq⟩
  · rw [heq]
    rfl
  · rw [heq]
    rfl

/-- Opening a popup sets one of the selections. -/
theorem count_flags_openDetail (app : App) :
    (app.openDetail lower).flags.count true ≤ app.flags.count true + 1 := by
  unfold openDetail
  cases app.activeTab with
  | incidents =>
      dsimp only
      split
      · exact count_flags_set app.flags 1
      · exact Nat.le_succ _
  | pending =>
      dsimp only
      split
      · exact Nat.le_succ _
      · exact count_flags_set app.flags 2
  | _ =>
      dsimp only
      split
      · exact count_flags_set app.flags 0
      · exact Nat.le_succ _

theorem count_flags_startConfigEdit (app : App) :
    ({ app with config := app.config.startConfigEdit } : App).flags.count true
      ≤ app.flags.count true + 1 := by
  unfold ConfigEditor.startConfigEdit
  cases app.config.fields[app.config.fieldIdx]? with
  | none => exact Nat.le_succ _
  | some field => exact count_flags_set app.flags 3

theorem count_flags_startFilter (app : App) :
    app.startFilter.flags.count true ≤ app.flags.count true + 1 :=
  count_flags_set app.flags 4

/-- A key without a mode sets at most one of the fields. -/
theorem count_flags_pressNormal (app : App) (key : Key) :
    (app.pressNormal lower key).flags.count true ≤ app.flags.count true + 1 := by
  have hsame : ∀ app' : App, app'.flags = app.flags →
      app'.flags.count true ≤ app.flags.count true + 1 := by
    intro app' hflags
    rw [hflags]
    exact Nat.le_succ _
  -- Only the popup, the edit and the filter set a field.
  rcases pressNormal_cases lower app key with
    ⟨_, heq⟩ | ⟨_, heq⟩ | heq | heq | heq | heq | ⟨state, tab, heq⟩
  · rw [heq]
    exact hsame _ (flags_scrollUp app)
  · rw [heq]
    exact hsame _ (flags_scrollDown app)
  · rw [heq]
    exact count_flags_openDetail app
  · rw [heq]
    exact count_flags_startConfigEdit app
  · rw [heq]
    exact hsame _ rfl
  · rw [heq]
    exact count_flags_startFilter app
  · rw [heq]
    exact hsame _ rfl

/-- Fields that are only cleared. -/
theorem count_le_of_forall₂ {flags flags' : List Bool}
    (h : List.Forall₂ (fun flag flag' => flag' = true → flag = true) flags flags') :
    flags'.count true ≤ flags.count true := by
  induction h with
  | nil => exact Nat.le_refl 0
  | @cons flag flag' rest rest' hflag _ ih =>
      rw [List.count_cons, List.count_cons]
      cases flag' with
      | false => exact Nat.le_trans ih (Nat.le_add_right _ _)
      | true =>
          rw [hflag rfl]
          exact Nat.succ_le_succ ih

/-- A key in a popup closes it or does nothing. -/
theorem count_flags_pressDetail (app : App) (key : Key) :
    (app.pressDetail key).flags.count true ≤ app.flags.count true := by
  have hclose : app.closeDetail.flags.count true ≤ app.flags.count true :=
    count_le_of_forall₂ (.cons nofun (.cons nofun (.cons nofun (.cons id (.cons id .nil)))))
  unfold pressDetail
  split
  · exact hclose
  · exact hclose
  · exact hclose
  · exact Nat.le_refl _

/-- A key in a field is over at most the editing of it. -/
theorem count_flags_pressEditing (app : App) (hediting : app.config.editing = true) (key : Key) :
    ({ app with config := app.config.pressEditing key } : App).flags.count true
      ≤ app.flags.count true :=
  count_le_of_forall₂
    (.cons id (.cons id (.cons id (.cons (fun _ => hediting) (.cons id .nil)))))

theorem count_flags_pressFiltering (app : App) (hfiltering : app.inputMode = .filtering)
    (key : Key) : (app.pressFiltering key).flags.count true ≤ app.flags.count true := by
  have hmode : decide (app.inputMode = .filtering) = true := decide_eq_true hfiltering
  refine count_le_of_forall₂ ?_
  cases key with
  | _ => exact .cons id (.cons id (.cons id (.cons id (.cons (fun _ => hmode) .nil))))

/-- A key in a field keeps the field. -/
theorem fieldIdx_pressEditing (e : ConfigEditor) (key : Key) :
    (e.pressEditing key).fieldIdx = e.fieldIdx := by
  have hconfirm : ∀ e : ConfigEditor, e.confirmConfigEdit.fieldIdx = e.fieldIdx := by
    intro e
    unfold ConfigEditor.confirmConfigEdit
    cases e.fields[e.fieldIdx]? <;> rfl
  unfold ConfigEditor.pressEditing
  cases key with
  | enter => exact hconfirm e
  | char c =>
      dsimp only
      split
      · exact hconfirm _
      · rfl
  | _ => rfl

/-- A key sets one of the fields at most, and only when none is set. -/
theorem Exclusive.press (h : app.Exclusive) (writes : Bool) (fs : FileTree) (now : Int)
    (os : String) (key : Key) : (app.press lower writes fs now os key).app.Exclusive := by
  rw [exclusive_iff] at h ⊢
  rcases press_cases lower writes app fs now os key with
    heq | ⟨hediting, heq⟩ | ⟨_, hfiltering, heq⟩ |
    ⟨hnone, ⟨file, modified, heq⟩ | ⟨toast, last, heq⟩ | heq⟩
  · rw [heq]
    exact Nat.le_trans (count_flags_pressDetail app key) h
  · rw [heq]
    exact Nat.le_trans (count_flags_pressEditing app hediting key) h
  · rw [heq]
    exact Nat.le_trans (count_flags_pressFiltering app hfiltering key) h
  · rw [heq]
    exact h
  · rw [heq]
    exact h
  · -- Without a mode there is room for one.
    have hone : (app.pressNormal lower key).flags.count true ≤ app.flags.count true + 1 :=
      count_flags_pressNormal app key
    rw [hnone.count_flags] at hone
    rw [heq]
    exact hone

/-- What a step with each of the inputs is. -/
theorem InputStep.key {fs : FileTree} {key : Key} {now : Int} {os : String}
    (h : app.InputStep lower fromStr (fs, .key key now os) app') :
    ∃ writes, (app.press lower writes fs now os key).app = app' := by
  rcases h with ⟨writes, out, hhandle, rfl⟩
  exact ⟨writes, congrArg InputOutcome.app (Option.some.inj hhandle)⟩

theorem InputStep.tab {fs : FileTree} (h : app.InputStep lower fromStr (fs, .tab) app') :
    app.pressTab = app' := by
  rcases h with ⟨writes, out, hhandle, rfl⟩
  exact congrArg InputOutcome.app (Option.some.inj hhandle)

theorem InputStep.pushEvent {fs : FileTree} {ev : NormalizedEvent}
    (h : app.InputStep lower fromStr (fs, .pushEvent ev) app') : app.pushEvent ev = some app' := by
  rcases h with ⟨writes, out, hhandle, rfl⟩
  rcases Option.map_eq_some_iff.mp hhandle with ⟨pushed, hpush, rfl⟩
  exact hpush

theorem InputStep.refresh {fs : FileTree} {interval now : Int} {wall : Nat}
    (h : app.InputStep lower fromStr (fs, .maybeRefreshPending interval now wall) app') :
    app.maybeRefreshPending lower fromStr fs interval now wall = app' := by
  rcases h with ⟨writes, out, hhandle, rfl⟩
  exact congrArg InputOutcome.app (Option.some.inj hhandle)

/-- Every step keeps to one mode and one selection. -/
theorem exclusive_step {act : FileTree × TuiInput} (h : app.Exclusive)
    (hstep : app.InputStep lower fromStr act app') : app'.Exclusive := by
  rcases act with ⟨fs, input⟩
  cases input with
  | key key now os =>
      rcases hstep.key with ⟨writes, rfl⟩
      exact h.press writes fs now os key
  | tab =>
      rw [← hstep.tab]
      unfold pressTab
      split
      · exact h
      · exact ⟨h.modes, h.selections⟩
  | pushEvent ev =>
      rcases Option.map_eq_some_iff.mp hstep.pushEvent with ⟨kind, _, rfl⟩
      exact ⟨h.modes, h.selections⟩
  | maybeRefreshPending interval now wall =>
      rw [exclusive_iff] at h ⊢
      rw [← hstep.refresh, flags_maybeRefreshPending]
      exact h

theorem config_maybeRefreshPending (app : App) (fs : FileTree) (interval now : Int) (wall : Nat) :
    (app.maybeRefreshPending lower fromStr fs interval now wall).config = app.config := by
  rcases app.maybeRefreshPending_cases lower fromStr fs interval now wall with
    ⟨_, last, heq⟩ | ⟨items, _, heq⟩
  · rw [heq]
  · rw [heq]

/-- While a field is edited, no step goes to another. -/
theorem fieldIdx_step {act : FileTree × TuiInput} (hstep : app.EditingStep lower fromStr act app') :
    app'.config.fieldIdx = app.config.fieldIdx := by
  rcases act with ⟨fs, input⟩
  rcases hstep with ⟨hinput, hediting⟩
  cases input with
  | key key now os =>
      rcases hinput.key with ⟨writes, rfl⟩
      -- The last two cases are those without the mode.
      rcases press_cases lower writes app fs now os key with
        heq | ⟨_, heq⟩ | ⟨hnot, _⟩ | ⟨hnone, _⟩
      · rw [heq]
        unfold pressDetail
        split <;> rfl
      · rw [heq]
        exact fieldIdx_pressEditing app.config key
      · exact absurd hediting (Bool.eq_false_iff.mp hnot)
      · exact absurd hediting (Bool.eq_false_iff.mp hnone.editing)
  | tab =>
      rw [← hinput.tab]
      unfold pressTab
      split <;> rfl
  | pushEvent ev =>
      rcases Option.map_eq_some_iff.mp hinput.pushEvent with ⟨kind, _, rfl⟩
      rfl
  | maybeRefreshPending interval now wall => rw [← hinput.refresh, config_maybeRefreshPending]

end Steps

/-! ### Runs -/

section Runs

variable {lower fromStr} {app app' : App} {acts : List (FileTree × TuiInput)} {text : String}
  {store : Option ApprovalStore} {now : Int}

/-- The field of an edit is the one it was started on. -/
theorem fieldIdx_of_run (hrun : Transition.Run (EditingStep lower fromStr) app acts app') :
    app'.config.fieldIdx = app.config.fieldIdx := by
  refine hrun.invariant (I := fun _ app' => app'.config.fieldIdx = app.config.fieldIdx) rfl ?_
  intro acts mid act app' _ hmid hstep
  exact (fieldIdx_step hstep).trans hmid

/-- Along every run there is one mode and one selection at most, an edit stays with
    its field, and each operation on rules and configuration has its own key. -/
theorem modes_of_run (lower : Lowercase) (fromStr : String → Option RuleSet) (text : String)
    (store : Option ApprovalStore) (now : Int) (acts : List (FileTree × TuiInput)) (app : App)
    (hrun : Transition.Run (InputStep lower fromStr) (withApproval text store now) acts app) :
    app.Exclusive ∧
      (∀ acts' app', Transition.Run (EditingStep lower fromStr) app acts' app' →
        app'.config.fieldIdx = app.config.fieldIdx) ∧
      app.ProtectsRules lower fromStr := by
  have hexclusive : app.Exclusive := by
    refine hrun.invariant (I := fun _ app => app.Exclusive) ⟨Nat.zero_le 1, Nat.zero_le 1⟩ ?_
    intro acts mid act app' _ hmid hstep
    exact exclusive_step hmid hstep
  exact ⟨hexclusive, fun _ _ => fieldIdx_of_run, protectsRules app⟩

/-- A letter that is typed into a field. -/
theorem modes_of_typed_letter :
    ∃ app : App, app.config.editing = true ∧ app.config.editBuf = "a" ∧ app.Exclusive ∧
      (∀ acts' app', Transition.Run (EditingStep asIs (fun _ => none)) app acts' app' →
        app'.config.fieldIdx = app.config.fieldIdx) ∧
      app.ProtectsRules asIs (fun _ => none) := by
  have hrun : Transition.Run (InputStep asIs (fun _ => none)) (withApproval "" none 0) [] _ :=
    Transition.Run.nil
  have hrun := hrun.snoc (show InputStep _ _ _ (emptyRoot, .key (.char '4') 0 "") _ from
    ⟨true, _, rfl, rfl⟩)
  have hrun := hrun.snoc (show InputStep _ _ _ (emptyRoot, .key .enter 0 "") _ from
    ⟨true, _, rfl, rfl⟩)
  have hrun := hrun.snoc (show InputStep _ _ _ (emptyRoot, .key (.char 'a') 0 "") _ from
    ⟨true, _, rfl, rfl⟩)
  exact ⟨_, by decide +kernel, by decide +kernel, modes_of_run _ _ _ _ _ _ _ hrun⟩

end Runs

end App

end VectorGuard
