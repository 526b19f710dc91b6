import VectorGuard.Theory.ApprovedRules
import VectorGuard.Theory.Modes
import VectorGuard.Theory.Reviews

/-!
# The Review Desk

The dashboard and the approval store together, while the advisor stages proposals and the
reaper sweeps.

A reviewer looks at the last listing and presses a key for the row at the cursor. Between
the listing and the key the directories may have changed, so what counts is which file the
key acts on. Its id is one of the listing, and an id stands for the same file as long as
nobody stages under it again: a proposal that was decided on elsewhere is gone and the
decision fails. So what is approved was on the screen.

The ids of a listing are names of files and have no slash. Nothing else is needed for the
store to be two shelves, with the keys of the reviewer among the operations on them.

## Main definitions

* `App.decision`: What a key decides, about which row.
* `DeskEvent`, `DeskStep`: What happens at the desk.
* `storeOps`: The operations on the store in it.
* `PendingRow.Shows`: What a row says of a file.

## Theorems

* `DeskStep.cases`: What a step does to the files and to the rows.
* `listed_shows`: Every row of a listing shows a proposal.
* `Settled.desk_refines`: A run of the desk is one of the shelves.
* `Settled.approved_as_shown`: Where a file in the rules directory comes from.
-/

namespace VectorGuard

open FileTree Transition

/-! ### What happens at the desk -/

namespace App

/-- The proposal at the cursor, if a key would be about it. -/
def underReview (app : App) : Option PendingRow :=
  if app.isDetailOpen || app.config.editing || app.inputMode = .filtering ||
    app.activeTab ≠ .pending then none
  else app.pending[app.pendingScroll]?

/-- What an input decides, and about which row. -/
def decision (app : App) : TuiInput → Option (PendingRow × StoreOp)
  | .key key _ _ =>
    if key = .char 'a' then app.underReview.map (fun row => (row, .approve row.id))
    else if key = .char 'r' then app.underReview.map (fun row => (row, .reject row.id))
    else none
  | _ => none

/-- What the interface offers for review. -/
def offered (app : App) : Option ApprovalStore × List PendingRow := (app.approvalStore, app.pending)

end App

/-- What happens at the desk: a decision about a row, at a time of the wall clock, a new
    listing, another input, or an operation of another task. -/
inductive DeskEvent
  | decided (now : Nat) (row : PendingRow) (op : StoreOp)
  | listed (rows : List PendingRow)
  | used
  | other (now : Nat) (op : StoreOp)

/-- The operation on the store in an event. -/
def DeskEvent.storeOp : DeskEvent → Option (Nat × StoreOp)
  | .decided now _ op | .other now op => some (now, op)
  | .listed _ | .used => none

/-- The operations on the store in what happened. -/
def storeOps (acts : List DeskEvent) : List (Nat × StoreOp) := acts.filterMap DeskEvent.storeOp

variable (lower : Lowercase) (toText : RuleSet → Option String) (fromStr : String → Option RuleSet)
  (store : ApprovalStore)

/-- What an input is at the desk. -/
def App.observed (app : App) (fs : FileTree) (wall : Nat) : TuiInput → DeskEvent
  | .maybeRefreshPending interval now wall =>
    match app.readsListing fromStr fs interval now with
    | some items => .listed (items.map (App.pendingRow lower fs wall))
    | none => .used
  | input =>
    match app.decision input with
    | some (row, op) => .decided wall row op
    | none => .used

/-- A step of the interface, or of another task on the same store. -/
inductive DeskStep : App × FileTree → DeskEvent → App × FileTree → Prop
  | input {app : App} {fs : FileTree} (writes : Bool) (wall : Nat) (input : TuiInput)
      {out : InputOutcome} (h : app.handle lower fromStr writes fs input = some out) :
      DeskStep (app, fs) (app.observed lower fromStr fs wall input) (out.app, out.fs)
  | other (app : App) (fs : FileTree) (now : Nat) (op : StoreOp) :
      DeskStep (app, fs) (.other now op) (app, op.apply toText store fs now)

/-- A row says of a file what is in it: its text, and the first rule of it. -/
structure PendingRow.Shows (row : PendingRow) (file : FileData) : Prop where
  body : row.tomlBody = file.content
  rule : ∃ rule rest, fromStr file.content = some ⟨rule :: rest⟩ ∧ row.name = rule.name ∧
    row.action = lower.toLowercase rule.action.debug ∧ row.description = rule.description.getD ""

theorem storeOps_append (acts acts' : List DeskEvent) :
    storeOps (acts ++ acts') = storeOps acts ++ storeOps acts' := List.filterMap_append

theorem storeOps_singleton (a : DeskEvent) : storeOps [a] = a.storeOp.toList := by
  cases a <;> rfl

/-- An operation is that of an event. -/
theorem exists_event {acts : List DeskEvent} {ops ops' : List (Nat × StoreOp)} {op : Nat × StoreOp}
    (h : storeOps acts = ops ++ op :: ops') :
    ∃ acts₁ a acts₂, acts = acts₁ ++ a :: acts₂ ∧ storeOps acts₁ = ops ∧ a.storeOp = some op := by
  rcases List.filterMap_eq_append_iff.mp h with ⟨acts₁, acts₂, hacts, hfirst, hsecond⟩
  rcases List.filterMap_eq_cons_iff.mp hsecond with ⟨quiet, a, after, hacts₂, hquiet, ha, _⟩
  refine ⟨acts₁ ++ quiet, a, after, by rw [hacts, hacts₂, List.append_assoc], ?_, ha⟩
  have hnone : storeOps quiet = [] := List.filterMap_eq_nil_iff.mpr hquiet
  rw [storeOps_append, hnone, List.append_nil]
  exact hfirst

theorem runStore_append (fs : FileTree) (ops ops' : List (Nat × StoreOp)) :
    runStore toText store fs (ops ++ ops') = runStore toText store (runStore toText store fs ops) ops' :=
  List.foldl_append

/-! ### Steps -/

namespace App

section Keys

variable {lower toText fromStr store} {app app' : App}

theorem offered_scrollUp (app : App) : app.scrollUp.offered = app.offered := by
  unfold scrollUp
  cases app.activeTab <;> rfl

theorem offered_scrollDown (app : App) : (app.scrollDown lower).offered = app.offered := by
  unfold scrollDown
  cases app.activeTab with
  | config => rfl
  | _ =>
      dsimp only
      split <;> rfl

theorem offered_openDetail (app : App) : (app.openDetail lower).offered = app.offered := by
  unfold openDetail
  cases app.activeTab <;> dsimp only <;> split <;> rfl

theorem offered_pressNormal (app : App) (key : Key) :
    (app.pressNormal lower key).offered = app.offered := by
  rcases pressNormal_cases lower app key with
    ⟨_, heq⟩ | ⟨_, heq⟩ | heq | heq | heq | heq | ⟨state, tab, heq⟩
  · rw [heq]
    exact offered_scrollUp app
  · rw [heq]
    exact offered_scrollDown app
  · rw [heq]
    exact offered_openDetail app
  all_goals
    rw [heq]
    rfl

/-- No key changes what is offered. -/
theorem offered_press (writes : Bool) (app : App) (fs : FileTree) (now : Int) (os : String)
    (key : Key) : (app.press lower writes fs now os key).app.offered = app.offered := by
  rcases press_cases lower writes app fs now os key with
    heq | ⟨_, heq⟩ | ⟨_, _, heq⟩ | ⟨_, ⟨_, _, heq⟩ | ⟨_, _, heq⟩ | heq⟩
  · rw [heq]
    unfold pressDetail
    split <;> rfl
  · rw [heq]
    rfl
  · rw [heq]
    cases key <;> rfl
  · rw [heq]
    rfl
  · rw [heq]
    rfl
  · rw [heq]
    exact offered_pressNormal app key

/-- A review at the desk is about the proposal at the cursor. -/
theorem review_files {α : Type}
    (act : ApprovalStore → FileTree → String → FileTree × Except (Option String) α)
    (call : String → DiskCall) (done failed : String) (hstore : app.approvalStore = some store)
    (fs : FileTree) (now : Int) (os : String) : (review act call done failed app fs now os).fs
      = app.pending[app.pendingScroll]?.elim fs (fun row => (act store fs row.id).1) := by
  unfold review
  rw [hstore]
  cases app.pending[app.pendingScroll]? <;> rfl

theorem decision_of_none (h : app.underReview = none) (input : TuiInput) :
    app.decision input = none := by
  unfold decision
  rw [h]
  split
  · split
    · rfl
    · split <;> rfl
  · rfl

/-- In a mode the keys are not about a proposal. -/
theorem underReview_of_mode
    (h : (app.isDetailOpen || app.config.editing || app.inputMode = .filtering) = true) :
    app.underReview = none := by
  refine if_pos ?_
  rw [h, Bool.true_or]

/-- A key does to the files what it decides, and nothing else. -/
theorem files_press (writes : Bool) (hstore : app.approvalStore = some store) (fs : FileTree)
    (now : Int) (os : String) (key : Key) (wall : Nat) :
    (app.press lower writes fs now os key).fs
      = (app.decision (.key key now os)).elim fs (fun d => d.2.apply toText store fs wall) := by
  unfold press
  dsimp only
  by_cases hdetail : app.isDetailOpen = true
  · rw [if_pos hdetail, decision_of_none (underReview_of_mode (by simp [hdetail]))]
    rfl
  rw [if_neg hdetail]
  by_cases hediting : app.config.editing = true
  · rw [if_pos hediting, decision_of_none (underReview_of_mode (by simp [hediting]))]
    rfl
  rw [if_neg hediting]
  by_cases hfiltering : app.inputMode = .filtering
  · rw [if_pos hfiltering, decision_of_none (underReview_of_mode (by simp [hfiltering]))]
    rfl
  rw [if_neg hfiltering]
  -- Without a mode, what counts is the key and the tab.
  by_cases htab : app.activeTab = .pending
  · have hreview : app.underReview = app.pending[app.pendingScroll]? := by
      unfold underReview
      simp [hdetail, hediting, hfiltering, htab]
    have hsave : ¬ (key = .char 's' && app.activeTab = .config) = true := by simp [htab]
    rw [if_neg hsave]
    unfold decision
    dsimp only
    rw [hreview]
    by_cases ha : key = .char 'a'
    · simp only [ha, htab, decide_true, Bool.and_self, if_true]
      refine (review_files _ _ _ _ hstore fs now os).trans ?_
      cases app.pending[app.pendingScroll]? <;> rfl
    · have hnot : ¬ (key = .char 'a' && app.activeTab = .pending) = true := by simp [ha]
      rw [if_neg hnot, if_neg ha]
      by_cases hr : key = .char 'r'
      · simp only [hr, htab, decide_true, Bool.and_self, if_true]
        refine (review_files _ _ _ _ hstore fs now os).trans ?_
        cases app.pending[app.pendingScroll]? <;> rfl
      · simp [hr, htab]
  · have hnone : app.underReview = none := by
      unfold underReview
      simp [htab]
    rw [decision_of_none hnone]
    simp only [htab, decide_false, Bool.and_false, Bool.false_eq_true, if_false]
    split <;> rfl

theorem decision_spec {input : TuiInput} {row : PendingRow} {op : StoreOp}
    (h : app.decision input = some (row, op)) :
    row ∈ app.pending ∧ (op = .approve row.id ∨ op = .reject row.id) := by
  have hmem : ∀ row, app.underReview = some row → row ∈ app.pending := by
    intro row hrow
    unfold underReview at hrow
    split at hrow
    · cases hrow
    · exact List.mem_of_getElem? hrow
  unfold decision at h
  split at h
  · split at h
    · rcases Option.map_eq_some_iff.mp h with ⟨row', hrow, heq⟩
      cases heq
      exact ⟨hmem _ hrow, .inl rfl⟩
    · split at h
      · rcases Option.map_eq_some_iff.mp h with ⟨row', hrow, heq⟩
        cases heq
        exact ⟨hmem _ hrow, .inr rfl⟩
      · cases h
  · cases h

theorem listPending_of_readsListing {fs : FileTree} {interval now : Int} {items : List PendingItem}
    (hstore : app.approvalStore = some store)
    (h : app.readsListing fromStr fs interval now = some items) :
    store.listPending fromStr fs = .ok items := by
  unfold readsListing at h
  rw [hstore, Option.bind_some] at h
  split at h
  · cases h
  · cases hlist : store.listPending fromStr fs with
    | error _ =>
        rw [hlist] at h
        cases h
    | ok listed =>
        rw [hlist] at h
        rw [Option.some.inj h]

end Keys

end App

section Steps

variable {lower toText fromStr store} {s s' : App × FileTree} {a : DeskEvent}

/-- What can happen at the desk. -/
theorem DeskStep.cases (hstep : DeskStep lower toText fromStr store s a s')
    (hstore : s.1.approvalStore = some store) :
    (∃ now row op, a = .decided now row op ∧ row ∈ s.1.pending ∧
      (op = .approve row.id ∨ op = .reject row.id) ∧ s'.1.offered = s.1.offered ∧
      s'.2 = op.apply toText store s.2 now) ∨
    (∃ items wall, a = .listed (items.map (App.pendingRow lower s.2 wall)) ∧
      store.listPending fromStr s.2 = .ok items ∧
      s'.1.offered = (some store, items.map (App.pendingRow lower s.2 wall)) ∧ s'.2 = s.2) ∨
    (a = .used ∧ s'.1.offered = s.1.offered ∧ s'.2 = s.2) ∨
    ∃ now op, a = .other now op ∧ s'.1 = s.1 ∧ s'.2 = op.apply toText store s.2 now := by
  cases hstep with
  | @input app fs writes wall input out h =>
      dsimp only at hstore ⊢
      unfold App.observed
      cases input with
      | key key now os =>
          have hout : out = app.press lower writes fs now os key := (Option.some.inj h).symm
          have hoffered : out.app.offered = app.offered := by
            rw [hout]
            exact App.offered_press writes app fs now os key
          have hfs := congrArg InputOutcome.fs hout
          rw [@App.files_press lower toText store app writes hstore fs now os key wall] at hfs
          dsimp only
          cases hdecision : app.decision (.key key now os) with
          | none =>
              rw [hdecision] at hfs
              exact .inr (.inr (.inl ⟨rfl, hoffered, hfs⟩))
          | some d =>
              rw [hdecision] at hfs
              rcases App.decision_spec hdecision with ⟨hmem, hop⟩
              exact .inl ⟨wall, d.1, d.2, rfl, hmem, hop, hoffered, hfs⟩
      | tab =>
          rw [← Option.some.inj h]
          refine .inr (.inr (.inl ⟨rfl, ?_, rfl⟩))
          dsimp only
          unfold App.pressTab
          split <;> rfl
      | pushEvent ev =>
          rcases Option.map_eq_some_iff.mp h with ⟨pushed, hpush, rfl⟩
          rcases Option.map_eq_some_iff.mp hpush with ⟨kind, _, rfl⟩
          exact .inr (.inr (.inl ⟨rfl, rfl, rfl⟩))
      | maybeRefreshPending interval now wall' =>
          have happ : out.app = app.maybeRefreshPending lower fromStr fs interval now wall' :=
            (congrArg InputOutcome.app (Option.some.inj h)).symm
          have hfs : out.fs = fs := (congrArg InputOutcome.fs (Option.some.inj h)).symm
          rcases app.maybeRefreshPending_cases lower fromStr fs interval now wall' with
            ⟨hnone, last, heq⟩ | ⟨items, hitems, heq⟩
          · refine .inr (.inr (.inl ⟨?_, ?_, hfs⟩))
            · dsimp only
              rw [hnone]
            · rw [happ, heq]
              rfl
          · refine .inr (.inl ⟨items, wall', ?_, ?_, ?_, hfs⟩)
            · dsimp only
              rw [hitems]
            · exact App.listPending_of_readsListing hstore hitems
            · rw [happ, heq, ← hstore]
              rfl
  | other app fs now op => exact .inr (.inr (.inr ⟨now, op, rfl, rfl, rfl⟩))

end Steps

/-! ### Rows -/

theorem Shelves.run_append (sh : Shelves) (ops ops' : List (Nat × StoreOp)) :
    sh.run toText (ops ++ ops') = (sh.run toText ops).run toText ops' :=
  List.foldl_append

section Rows

variable {lower toText fromStr store} {fs : FileTree} {pdir adir : Path}

/-- The ids on the first shelf have no slash. -/
def Shelves.PlainIds (sh : Shelves) : Prop :=
  ∀ id file, sh.pending id = some file → '/' ∉ id.toList

theorem Shelves.PlainIds.run {sh : Shelves} (h : sh.PlainIds) (ops : List (Nat × StoreOp)) :
    (sh.run toText ops).PlainIds := by
  intro id file hfile
  rcases pending_run hfile with hstart | ⟨t, rule, _, hid, _⟩
  · exact h id file hstart
  · rw [hid]
    exact not_mem_makeId t rule.name

theorem plainIds_of_names (hnames : PlainNames fs) : (shelvesOf pdir adir fs.contents).PlainIds := by
  intro id file hfile hslash
  rcases exists_entry_of_contents hfile with ⟨inode, hentry, _⟩
  refine hnames.noSlash hentry ?_
  rw [String.toList_append]
  exact List.mem_append_left _ hslash

/-- A row of a listing shows the proposal that has its id. -/
theorem listed_shows (h : Settled store fs pdir adir)
    (hids : (shelvesOf pdir adir fs.contents).PlainIds) {items : List PendingItem}
    (hlist : store.listPending fromStr fs = .ok items) {item : PendingItem} (hitem : item ∈ items)
    (wall : Nat) : ∃ file, fs.contents (pdir ++ [item.id ++ ".toml"]) = some file ∧
      (App.pendingRow lower fs wall item).Shows lower fromStr file := by
  rcases exists_entry hlist hitem with ⟨path, name, e, hpath, _, hentry, hpending⟩
  rw [← Option.some.inj (h.pending.symm.trans hpath)] at hentry
  rcases id_pendingItem hpending with ⟨hid, hname⟩
  rw [← hid] at hname
  rw [hname] at hentry hpending
  unfold ApprovalStore.pendingItem at hpending
  split at hpending
  · split at hpending
    · cases hpending
    · next inode =>
        have hthere := contents_of_entry hentry
        split at hpending
        · next rule rest hparsed =>
            -- The text of the row is read again, from the file of the item.
            have hat := h.lookup_pendingFile (hids item.id _ hthere)
            have hlookup := (lookup_of_resolve hat).trans hentry
            have hrule : rule = item.rule := congrArg PendingItem.rule (Option.some.inj hpending)
            have hfile : joinPath store.pendingDir (item.id ++ ".toml") = item.path :=
              congrArg PendingItem.path (Option.some.inj hpending)
            unfold ApprovalStore.pendingFile at hlookup
            rw [hfile] at hlookup
            rw [hrule] at hparsed
            refine ⟨_, hthere, ?_, item.rule, rest, hparsed, rfl, rfl, rfl⟩
            unfold App.pendingRow
            dsimp only
            rw [hlookup]
        · cases hpending
  · cases hpending

end Rows

/-! ### Runs -/

section Runs

/-- A row is in the last listing, and has shown a file since then. -/
structure LastShown (fs : FileTree) (pdir : Path) (before : List DeskEvent)
    (rows : List PendingRow) (since : List DeskEvent) (row : PendingRow) (file : FileData) :
    Prop where
  mem : row ∈ rows
  last : ∀ rows', .listed rows' ∉ since
  there : (runStore toText store fs (storeOps before)).contents (pdir ++ [row.id ++ ".toml"])
    = some file
  shows : row.Shows lower fromStr file

/-- What is true at the desk: the files are as the operations left them, and every row is
    from the last listing. -/
structure AtDesk (fs : FileTree) (pdir : Path) (acts : List DeskEvent) (s : App × FileTree) :
    Prop where
  stored : s.1.approvalStore = some store
  files : s.2 = runStore toText store fs (storeOps acts)
  plain : ∀ op ∈ storeOps acts, op.2.Plain
  rows : ∀ row ∈ s.1.pending, ∃ before rows since file, acts = before ++ .listed rows :: since ∧
    LastShown lower toText fromStr store fs pdir before rows since row file

variable {lower toText fromStr store} {fs : FileTree} {pdir adir : Path} {s s' : App × FileTree}
  {acts : List DeskEvent} {a : DeskEvent} {text : String} {now : Int}

theorem LastShown.snoc {before : List DeskEvent} {rows : List PendingRow} {since : List DeskEvent}
    {row : PendingRow} {file : FileData}
    (h : LastShown lower toText fromStr store fs pdir before rows since row file)
    (ha : ∀ rows', a ≠ .listed rows') :
    LastShown lower toText fromStr store fs pdir before rows (since ++ [a]) row file where
  mem := h.mem
  last rows' hmem := by
    rcases List.mem_append.mp hmem with hmem | hmem
    · exact h.last rows' hmem
    · exact ha rows' (List.mem_singleton.mp hmem).symm
  there := h.there
  shows := h.shows

/-- The file that a row shows was on the first shelf. -/
theorem LastShown.onShelf {before : List DeskEvent} {rows : List PendingRow}
    {since : List DeskEvent} {row : PendingRow} {file : FileData}
    (h : LastShown lower toText fromStr store fs pdir before rows since row file)
    (hsettled : Settled store fs pdir adir) (hplain : ∀ op ∈ storeOps before, op.2.Plain) :
    ((shelvesOf pdir adir fs.contents).run toText (storeOps before)).pending row.id
      = some file := by
  rw [← (hsettled.run_shelved toText _ hplain).2]
  exact h.there

/-- A proposal under the id of a row is the one that the row shows, or was staged since. -/
theorem LastShown.shown_or_staged {before : List DeskEvent} {rows : List PendingRow}
    {since : List DeskEvent} {row : PendingRow} {shown file : FileData}
    (h : LastShown lower toText fromStr store fs pdir before rows since row shown)
    (hsettled : Settled store fs pdir adir) (hplain : ∀ op ∈ storeOps before, op.2.Plain)
    (hfile : ((shelvesOf pdir adir fs.contents).run toText
      (storeOps (before ++ .listed rows :: since))).pending row.id = some file) :
    file = shown ∨ ∃ t rule, (t, .stagePending rule) ∈ storeOps since ∧
      row.id = makeId t rule.name ∧ Shelves.staged toText (row.id ++ ".toml") t rule = some file := by
  have hthen := h.onShelf hsettled hplain
  rw [storeOps_append, Shelves.run_append] at hfile
  refine (pending_run hfile).imp_left (fun hsame => ?_)
  rw [hthen] at hsame
  exact (Option.some.inj hsame).symm

theorem AtDesk.plain_before (h : AtDesk lower toText fromStr store fs pdir acts s)
    {before after : List DeskEvent} (hacts : acts = before ++ after) :
    ∀ op ∈ storeOps before, op.2.Plain := by
  intro op hop
  refine h.plain op ?_
  rw [hacts, storeOps_append]
  exact List.mem_append_left _ hop

theorem AtDesk.step (hsettled : Settled store fs pdir adir)
    (hids : (shelvesOf pdir adir fs.contents).PlainIds)
    (h : AtDesk lower toText fromStr store fs pdir acts s)
    (hstep : DeskStep lower toText fromStr store s a s')
    (hother : ∀ t op, a = .other t op → op.Plain) :
    AtDesk lower toText fromStr store fs pdir (acts ++ [a]) s' := by
  -- Rows that stay are from the same listing.
  have hrows : s'.1.pending = s.1.pending → (∀ rows', a ≠ .listed rows') →
      ∀ row ∈ s'.1.pending, ∃ before rows since file, acts ++ [a] = before ++ .listed rows :: since ∧
        LastShown lower toText fromStr store fs pdir before rows since row file := by
    intro hsame ha row hrow
    rw [hsame] at hrow
    rcases h.rows row hrow with ⟨before, rows, since, file, hacts, hshown⟩
    refine ⟨before, rows, since ++ [a], file, ?_, hshown.snoc ha⟩
    rw [hacts, List.append_assoc, List.cons_append]
  -- A step does what its operation does, and adds an operation on a plain id.
  have hops : s'.2 = runStore toText store s.2 a.storeOp.toList →
      (∀ op, a.storeOp = some op → op.2.Plain) →
      s'.2 = runStore toText store fs (storeOps (acts ++ [a])) ∧
        ∀ op ∈ storeOps (acts ++ [a]), op.2.Plain := by
    intro hafter hplain
    rw [storeOps_append, storeOps_singleton, runStore_append, ← h.files]
    refine ⟨hafter, fun op hop => ?_⟩
    rcases List.mem_append.mp hop with hop | hop
    · exact h.plain op hop
    · exact hplain op (Option.mem_toList.mp hop)
  rcases hstep.cases h.stored with
    ⟨t, row, op, rfl, hrow, hop, hoffered, hafter⟩ | ⟨items, wall, rfl, hlist, hoffered, hafter⟩ |
    ⟨rfl, hoffered, hafter⟩ | ⟨t, op, rfl, happ, hafter⟩
  · -- The row that is decided on was listed.
    rcases h.rows row hrow with ⟨before, rows, since, file, hacts, hshown⟩
    have hslash : '/' ∉ row.id.toList :=
      hids.run _ row.id file (hshown.onShelf hsettled (h.plain_before hacts))
    have hplain : op.Plain := by
      rcases hop with rfl | rfl
      · exact hslash
      · exact hslash
    rcases hops hafter (fun op' hop' => Option.some.inj hop' ▸ hplain) with ⟨hfiles, hall⟩
    exact ⟨(congrArg Prod.fst hoffered).trans h.stored, hfiles, hall,
      hrows (congrArg Prod.snd hoffered) (fun _ => DeskEvent.noConfusion)⟩
  · rcases hops hafter (fun op' hop' => by cases hop') with ⟨hfiles, hall⟩
    refine ⟨congrArg Prod.fst hoffered, hfiles, hall, fun row hrow => ?_⟩
    have hpending : s'.1.pending = items.map (App.pendingRow lower s.2 wall) :=
      congrArg Prod.snd hoffered
    rw [hpending] at hrow
    rcases List.mem_map.mp hrow with ⟨item, hitem, heq⟩
    -- The directories are still as the store needs them.
    rcases hsettled.run_shelved toText _ h.plain with ⟨hnow, hshelves⟩
    have hidsnow : (shelvesOf pdir adir s.2.contents).PlainIds := by
      rw [h.files, hshelves]
      exact hids.run (storeOps acts)
    rw [← h.files] at hnow
    rcases listed_shows hnow hidsnow hlist hitem wall with ⟨file, hthere, hshows⟩
    refine ⟨acts, _, [], file, rfl, hrow, fun _ => List.not_mem_nil, ?_, ?_⟩
    · rw [← h.files, ← heq]
      exact hthere
    · rw [← heq]
      exact hshows
  · rcases hops hafter (fun op' hop' => by cases hop') with ⟨hfiles, hall⟩
    exact ⟨(congrArg Prod.fst hoffered).trans h.stored, hfiles, hall,
      hrows (congrArg Prod.snd hoffered) (fun _ => DeskEvent.noConfusion)⟩
  · rcases hops hafter (fun op' hop' => Option.some.inj hop' ▸ hother t op rfl) with ⟨hfiles, hall⟩
    refine ⟨?_, hfiles, hall, hrows ?_ (fun _ => DeskEvent.noConfusion)⟩
    · rw [happ]
      exact h.stored
    · rw [happ]

theorem atDesk_of_run (hsettled : Settled store fs pdir adir) (hnames : PlainNames fs)
    (hrun : Run (DeskStep lower toText fromStr store) (App.withApproval text (some store) now, fs)
      acts s) (hothers : ∀ t op, .other t op ∈ acts → op.Plain) :
    AtDesk lower toText fromStr store fs pdir acts s := by
  induction hrun with
  | nil => exact ⟨rfl, rfl, fun _ => (absurd · List.not_mem_nil), fun _ => (absurd · List.not_mem_nil)⟩
  | snoc _ hst ih =>
      have hbefore := ih (fun t op hmem => hothers t op (List.mem_append_left _ hmem))
      refine hbefore.step hsettled (plainIds_of_names hnames) hst (fun t op ha => ?_)
      rw [ha] at hothers
      exact hothers t op (List.mem_append_right _ List.mem_cons_self)

/-- What is decided on is a row of the last listing. -/
theorem decided_of_run (hsettled : Settled store fs pdir adir) (hnames : PlainNames fs)
    (hrun : Run (DeskStep lower toText fromStr store) (App.withApproval text (some store) now, fs)
      acts s) (hothers : ∀ t op, .other t op ∈ acts → op.Plain) {acts₁ acts₂ : List DeskEvent}
    {t : Nat} {row : PendingRow} {op : StoreOp} (hacts : acts = acts₁ ++ .decided t row op :: acts₂) :
    (op = .approve row.id ∨ op = .reject row.id) ∧
      ∃ before rows since file, acts₁ = before ++ .listed rows :: since ∧
        LastShown lower toText fromStr store fs pdir before rows since row file := by
  rw [hacts, List.append_cons] at hrun
  rcases hrun.split with ⟨u, hfirst, _⟩
  rcases hfirst.of_snoc with ⟨v, hbefore, hst⟩
  have hdesk := atDesk_of_run hsettled hnames hbefore (fun t op hmem => hothers t op (by
    rw [hacts]
    exact List.mem_append_left _ hmem))
  rcases hst.cases hdesk.stored with
    ⟨t', row', op', heq, hrow, hop, _⟩ | ⟨_, _, heq, _⟩ | ⟨heq, _⟩ | ⟨_, _, heq, _⟩
  · cases heq
    exact ⟨hop, hdesk.rows row hrow⟩
  · cases heq
  · cases heq
  · cases heq

theorem exists_event_of_mem {op : Nat × StoreOp} (h : op ∈ storeOps acts) :
    (∃ row, .decided op.1 row op.2 ∈ acts) ∨ .other op.1 op.2 ∈ acts := by
  rcases List.mem_filterMap.mp h with ⟨a, hmem, ha⟩
  cases a with
  | decided t row op' =>
      rw [← Option.some.inj ha]
      exact .inl ⟨row, hmem⟩
  | other t op' =>
      rw [← Option.some.inj ha]
      exact .inr hmem
  | listed rows => cases ha
  | used => cases ha

/-- Staging is no decision. -/
theorem staged_of_mem (hsettled : Settled store fs pdir adir) (hnames : PlainNames fs)
    (hrun : Run (DeskStep lower toText fromStr store) (App.withApproval text (some store) now, fs)
      acts s) (hothers : ∀ t op, .other t op ∈ acts → op.Plain) {t : Nat} {op : StoreOp}
    (hop : ∀ id, op ≠ .approve id ∧ op ≠ .reject id) (acts₁ since acts₂ : List DeskEvent)
    (hacts : acts = acts₁ ++ since ++ acts₂) (h : (t, op) ∈ storeOps since) :
    .other t op ∈ since := by
  rcases exists_event_of_mem h with ⟨row, hmem⟩ | hmem
  · rcases List.append_of_mem hmem with ⟨front, back, hsince⟩
    have hcut : acts = (acts₁ ++ front) ++ .decided t row op :: (back ++ acts₂) := by
      rw [hacts, hsince]
      simp only [List.append_assoc, List.cons_append]
    rcases (decided_of_run hsettled hnames hrun hothers hcut).1 with heq | heq
    · exact absurd heq (hop row.id).1
    · exact absurd heq (hop row.id).2
  · exact hmem

/-- Every run of the desk does to the files what its decisions and the operations of other
    tasks do to the two shelves. An input that decides nothing does nothing to them, and what
    is decided on is a proposal with a plain id. -/
theorem Settled.desk_refines (hsettled : Settled store fs pdir adir) (hnames : PlainNames fs)
    (hrun : Run (DeskStep lower toText fromStr store) (App.withApproval text (some store) now, fs)
      acts s) (hothers : ∀ t op, .other t op ∈ acts → op.Plain) :
    Settled store s.2 pdir adir ∧
      shelvesOf pdir adir s.2.contents
        = (shelvesOf pdir adir fs.contents).run toText (storeOps acts) ∧
      (∀ q, (∀ id, q ≠ pdir ++ [id ++ ".toml"]) → (∀ name, q ≠ adir ++ [name]) →
        s.2.contents q = fs.contents q) ∧
      ∀ t row op, .decided t row op ∈ acts →
        '/' ∉ row.id.toList ∧ (op = .approve row.id ∨ op = .reject row.id) := by
  have hdesk := atDesk_of_run hsettled hnames hrun hothers
  rcases hsettled.run_shelved toText _ hdesk.plain with ⟨hthen, hshelves⟩
  rw [hdesk.files]
  refine ⟨hthen, hshelves, fun q hq hq' => hsettled.kept_run toText _ hdesk.plain hq hq',
    fun t row op hmem => ?_⟩
  rcases List.append_of_mem hmem with ⟨acts₁, acts₂, hacts⟩
  rcases decided_of_run hsettled hnames hrun hothers hacts with
    ⟨hop, before, rows, since, file, hbefore, hshown⟩
  rw [hbefore, List.append_assoc] at hacts
  have hshelf := hshown.onShelf hsettled (hdesk.plain_before hacts)
  exact ⟨(plainIds_of_names hnames).run _ row.id file hshelf, hop⟩

/-- When no rule is staged automatically, a file in the rules directory was there before the
    run, or another task approved it, or the reviewer did, for a row of the last listing.
    This file is the one that the row showed, or one that was staged under its id since. -/
theorem Settled.approved_as_shown (hsettled : Settled store fs pdir adir) (hnames : PlainNames fs)
    (hrun : Run (DeskStep lower toText fromStr store) (App.withApproval text (some store) now, fs)
      acts s)
    (hothers : ∀ t op, .other t op ∈ acts → op.Plain ∧ ∀ rule, op ≠ .stageAuto rule)
    (name : String) (file : FileData) (hheld : s.2.contents (adir ++ [name]) = some file) :
    fs.contents (adir ++ [name]) = some file ∨
      (∃ t id, .other t (.approve id) ∈ acts ∧ name = ruleFileName id) ∨
      ∃ before rows since t row after shown,
        acts = before ++ .listed rows :: since ++ .decided t row (.approve row.id) :: after ∧
        name = ruleFileName row.id ∧
        LastShown lower toText fromStr store fs pdir before rows since row shown ∧
        (file = shown ∨ ∃ t' rule, .other t' (.stagePending rule) ∈ since ∧
          row.id = makeId t' rule.name ∧
          Shelves.staged toText (row.id ++ ".toml") t' rule = some file) := by
  have hplain : ∀ t op, .other t op ∈ acts → op.Plain := fun t op hmem => (hothers t op hmem).1
  have hdesk := atDesk_of_run hsettled hnames hrun hplain
  have hmanual : ∀ op ∈ storeOps acts, ∀ rule, op.2 ≠ .stageAuto rule := by
    intro op hop rule heq
    have hmem : .other op.1 op.2 ∈ acts := by
      refine staged_of_mem hsettled hnames hrun hplain (fun id => ?_) [] acts [] ?_ hop
      · rw [heq]
        exact ⟨StoreOp.noConfusion, StoreOp.noConfusion⟩
      · rw [List.nil_append, List.append_nil]
    exact (hothers op.1 op.2 hmem).2 rule heq
  -- On the shelves, the file was there or was approved.
  have hshelf : ((shelvesOf pdir adir fs.contents).run toText (storeOps acts)).rules name
      = some file := by
    rw [← (hsettled.run_shelved toText _ hdesk.plain).2, ← hdesk.files]
    exact hheld
  rcases rules_run hmanual hshelf with hstart | ⟨ops, t, id, ops', hops, hname, happroved⟩
  · exact .inl hstart
  right
  rcases exists_event hops with ⟨acts₁, a, after, hcut, hfirst, ha⟩
  cases a with
  | listed rows => cases ha
  | used => cases ha
  | other t' op =>
      cases ha
      refine .inl ⟨t, id, ?_, hname⟩
      rw [hcut]
      exact List.mem_append_right _ List.mem_cons_self
  | decided t' row op =>
      cases ha
      rcases decided_of_run hsettled hnames hrun hplain hcut with
        ⟨hop, before, rows, since, shown, hbefore, hshown⟩
      rcases hop with hop | hop
      · cases hop
        rw [hbefore] at hcut hfirst
        refine .inr ⟨before, rows, since, t, row, after, shown, hcut, hname, hshown, ?_⟩
        rw [← hfirst] at happroved
        have hacts := hcut
        rw [List.append_assoc] at hacts
        rcases hshown.shown_or_staged hsettled (hdesk.plain_before hacts) happroved with
          hsame | ⟨t', rule, hmem, hid, hstaged⟩
        · exact .inl hsame
        · -- Nobody stages at the desk itself.
          refine .inr ⟨t', rule, ?_, hid, hstaged⟩
          refine staged_of_mem hsettled hnames hrun hplain
            (fun _ => ⟨StoreOp.noConfusion, StoreOp.noConfusion⟩) (before ++ [.listed rows]) since
            (.decided t row (.approve row.id) :: after) ?_ hmem
          rw [hcut, List.append_cons before]
      · cases hop

end Runs

/-! ### A review -/

/-- A rule is staged, and nothing else is there. -/
def deskStaged : FileTree :=
  (exampleStore.stagePending writeTwo bothDirs 1 (Rule.bare "a-b" .alert)).1

theorem listPending_deskStaged :
    ∃ item, exampleStore.listPending parseTwo deskStaged = .ok [item] ∧ item.id = "1-a-b" := by
  have hpath : deskStaged.resolve exampleStore.pendingDir = some ["pending"] := by decide +kernel
  have hentries : deskStaged.readDir ["pending"] = some [("1-a-b.toml", .file 0)] := by
    decide +kernel
  have hid : (exampleStore.pendingItem parseTwo deskStaged "1-a-b.toml" (.file 0)).map
      PendingItem.id = some "1-a-b" := by decide +kernel
  rcases Option.map_eq_some_iff.mp hid with ⟨item, hitem, hid⟩
  refine ⟨item, ?_, hid⟩
  rw [listPending_of_readDir hpath (by decide +kernel) hentries]
  simp [hitem]

theorem DeskStep.input_of {lower : Lowercase} {toText : RuleSet → Option String}
    {fromStr : String → Option RuleSet} {store : ApprovalStore} {app : App} {fs : FileTree}
    (wall : Nat) (input : TuiInput) (app' : App) (fs' : FileTree) (a : DeskEvent)
    {calls : List DiskCall}
    (h : app.handle lower fromStr true fs input = some ⟨app', fs', calls⟩)
    (ha : app.observed lower fromStr fs wall input = a) :
    DeskStep lower toText fromStr store (app, fs) a (app', fs') :=
  ha ▸ .input true wall input h

def freshApp : App := App.withApproval "" (some exampleStore) 0

/-- The advisor stages a rule, the dashboard lists it, and the reviewer approves it. -/
theorem exists_run_reviewed :
    ∃ acts s, Run (DeskStep App.asIs writeTwo parseTwo exampleStore) (freshApp, bothDirs) acts s ∧
      (∀ t op, .other t op ∈ acts → op.Plain ∧ ∀ rule, op ≠ .stageAuto rule) ∧
      (∃ t row, .decided t row (.approve row.id) ∈ acts) ∧
      s.2.contents (["rules"] ++ [ruleFileName "1-a-b"])
        = some ⟨ruleHeader ++ bareText "a-b" "alert", 1⟩ := by
  rcases listPending_deskStaged with ⟨item, hlist, hid⟩
  have hreads : freshApp.readsListing parseTwo deskStaged 0 0 = some [item] :=
    congrArg Except.toOption hlist
  let row := App.pendingRow App.asIs deskStaged 2 item
  let app₁ := { freshApp with pendingLastRefresh := 0, pending := [row] }
  have hrefresh : freshApp.maybeRefreshPending App.asIs parseTwo deskStaged 0 0 2 = app₁ := by
    rcases freshApp.maybeRefreshPending_cases App.asIs parseTwo deskStaged 0 0 2 with
      ⟨hnone, _⟩ | ⟨items, hitems, heq⟩
    · rw [hreads] at hnone
      cases hnone
    · rw [hreads] at hitems
      cases hitems
      exact heq
  have hlisted : freshApp.observed App.asIs parseTwo deskStaged 2 (.maybeRefreshPending 0 0 2)
      = .listed [row] := by
    unfold App.observed
    dsimp only
    rw [hreads]
    rfl
  have hrun : Run (DeskStep App.asIs writeTwo parseTwo exampleStore) (freshApp, bothDirs) [] _ :=
    .nil
  have hrun := hrun.snoc (.other freshApp bothDirs 1 (.stagePending (Rule.bare "a-b" .alert)))
  have hrun := hrun.snoc (DeskStep.input_of 2 (.maybeRefreshPending 0 0 2) app₁ deskStaged _
    (congrArg (fun app => some (InputOutcome.mk app deskStaged [])) hrefresh) hlisted)
  have hrun := hrun.snoc (DeskStep.input_of 3 (.key (.char '6') 0 "")
    { app₁ with activeTab := .pending } deskStaged .used rfl rfl)
  have hrun := hrun.snoc (DeskStep.input_of 4 (.key (.char 'a') 0 "") _ _
    (.decided 4 row (.approve row.id)) rfl rfl)
  refine ⟨_, _, hrun, fun t op hmem => ?_, ⟨4, row, by simp⟩, ?_⟩
  · -- The advisor is the only other task.
    simp only [List.nil_append, List.cons_append, List.mem_cons, DeskEvent.other.injEq,
      List.not_mem_nil, or_false, reduceCtorEq] at hmem
    rw [hmem.2]
    exact ⟨trivial, fun _ => StoreOp.noConfusion⟩
  · have hrow : row.id = "1-a-b" := hid
    have happroved : (exampleStore.approve deskStaged row.id).1.contents
        (["rules"] ++ [ruleFileName "1-a-b"]) = some ⟨ruleHeader ++ bareText "a-b" "alert", 1⟩ := by
      rw [hrow]
      decide +kernel
    exact happroved

theorem plainNames_bothDirs : PlainNames bothDirs := by decide +kernel

/-- What is done at the desk is done to the shelves. -/
theorem reviewed_refines :
    ∃ acts s, Run (DeskStep App.asIs writeTwo parseTwo exampleStore) (freshApp, bothDirs) acts s ∧
      (∃ t row, .decided t row (.approve row.id) ∈ acts) ∧
      Settled exampleStore s.2 ["pending"] ["rules"] ∧
      shelvesOf ["pending"] ["rules"] s.2.contents
        = (shelvesOf ["pending"] ["rules"] bothDirs.contents).run writeTwo (storeOps acts) ∧
      (∀ q, (∀ id, q ≠ ["pending"] ++ [id ++ ".toml"]) → (∀ name, q ≠ ["rules"] ++ [name]) →
        s.2.contents q = bothDirs.contents q) ∧
      ∀ t row op, .decided t row op ∈ acts →
        '/' ∉ row.id.toList ∧ (op = .approve row.id ∨ op = .reject row.id) := by
  rcases exists_run_reviewed with ⟨acts, s, hrun, hothers, hdecided, _⟩
  exact ⟨acts, s, hrun, hdecided, settled_bothDirs.desk_refines plainNames_bothDirs hrun
    (fun t op hmem => (hothers t op hmem).1)⟩

/-- The rule that was approved is the one that the row showed, or was staged since. -/
theorem reviewed_as_shown :
    ∃ acts s, Run (DeskStep App.asIs writeTwo parseTwo exampleStore) (freshApp, bothDirs) acts s ∧
      (bothDirs.contents (["rules"] ++ [ruleFileName "1-a-b"])
          = some ⟨ruleHeader ++ bareText "a-b" "alert", 1⟩ ∨
      (∃ t id, .other t (.approve id) ∈ acts ∧ ruleFileName "1-a-b" = ruleFileName id) ∨
      ∃ before rows since t row after shown,
        acts = before ++ .listed rows :: since ++ .decided t row (.approve row.id) :: after ∧
        ruleFileName "1-a-b" = ruleFileName row.id ∧
        LastShown App.asIs writeTwo parseTwo exampleStore bothDirs ["pending"] before rows since row
          shown ∧
        (⟨ruleHeader ++ bareText "a-b" "alert", 1⟩ = shown ∨
          ∃ t' rule, .other t' (.stagePending rule) ∈ since ∧ row.id = makeId t' rule.name ∧
            Shelves.staged writeTwo (row.id ++ ".toml") t' rule
              = some ⟨ruleHeader ++ bareText "a-b" "alert", 1⟩)) := by
  rcases exists_run_reviewed with ⟨acts, s, hrun, hothers, _, hheld⟩
  exact ⟨acts, s, hrun, settled_bothDirs.approved_as_shown plainNames_bothDirs hrun hothers _ _ hheld⟩

end VectorGuard
