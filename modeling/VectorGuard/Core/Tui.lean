import Mathlib.Data.List.Sort
import VectorGuard.Core.Approval
import VectorGuard.Core.ConfigEditor
import VectorGuard.Core.Incident
import VectorGuard.Lib.DepthFirst

/-!
# Terminal Interface

The state behind the terminal interface (`tui/app.rs`) and what changes it:
events as they arrive, cursor movements, filters, the proposals that wait for a
review, and the keys while a filter is typed (`tui/event.rs`).

A list is shown through a filter and its cursor is an index of what is shown. The
process tree is listed depth first from the processes whose parent is unknown.

Pushing an event shortens a long description by bytes, and a cut inside of a
character is a panic: none. Instants and durations are nanoseconds. The
counters of events, which are `u64`, are natural numbers, and so are theirs until 2^64
events have come. `Lowercase` is the Unicode lower case, of which only the empty string
matters; texts are searched for after it was applied to both.

## Main definitions

* `EventRow`, `IncidentRow`, `ProcessNode`, `PendingRow`: What the tabs list.
* `App`: The state.
* `App.filteredEvents`, `filteredIncidents`, `processTreeRows`: What is shown.
* `App.pushEvent`, `maybeRefreshPending`, `press`: What changes it.
* `DiskCall`, `InputOutcome`: The calls of an input that change rules or configuration on
  disk, and what comes of it.
* `TuiInput`, `App.handle`: What happens to the interface.
-/

namespace VectorGuard

open FileTree

/-- `str::to_lowercase`. -/
structure Lowercase where
  toLowercase : String → String
  empty : toLowercase "" = ""

inductive AppState
  | running
  | quit
  deriving DecidableEq, Repr

inductive Tab
  | dashboard
  | events
  | incidents
  | config
  | processTree
  | pending
  deriving DecidableEq, Repr

namespace Tab

/-- `Tab::titles`. -/
def titles : List String :=
  ["Dashboard", "Events", "Incidents", "Config", "Process Tree", "AI Pending"]

/-- `Tab::index`. -/
def index : Tab → Nat
  | .dashboard => 0
  | .events => 1
  | .incidents => 2
  | .config => 3
  | .processTree => 4
  | .pending => 5

/-- `Tab::from_index`. -/
def fromIndex : Nat → Tab
  | 1 => .events
  | 2 => .incidents
  | 3 => .config
  | 4 => .processTree
  | 5 => .pending
  | _ => .dashboard

end Tab

inductive IncidentFilter
  | all
  | blocked
  | alerted
  deriving DecidableEq, Repr

inductive InputMode
  | normal
  | filtering
  deriving DecidableEq, Repr

structure PendingRow where
  id : String
  name : String
  action : String
  description : String
  ageSecs : Nat
  /-- The text of the file, for the detail popup. -/
  tomlBody : String
  deriving DecidableEq, Repr

/-- The counters, each below 2^64. -/
structure Stats where
  totalEvents : Nat
  blocked : Nat
  alerts : Nat
  highSeverity : Nat
  deriving DecidableEq, Repr

structure EventRow where
  timestamp : String
  pid : UInt32
  ppid : UInt32
  uid : UInt32
  process : String
  kind : String
  severity : Severity
  action : String
  fullKind : String
  deriving DecidableEq, Repr

structure IncidentRow where
  timestamp : String
  pid : UInt32
  ppid : UInt32
  uid : UInt32
  process : String
  kind : String
  fullKind : String
  severity : Severity
  action : String
  rule : String
  deriving DecidableEq, Repr

structure ProcessNode where
  pid : UInt32
  ppid : UInt32
  name : String
  uid : UInt32
  eventCount : Nat
  lastAction : String
  lastSeen : String
  deriving DecidableEq, Repr

abbrev ProcessMap := AList (fun _ : UInt32 => ProcessNode)

structure App where
  state : AppState
  activeTab : Tab
  stats : Stats
  events : List EventRow
  eventScroll : Nat
  selectedEvent : Option Nat
  inputMode : InputMode
  filterInput : String
  filterQuery : String
  incidents : List IncidentRow
  incidentScroll : Nat
  incidentFilter : IncidentFilter
  selectedIncident : Option Nat
  processMap : ProcessMap
  procScroll : Nat
  config : ConfigEditor
  approvalStore : Option ApprovalStore
  pending : List PendingRow
  pendingScroll : Nat
  selectedPending : Option Nat
  pendingLastRefresh : Int
  /-- What to show about the last review, and until when. -/
  pendingToast : Option (String × Int)

/-- A call that changes the rules or the configuration on disk. -/
inductive DiskCall
  | approve (id : String)
  | reject (id : String)
  | saveConfig
  deriving DecidableEq, Repr

/-- What comes of an input: the interface and the files, and the calls on the way that
    change rules or configuration on disk. -/
structure InputOutcome where
  app : App
  fs : FileTree
  calls : List DiskCall

/-- What happens to the interface: a key, the tab key, an event, a refresh. -/
inductive TuiInput
  | key (key : Key) (now : Int) (os : String)
  | tab
  | pushEvent (ev : NormalizedEvent)
  | maybeRefreshPending (interval now : Int) (wall : Nat)

/-- An hour, which is longer than any interval between refreshes. -/
def anHour : Int := 3600000000000

/-- How long a toast is shown. -/
def toastTime : Int := 3000000000

/-- How many rows the events and the incidents tab keep. -/
def maxRows : Nat := 500

/-- `&s[..n]`, none when the cut is not between two characters. -/
def sliceTo (s : String) (n : Nat) : Option String := fromUtf8 ((bytes s).take n)

/-- `format_ts`. -/
def formatTs (ns : UInt64) : String :=
  let secs := ns.toNat / 1000000000
  let ms := toString (ns.toNat % 1000000000 / 1000000)
  toString secs ++ "." ++ String.ofList (List.replicate (3 - ms.length) '0') ++ ms

/-- The description of an event in full. -/
def EventType.fullKind : EventType → String
  | .exec => "Exec"
  | .fileAccess path _ => "File:" ++ path
  | .network _ _ port _ => "Net:" ++ toString port
  | .privilege syscall _ => "Priv:" ++ syscall
  | .signal signum _ => "Sig:" ++ toString signum

/-- The description for a table, cut off behind 39 bytes when it is long. -/
def shortKind (fullKind : String) : Option String :=
  if (bytes fullKind).length > 40 then (sliceTo fullKind 39).map (fun s => s ++ "…")
  else some fullKind

/-- Put a row behind the others, and drop the oldest of too many. -/
def pushRow {α : Type} (rows : List α) (row : α) : List α :=
  let rows := rows ++ [row]
  if rows.length > maxRows then rows.drop 1 else rows

theorem pushRow_of_lt {α : Type} {rows : List α} (row : α) (hroom : rows.length < maxRows) :
    pushRow rows row = rows ++ [row] := by
  have hlength : (rows ++ [row]).length ≤ maxRows := by
    rw [List.length_append, List.length_singleton]
    exact hroom
  exact if_neg (Nat.not_lt_of_le hlength)

theorem pushRow_of_le {α : Type} {first : α} {rest : List α} (row : α)
    (hfull : maxRows ≤ (first :: rest).length) : pushRow (first :: rest) row = rest ++ [row] := by
  have hlength : maxRows < (first :: rest ++ [row]).length := by
    rw [List.length_append, List.length_singleton]
    exact Nat.lt_succ_of_le hfull
  exact if_pos hlength

/-- `Debug` for a rule action. -/
def RuleAction.debug : RuleAction → String
  | .block => "Block"
  | .alert => "Alert"
  | .log => "Log"
  | .allow => "Allow"

namespace App

/-- `App::with_approval`, at an instant. -/
def withApproval (configText : String) (approvalStore : Option ApprovalStore) (now : Int) : App where
  state := .running
  activeTab := .dashboard
  stats := ⟨0, 0, 0, 0⟩
  events := []
  eventScroll := 0
  selectedEvent := none
  inputMode := .normal
  filterInput := ""
  filterQuery := ""
  incidents := []
  incidentScroll := 0
  incidentFilter := .all
  selectedIncident := none
  processMap := ∅
  procScroll := 0
  config := ConfigEditor.new configText
  approvalStore := approvalStore
  pending := []
  pendingScroll := 0
  selectedPending := none
  -- The first refresh is due at once.
  pendingLastRefresh := now - anHour
  pendingToast := none

section Shown

variable (lower : Lowercase) (app : App)

/-- An incident is shown under a filter. -/
def showsIncident (filter : IncidentFilter) (i : IncidentRow) : Bool :=
  match filter with
  | .all => true
  | .blocked => containsStr i.action "Block" || containsStr i.action "Kill"
  | .alerted => containsStr i.action "Alert"

/-- `App::filtered_incidents`. -/
def filteredIncidents : List IncidentRow :=
  app.incidents.filter (showsIncident app.incidentFilter)

/-- An event is shown for a query. -/
def showsEvent (query : String) (e : EventRow) : Bool :=
  let q := lower.toLowercase query
  q.isEmpty || containsStr (lower.toLowercase e.process) q ||
    containsStr (lower.toLowercase e.kind) q || containsStr (lower.toLowercase e.action) q ||
    containsStr (lower.toLowercase e.fullKind) q

/-- `App::filtered_events`. -/
def filteredEvents : List EventRow :=
  app.events.filter (showsEvent lower app.filterQuery)

/-- The processes of a map. -/
def values (map : ProcessMap) : List ProcessNode := map.entries.map Sigma.snd

/-- The children of a process, in order. -/
def childrenOf (map : ProcessMap) (pid : UInt32) : List UInt32 :=
  (((values map).filter (fun n => n.ppid == pid && n.pid != pid)).map ProcessNode.pid).insertionSort
    (fun a b => a ≤ b)

/-- The processes without a parent in the map, in order. -/
def rootsOf (map : ProcessMap) : List UInt32 :=
  (((values map).filter (fun n => n.ppid == 0 || (map.lookup n.ppid).isNone)).map
    ProcessNode.pid).insertionSort (fun a b => a ≤ b)

/-- The processes of the tree with their depths. There is fuel for every process. -/
def treeOrder (map : ProcessMap) : Option (List (Nat × UInt32)) :=
  DepthFirst.listing (childrenOf map) (map.keys.length + 1) (rootsOf map)

/-- `App::process_tree_rows`. -/
def processTreeRows : List (Nat × ProcessNode) :=
  ((treeOrder app.processMap).getD []).filterMap (fun row =>
    (app.processMap.lookup row.2).map (fun n => (row.1, n)))

end Shown

/-! ### Cursors -/

/-- `App::next_tab`. -/
def nextTab (app : App) : App :=
  { app with activeTab := Tab.fromIndex ((app.activeTab.index + 1) % Tab.titles.length) }

/-- `App::scroll_up`. -/
def scrollUp (app : App) : App :=
  match app.activeTab with
  | .processTree => { app with procScroll := app.procScroll - 1 }
  | .incidents => { app with incidentScroll := app.incidentScroll - 1 }
  | .config => { app with config := app.config.scrollConfigUp }
  | .pending => { app with pendingScroll := app.pendingScroll - 1 }
  | _ => { app with eventScroll := app.eventScroll - 1 }

/-- `App::scroll_down`. -/
def scrollDown (lower : Lowercase) (app : App) : App :=
  match app.activeTab with
  | .processTree =>
    -- The bound is the number of processes, of which the tree may show fewer.
    if app.procScroll + 1 < app.processMap.keys.length then
      { app with procScroll := app.procScroll + 1 }
    else app
  | .incidents =>
    if app.incidentScroll + 1 < app.filteredIncidents.length then
      { app with incidentScroll := app.incidentScroll + 1 }
    else app
  | .config => { app with config := app.config.scrollConfigDown }
  | .pending =>
    if app.pendingScroll + 1 < app.pending.length then
      { app with pendingScroll := app.pendingScroll + 1 }
    else app
  | _ =>
    if app.eventScroll + 1 < (app.filteredEvents lower).length then
      { app with eventScroll := app.eventScroll + 1 }
    else app

/-- `App::open_detail`. -/
def openDetail (lower : Lowercase) (app : App) : App :=
  match app.activeTab with
  | .incidents =>
    if app.filteredIncidents.length > 0 then
      { app with selectedIncident := some app.incidentScroll }
    else app
  | .pending =>
    if app.pending.isEmpty then app else { app with selectedPending := some app.pendingScroll }
  | _ =>
    if (app.filteredEvents lower).length > 0 then
      { app with selectedEvent := some app.eventScroll }
    else app

/-- `App::close_detail`. -/
def closeDetail (app : App) : App :=
  { app with selectedEvent := none, selectedIncident := none, selectedPending := none }

/-! ### Filters -/

/-- `App::cycle_incident_filter`. -/
def cycleIncidentFilter (app : App) : App :=
  { app with
    incidentFilter := match app.incidentFilter with
      | .all => .blocked
      | .blocked => .alerted
      | .alerted => .all
    incidentScroll := 0 }

/-- What `/` does on the events tab. -/
def startFilter (app : App) : App := { app with inputMode := .filtering, filterInput := "" }

/-- A key in `EventHandler::handle` while a filter is typed. -/
def pressFiltering (app : App) : Key → App
  | .esc => { app with filterInput := "", filterQuery := "", inputMode := .normal }
  | .enter => { app with filterQuery := app.filterInput, inputMode := .normal, eventScroll := 0 }
  | .char c => { app with filterInput := app.filterInput.push c }
  | .backspace => { app with filterInput := ConfigEditor.popChar app.filterInput }
  | _ => app

/-! ### Proposals -/

/-- The row of a proposal. A file that is gone has an empty text. -/
def pendingRow (lower : Lowercase) (fs : FileTree) (wall : Nat) (item : PendingItem) : PendingRow where
  id := item.id
  name := item.rule.name
  action := lower.toLowercase item.rule.action.debug
  description := item.rule.description.getD ""
  ageSecs := (wall - item.createdAt) / 1000000000
  tomlBody := match fs.lookup item.path with
    | some (.file inode) => (fs.data inode).content
    | _ => ""

/-- `App::maybe_refresh_pending`, at an instant and a time of the wall clock. -/
def maybeRefreshPending (lower : Lowercase) (fromStr : String → Option RuleSet) (app : App)
    (fs : FileTree) (interval now : Int) (wall : Nat) : App :=
  match app.approvalStore with
  | none => app
  | some store =>
    if now - app.pendingLastRefresh < interval then app
    else
      let app := { app with pendingLastRefresh := now }
      match store.listPending fromStr fs with
      | .error _ => app
      | .ok items =>
        let app := { app with pending := items.map (pendingRow lower fs wall) }
        -- Keep the cursor valid if items vanished.
        if app.pendingScroll ≥ app.pending.length then
          { app with pendingScroll := app.pending.length - 1 }
        else app

/-- The listing that a refresh shows: none when it is not due, or fails. -/
def readsListing (fromStr : String → Option RuleSet) (app : App) (fs : FileTree)
    (interval now : Int) : Option (List PendingItem) :=
  app.approvalStore.bind (fun store =>
    if now - app.pendingLastRefresh < interval then none
    else (store.listPending fromStr fs).toOption)

/-- What a refresh does. -/
theorem maybeRefreshPending_cases (lower : Lowercase) (fromStr : String → Option RuleSet)
    (app : App) (fs : FileTree) (interval now : Int) (wall : Nat) :
    (app.readsListing fromStr fs interval now = none ∧
      ∃ last, app.maybeRefreshPending lower fromStr fs interval now wall =
        { app with pendingLastRefresh := last }) ∨
    ∃ items, app.readsListing fromStr fs interval now = some items ∧
      app.maybeRefreshPending lower fromStr fs interval now wall =
        { app with
          pendingLastRefresh := now
          pending := items.map (pendingRow lower fs wall)
          pendingScroll := min app.pendingScroll (items.length - 1) } := by
  unfold maybeRefreshPending readsListing
  rcases app
  rename_i store _ _ _ last _
  cases store with
  | none => exact .inl ⟨rfl, last, rfl⟩
  | some store =>
      dsimp only [Option.bind_some]
      split
      · exact .inl ⟨rfl, last, rfl⟩
      · cases store.listPending fromStr fs with
        | error _ => exact .inl ⟨rfl, now, rfl⟩
        | ok items =>
            refine .inr ⟨items, rfl, ?_⟩
            dsimp only
            rw [List.length_map]
            split
            · next hover => rw [Nat.min_eq_right (by omega)]
            · next hvalid => rw [Nat.min_eq_left (by omega)]

/-- What `pending_accept_current` and `pending_reject_current` have in common: the
    proposal at the cursor is reviewed, and the next refresh is due at once. `os` is
    the operating system's text of an error that has none of its own. -/
def review {α : Type} (act : ApprovalStore → FileTree → String → FileTree × Except (Option String) α)
    (call : String → DiskCall) (done failed : String) (app : App) (fs : FileTree) (now : Int)
    (os : String) : InputOutcome :=
  match app.approvalStore, app.pending[app.pendingScroll]? with
  | some store, some item =>
    let (fs, result) := act store fs item.id
    let toast := match result with
      | .ok _ => done ++ item.name
      | .error e => failed ++ e.getD os
    let app := { app with
      pendingToast := some (toast, now + toastTime)
      pendingLastRefresh := now - anHour }
    { app, fs, calls := [call item.id] }
  | _, _ => { app, fs, calls := [] }

/-- A review shows what came of it and asks for a refresh, with a proposal at the cursor. -/
theorem review_cases {α : Type}
    (act : ApprovalStore → FileTree → String → FileTree × Except (Option String) α)
    (call : String → DiskCall) (done failed : String) (app : App) (fs : FileTree) (now : Int)
    (os : String) :
    (review act call done failed app fs now os).app = app ∨
    ∃ toast, (review act call done failed app fs now os).app =
      { app with
        pendingToast := some (toast, now + toastTime)
        pendingLastRefresh := now - anHour } := by
  unfold review
  cases app.approvalStore with
  | none => exact .inl rfl
  | some store =>
      cases app.pending[app.pendingScroll]? with
      | none => exact .inl rfl
      | some item => exact .inr ⟨_, rfl⟩

/-- `App::pending_accept_current`. -/
def pendingAcceptCurrent : App → FileTree → Int → String → InputOutcome :=
  review ApprovalStore.approve .approve "approved " "approve error: "

/-- `App::pending_reject_current`. -/
def pendingRejectCurrent : App → FileTree → Int → String → InputOutcome :=
  review ApprovalStore.reject .reject "rejected " "reject error: "

/-- `App::save_config`. A file that cannot be written stays as it is. -/
def saveConfig (writes : Bool) (app : App) (fs : FileTree) : InputOutcome where
  app := if writes then { app with config := app.config.saveConfig } else app
  fs := fs
  calls := [.saveConfig]

/-- `App::current_toast`. -/
def currentToast (app : App) (now : Int) : Option String :=
  match app.pendingToast with
  | some (msg, until_) => if now < until_ then some msg else none
  | none => none

/-! ### Keys -/

/-- `App::is_detail_open`. -/
def isDetailOpen (app : App) : Bool :=
  app.selectedEvent.isSome || app.selectedIncident.isSome || app.selectedPending.isSome

/-- A key while a detail popup is open. -/
def pressDetail (app : App) : Key → App
  | .esc | .enter | .char 'q' => app.closeDetail
  | _ => app

/-- A key that changes nothing on disk, without a mode. -/
def pressNormal (lower : Lowercase) (app : App) : Key → App
  | .esc | .char 'q' | .char 'Q' => { app with state := .quit }
  | .char '1' => { app with activeTab := .dashboard }
  | .char '2' => { app with activeTab := .events }
  | .char '3' => { app with activeTab := .incidents }
  | .char '4' => { app with activeTab := .config }
  | .char '5' => { app with activeTab := .processTree }
  | .char '6' => { app with activeTab := .pending }
  | .up | .char 'k' => app.scrollUp
  | .down | .char 'j' => app.scrollDown lower
  | .enter =>
    match app.activeTab with
    | .events | .incidents | .pending => app.openDetail lower
    | .config => { app with config := app.config.startConfigEdit }
    | _ => app
  | .char 'e' =>
    if app.activeTab = .config then { app with config := app.config.startConfigEdit } else app
  | .char 'v' => if app.activeTab = .pending then app.openDetail lower else app
  | .char 'f' => if app.activeTab = .incidents then app.cycleIncidentFilter else app
  | .char '/' => if app.activeTab = .events then app.startFilter else app
  | _ => app

/-- A key in `EventHandler::handle`, other than the tab key. The flag is whether a
    configuration that is saved can be written. -/
def press (lower : Lowercase) (writes : Bool) (app : App) (fs : FileTree) (now : Int) (os : String)
    (key : Key) : InputOutcome :=
  let quiet (app : App) : InputOutcome := { app, fs, calls := [] }
  if app.isDetailOpen then quiet (app.pressDetail key)
  else if app.config.editing then quiet { app with config := app.config.pressEditing key }
  else if app.inputMode = .filtering then quiet (app.pressFiltering key)
  else if key = .char 's' && app.activeTab = .config then app.saveConfig writes fs
  else if key = .char 'a' && app.activeTab = .pending then app.pendingAcceptCurrent fs now os
  else if key = .char 'r' && app.activeTab = .pending then app.pendingRejectCurrent fs now os
  else quiet (app.pressNormal lower key)

/-- The tab key in `EventHandler::handle`. -/
def pressTab (app : App) : App :=
  if app.isDetailOpen || app.config.editing || app.inputMode = .filtering then app else app.nextTab

/-! ### Events -/

/-- The row of an event on the events tab. -/
def eventRow (ev : NormalizedEvent) (kind : String) : EventRow where
  timestamp := formatTs ev.timestamp
  pid := ev.process.pid
  ppid := ev.process.ppid
  uid := ev.process.uid
  process := ev.process.binary
  kind := kind
  severity := ev.severity
  action := ev.action.debug
  fullKind := ev.eventType.fullKind

/-- The row of an event on the incidents tab. -/
def incidentRow (ev : NormalizedEvent) (kind : String) : IncidentRow where
  timestamp := formatTs ev.timestamp
  pid := ev.process.pid
  ppid := ev.process.ppid
  uid := ev.process.uid
  process := ev.process.binary
  kind := kind
  fullKind := ev.eventType.fullKind
  severity := ev.severity
  action := ev.action.debug
  rule := ev.ruleName.getD ""

/-- Count an event. -/
def countEvent (stats : Stats) (ev : NormalizedEvent) : Stats :=
  let stats := { stats with totalEvents := stats.totalEvents + 1 }
  let stats := match ev.severity with
    | .high | .critical => { stats with highSeverity := stats.highSeverity + 1 }
    | _ => stats
  match ev.action with
  | .blocked | .killed => { stats with blocked := stats.blocked + 1 }
  | .alerted => { stats with alerts := stats.alerts + 1 }
  | _ => stats

theorem totalEvents_countEvent (stats : Stats) (ev : NormalizedEvent) :
    (countEvent stats ev).totalEvents = stats.totalEvents + 1 := by
  unfold countEvent
  cases ev.severity <;> cases ev.action <;> rfl

/-- The incidents are the events that are counted as blocked or as alerts. -/
theorem incidents_countEvent (stats : Stats) (ev : NormalizedEvent) :
    (countEvent stats ev).blocked + (countEvent stats ev).alerts =
      stats.blocked + stats.alerts + (if isIncident ev.action then 1 else 0) := by
  unfold countEvent
  cases ev.severity <;> cases ev.action <;>
    simp only [isIncident] <;> simp <;> omega

/-- The process of an event, as it is first seen. -/
def newNode (ev : NormalizedEvent) : ProcessNode where
  pid := ev.process.pid
  ppid := ev.process.ppid
  name := ev.process.binary
  uid := ev.process.uid
  eventCount := 0
  lastAction := ""
  lastSeen := ""

/-- Note an event with its process. A process that is known keeps its parent. -/
def noteProcess (map : ProcessMap) (ev : NormalizedEvent) : ProcessMap :=
  let entry := (map.lookup ev.process.pid).getD (newNode ev)
  map.insert ev.process.pid { entry with
    eventCount := entry.eventCount + 1
    lastAction := ev.action.debug
    lastSeen := formatTs ev.timestamp }

/-- `App::push_event`, none when it panics. -/
def pushEvent (app : App) (ev : NormalizedEvent) : Option App :=
  (shortKind ev.eventType.fullKind).map (fun kind => { app with
    stats := countEvent app.stats ev
    incidents :=
      if isIncident ev.action then pushRow app.incidents (incidentRow ev kind) else app.incidents
    events := pushRow app.events (eventRow ev kind)
    processMap := noteProcess app.processMap ev })

/-- What comes of an input, none when it panics. -/
def handle (lower : Lowercase) (fromStr : String → Option RuleSet) (writes : Bool) (app : App)
    (fs : FileTree) : TuiInput → Option InputOutcome
  | .key key now os => some (app.press lower writes fs now os key)
  | .tab => some ⟨app.pressTab, fs, []⟩
  | .pushEvent ev => (app.pushEvent ev).map (fun app => ⟨app, fs, []⟩)
  | .maybeRefreshPending interval now wall =>
    some ⟨app.maybeRefreshPending lower fromStr fs interval now wall, fs, []⟩

end App

end VectorGuard
