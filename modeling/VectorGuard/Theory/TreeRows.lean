import Mathlib.Data.Fintype.EquivFin
import Mathlib.Order.WellFounded
import VectorGuard.Theory.Cursors
import VectorGuard.Theory.Dashboard
import VectorGuard.Theory.ProcessTree

/-!
# Rows of the Process Tree

What the process tree looks like, and what is missing from it.

Whatever the parents in the map are, the tree is one: a row stands below the row of its
parent, and processes with the same parent are in the order of their pids. A process
whose parent has a row is below that row or, when its parent is said to be process
zero, may be at the top before it. The order holds across both, as everything that is
said to be a child of process zero is a root.

A process has a row if climbing from it leaves the map. The parent that the map knows
is the one of the first event, and a process may be said to be its own parent, or two
of them each other's. `Parented` is that relation in terms of the events, and every
process has its row if and only if it has no cycle.

## Main definitions

* `ShowsAll`: Every process of the map has one row.
* `WellFormedTree`: What the rows of a tree have to do with each other.
* `Parented`: What the first event of a process says about its parent.

## Theorems

* `wellFormedTree_processTreeRows`: The rows of every map form a tree.
* `inTree_iff_acc`: A process is in the tree if climbing from it ends.
* `showsAll_iff`: When every process has its row.
* `own_parent_hidden`: A process that has none.
-/

namespace VectorGuard

namespace App

variable {map : ProcessMap} {pid : UInt32} {node : ProcessNode}

/-! ### The tree -/

theorem Reflects.wellKeyed {app : App} {evs : List NormalizedEvent} (h : app.Reflects evs) :
    WellKeyed app.processMap := by
  intro pid n hlookup
  rw [h.processes pid] at hlookup
  rcases Option.bind_eq_some_iff.mp hlookup with ⟨first, _, hlatest⟩
  rcases Option.map_eq_some_iff.mp hlatest with ⟨latest, _, rfl⟩
  rfl

/-- What the rows of a tree have to do with each other and with the map. -/
structure WellFormedTree (map : ProcessMap) (rows : List (Nat × ProcessNode)) : Prop where
  known : ∀ row ∈ rows, map.lookup row.2.pid = some row.2
  nodup : (rows.map (fun row => row.2.pid)).Nodup
  top : ∀ row ∈ rows, row.1 = 0 → row.2.ppid = 0 ∨ map.lookup row.2.ppid = none
  parent : ∀ before depth node after, rows = before ++ (depth + 1, node) :: after →
    ∃ parent, (before.filter (fun row => row.1 == depth)).getLast? = some (depth, parent) ∧
      parent.pid = node.ppid
  siblings : rows.Pairwise (fun row row' => row.2.ppid = row'.2.ppid → row.2.pid < row'.2.pid)
  tops : rows.Pairwise (fun row row' => row.1 = 0 → row'.1 = 0 → row.2.pid < row'.2.pid)

/-- What a row of the listing is, without its process. -/
def position (row : Nat × ProcessNode) : Nat × UInt32 := (row.1, row.2.pid)

/-- In a sorted list, what is less than an element is before it. -/
theorem mem_of_lt {l done rest : List UInt32} {a : UInt32} (hsorted : l.Pairwise (· ≤ ·))
    (hsplit : l = done ++ pid :: rest) (ha : a ∈ l) (hlt : a < pid) : a ∈ done := by
  rw [hsplit] at hsorted ha
  rcases List.mem_append.mp ha with hdone | hrest
  · exact hdone
  · have hle : pid ≤ a := by
      rcases List.mem_cons.mp hrest with rfl | hlater
      · exact UInt32.le_refl a
      · exact (List.pairwise_cons.mp (List.pairwise_append.mp hsorted).2.1).1 a hlater
    exact absurd hlt (UInt32.not_lt.mpr hle)

section Listed

variable {app : App} {order : List (Nat × UInt32)} {row : Nat × ProcessNode}

theorem lookup_of_mem_rows (hkeyed : WellKeyed app.processMap) (hrow : row ∈ app.processTreeRows) :
    app.processMap.lookup row.2.pid = some row.2 := by
  rcases List.mem_filterMap.mp hrow with ⟨entry, _, hentry⟩
  rcases Option.map_eq_some_iff.mp hentry with ⟨n, hlookup, rfl⟩
  rw [hkeyed entry.2 n hlookup]
  exact hlookup

/-- Every entry of the listing has its row. -/
theorem map_position_rows (hkeyed : WellKeyed app.processMap)
    (horder : treeOrder app.processMap = some order) :
    app.processTreeRows.map position = order := by
  have hknown : ∀ entry ∈ order, ((app.processMap.lookup entry.2).map (fun n => (entry.1, n))).map
      position = some entry := by
    intro entry hentry
    have hmem : entry.2 ∈ shownPids app.processMap := by
      unfold shownPids
      rw [horder, Option.getD_some]
      exact List.mem_map_of_mem hentry
    rcases ((mem_shownPids_iff hkeyed).mp hmem).known with ⟨n, hlookup⟩
    rw [hlookup, Option.map_some, Option.map_some, position, hkeyed entry.2 n hlookup]
  unfold processTreeRows
  rw [horder, Option.getD_some, List.map_filterMap]
  exact (List.filterMap_congr hknown).trans List.filterMap_some

/-- The pids of the rows are those that the tree shows. -/
theorem map_pid_rows (hkeyed : WellKeyed app.processMap) :
    app.processTreeRows.map (fun row => row.2.pid) = shownPids app.processMap := by
  rcases exists_treeOrder hkeyed with ⟨order, horder⟩
  unfold shownPids
  rw [horder, Option.getD_some, ← map_position_rows hkeyed horder, List.map_map]
  rfl

theorem nodup_rows (hkeyed : WellKeyed app.processMap) :
    (app.processTreeRows.map (fun row => row.2.pid)).Nodup := by
  rw [map_pid_rows hkeyed]
  exact nodup_shownPids hkeyed

end Listed

section Split

variable {app : App} {before after : List (Nat × ProcessNode)} {row : Nat × ProcessNode}
  (hkeyed : WellKeyed app.processMap) (hsplit : app.processTreeRows = before ++ row :: after)
include hkeyed hsplit

/-- Where a row comes from, with what the row of the listing was made of. -/
theorem comes_of_split : ∃ done rest,
    DepthFirst.source (childrenOf app.processMap) (rootsOf app.processMap) row.1
      (before.map position) = some (done ++ row.2.pid :: rest) ∧
    ∀ a ∈ done, a ∈ before.map (fun row => row.2.pid) := by
  rcases exists_treeOrder hkeyed with ⟨order, horder⟩
  have hrows : order = before.map position ++ position row :: after.map position := by
    rw [← map_position_rows hkeyed horder, hsplit, List.map_append, List.map_cons]
  rcases DepthFirst.inOrder_listing horder _ _ _ hrows with ⟨done, rest, hsource, hdone⟩
  refine ⟨done, rest, hsource, fun a ha => ?_⟩
  have hbefore := hdone a ha
  rw [List.map_map] at hbefore
  exact hbefore

theorem lookup_of_split : app.processMap.lookup row.2.pid = some row.2 := by
  refine lookup_of_mem_rows hkeyed ?_
  rw [hsplit]
  exact List.mem_append_right before List.mem_cons_self

/-- A row at the top is a root, and the roots with smaller pids are before it. -/
theorem root_of_split (htop : row.1 = 0) : row.2.pid ∈ rootsOf app.processMap ∧
    ∀ root ∈ rootsOf app.processMap, root < row.2.pid →
      root ∈ before.map (fun row => row.2.pid) := by
  rcases comes_of_split hkeyed hsplit with ⟨done, rest, hsource, hdone⟩
  rw [htop] at hsource
  have hroots : rootsOf app.processMap = done ++ row.2.pid :: rest := Option.some.inj hsource
  constructor
  · rw [hroots]
    exact List.mem_append_right done List.mem_cons_self
  · intro root hroot hlt
    exact hdone root (mem_of_lt (List.pairwise_insertionSort _ _) hroots hroot hlt)

/-- A row further down is below the last row one level up, and the children of that with
    smaller pids are before it. -/
theorem child_of_split {depth : Nat} (hdepth : row.1 = depth + 1) :
    (∃ parent, (before.filter (fun row => row.1 == depth)).getLast? = some (depth, parent) ∧
      parent.pid = row.2.ppid) ∧
    ∀ child ∈ childrenOf app.processMap row.2.ppid, child < row.2.pid →
      child ∈ before.map (fun row => row.2.pid) := by
  rcases comes_of_split hkeyed hsplit with ⟨done, rest, hsource, hdone⟩
  rw [hdepth] at hsource
  -- The row comes from the children of the last row one level up.
  rcases Option.map_eq_some_iff.mp hsource with ⟨above, hlast, hchildren⟩
  have hchild : row.2.pid ∈ childrenOf app.processMap above := by
    rw [hchildren]
    exact List.mem_append_right done List.mem_cons_self
  rcases (mem_childrenOf_iff hkeyed above).mp hchild with ⟨n, hlookup, hparent, _⟩
  rw [lookup_of_split hkeyed hsplit] at hlookup
  rw [← Option.some.inj hlookup] at hparent
  rw [hparent]
  constructor
  · unfold DepthFirst.lastAt at hlast
    rw [List.filter_map, List.getLast?_map, Option.map_map] at hlast
    rcases Option.map_eq_some_iff.mp hlast with ⟨⟨found, parent⟩, hfound, hpid⟩
    have hmem := (List.mem_filter.mp (List.mem_of_getLast? hfound)).2
    have hlevel : found = depth := beq_iff_eq.mp hmem
    rw [hlevel] at hfound
    exact ⟨parent, hfound, hpid⟩
  · intro child hmem hlt
    exact hdone child (mem_of_lt (List.pairwise_insertionSort _ _) hchildren hmem hlt)

/-- The processes with the parent of a row and smaller pids have rows before it. -/
theorem sibling_of_split {a : UInt32} {sibling : ProcessNode}
    (hlookup : app.processMap.lookup a = some sibling) (hsame : sibling.ppid = row.2.ppid)
    (hlt : a < row.2.pid) : a ∈ before.map (fun row => row.2.pid) := by
  cases hdepth : row.1 with
  | zero =>
      rcases root_of_split hkeyed hsplit hdepth with ⟨hroot, hsmaller⟩
      rcases (mem_rootsOf_iff hkeyed).mp hroot with ⟨n, hn, houtside⟩
      rw [lookup_of_split hkeyed hsplit] at hn
      refine hsmaller a ((mem_rootsOf_iff hkeyed).mpr ⟨sibling, hlookup, ?_⟩) hlt
      rw [hsame, Option.some.inj hn]
      exact houtside
  | succ depth =>
      rcases child_of_split hkeyed hsplit hdepth with ⟨⟨parent, hlast, hpid⟩, hsmaller⟩
      by_cases hself : a = row.2.ppid
      · -- A process that is its own parent is not its own child, but has its row above.
        rw [hself, ← hpid]
        exact List.mem_map_of_mem (List.mem_filter.mp (List.mem_of_getLast? hlast)).1
      · exact hsmaller a ((mem_childrenOf_iff hkeyed _).mpr ⟨sibling, hlookup, hsame, hself⟩) hlt

end Split

/-! ### Order -/

/-- A relation of every row to those before it is one between all rows in their order. -/
theorem pairwise_of_split {α : Type} {R : α → α → Prop} {l : List α}
    (h : ∀ before x after, l = before ++ x :: after → ∀ y ∈ after, R x y) : l.Pairwise R := by
  induction l with
  | nil => exact .nil
  | cons x l ih =>
      refine List.pairwise_cons.mpr ⟨h [] x l rfl, ih (fun before y after hsplit => ?_)⟩
      exact h (x :: before) y after (congrArg (x :: ·) hsplit)

/-- A row is before one with a greater pid if having a smaller one would put that before it. -/
theorem lt_of_mem_after {app : App} {before after : List (Nat × ProcessNode)}
    {row later : Nat × ProcessNode} (hkeyed : WellKeyed app.processMap)
    (hsplit : app.processTreeRows = before ++ row :: after) (hlater : later ∈ after)
    (h : later.2.pid < row.2.pid → later.2.pid ∈ before.map (fun row => row.2.pid)) :
    row.2.pid < later.2.pid := by
  have hnodup := nodup_rows hkeyed
  rw [hsplit, List.map_append, List.map_cons, List.nodup_append] at hnodup
  have hmem : later.2.pid ∈ after.map (fun row => row.2.pid) := List.mem_map_of_mem hlater
  have hne : row.2.pid ≠ later.2.pid := by
    intro heq
    rw [← heq] at hmem
    exact (List.nodup_cons.mp hnodup.2.1).1 hmem
  rcases UInt32.lt_or_lt_of_ne hne with hlt | hgt
  · exact hlt
  · exact absurd rfl (hnodup.2.2 _ (h hgt) _ (List.mem_cons_of_mem _ hmem))

/-- Whatever the parents in a map are, its tree ends and its rows form a tree. -/
theorem wellFormedTree_processTreeRows (app : App) (hkeyed : WellKeyed app.processMap) :
    (treeOrder app.processMap).isSome ∧ WellFormedTree app.processMap app.processTreeRows := by
  rcases exists_treeOrder hkeyed with ⟨order, horder⟩
  refine ⟨Option.isSome_iff_exists.mpr ⟨order, horder⟩, ?_, nodup_rows hkeyed, ?_, ?_, ?_, ?_⟩
  · exact fun row hrow => lookup_of_mem_rows hkeyed hrow
  · intro row hrow htop
    rcases List.append_of_mem hrow with ⟨before, after, hsplit⟩
    rcases (mem_rootsOf_iff hkeyed).mp (root_of_split hkeyed hsplit htop).1 with ⟨n, hn, houtside⟩
    rw [lookup_of_split hkeyed hsplit] at hn
    rw [Option.some.inj hn]
    exact houtside
  · intro before depth node after hsplit
    exact (child_of_split hkeyed hsplit rfl).1
  · -- With a smaller pid, a later sibling would have had its row before, and two of them.
    refine pairwise_of_split (fun before row after hsplit later hlater hsame => ?_)
    refine lt_of_mem_after hkeyed hsplit hlater (fun hlt => ?_)
    have hknown : app.processMap.lookup later.2.pid = some later.2 := by
      refine lookup_of_mem_rows hkeyed ?_
      rw [hsplit]
      exact List.mem_append_right before (List.mem_cons_of_mem row hlater)
    exact sibling_of_split hkeyed hsplit hknown hsame.symm hlt
  · -- So would a later root, which is why its own row is looked at as well.
    refine pairwise_of_split (fun before row after hsplit later hlater htop htop' => ?_)
    refine lt_of_mem_after hkeyed hsplit hlater (fun hlt => ?_)
    rcases List.append_of_mem hlater with ⟨mid, rest, hmid⟩
    have hsplit' : app.processTreeRows = (before ++ row :: mid) ++ later :: rest := by
      rw [hsplit, hmid, List.append_assoc, List.cons_append]
    exact (root_of_split hkeyed hsplit htop).2 _ (root_of_split hkeyed hsplit' htop').1 hlt

/-- Two processes that are the parents of each other, and a third one with a child. -/
theorem circle_wellFormedTree :
    ∃ app, [execBy 10 20, execBy 20 10, execBy 40 30, execBy 30 1].foldlM App.pushEvent
        (withApproval "" none 0) = some app ∧
      (treeOrder app.processMap).isSome ∧ WellFormedTree app.processMap app.processTreeRows := by
  have hpush : [execBy 10 20, execBy 20 10, execBy 40 30, execBy 30 1].foldlM App.pushEvent
      (withApproval "" none 0) = some _ := rfl
  have hreflects := (reflects_withApproval "" none 0).pushEvents hpush
  exact ⟨_, hpush, wellFormedTree_processTreeRows _ hreflects.wellKeyed⟩

/-! ### Missing processes -/

/-- Every process of the map has one row. -/
def ShowsAll (app : App) : Prop :=
  (app.processTreeRows.map Prod.snd).Perm (values app.processMap)

/-- What a process has above it in the map: its parent, unless that is process zero. -/
def Above (map : ProcessMap) (parent pid : UInt32) : Prop :=
  parent ≠ 0 ∧ ∃ n, map.lookup pid = some n ∧ n.ppid = parent

/-- On a finite type, a relation is well-founded if it has no cycle. -/
theorem wellFounded_iff_not_transGen {α : Type} [Finite α] (r : α → α → Prop) :
    WellFounded r ↔ ∀ a, ¬ Relation.TransGen r a a := by
  constructor
  · intro h a
    exact h.transGen.irrefl.irrefl a
  · intro h
    have hirrefl : Std.Irrefl (Relation.TransGen r) := ⟨h⟩
    have hclosure : WellFounded (Relation.TransGen r) := Finite.wellFounded_of_trans_of_irrefl _
    exact Subrelation.wf Relation.TransGen.single hclosure

theorem acc_of_unknown (hunknown : map.lookup pid = none) : Acc (Above map) pid := by
  refine ⟨pid, ?_⟩
  rintro parent ⟨_, n, hlookup, _⟩
  rw [hunknown] at hlookup
  cases hlookup

/-- A process is in the tree if climbing from it ends. -/
theorem inTree_iff_acc (hknown : map.lookup pid = some node) :
    InTree map pid ↔ Acc (Above map) pid := by
  constructor
  · intro h
    -- By induction on the climb; what is above a root has nothing above it.
    induction h generalizing node with
    | @root pid n hlookup houtside =>
        refine ⟨pid, ?_⟩
        rintro parent ⟨hne, n', hlookup', rfl⟩
        rw [hlookup] at hlookup'
        rw [← Option.some.inj hlookup'] at hne ⊢
        exact acc_of_unknown (houtside.resolve_left hne)
    | @child pid n hlookup hparent ih =>
        refine ⟨pid, ?_⟩
        rintro parent ⟨_, n', hlookup', rfl⟩
        rw [hlookup] at hlookup'
        rw [← Option.some.inj hlookup']
        rcases hparent.known with ⟨above, habove⟩
        exact ih habove
  · intro h
    -- By induction along the parents, each of which is in the map or ends the climb.
    induction h generalizing node with
    | intro pid _ ih =>
        by_cases hzero : node.ppid = 0
        · exact .root hknown (.inl hzero)
        · cases habove : map.lookup node.ppid with
          | none => exact .root hknown (.inr habove)
          | some above => exact .child hknown (ih node.ppid ⟨hzero, node, hknown, rfl⟩ habove)

theorem nodup_values (hkeyed : WellKeyed map) : (values map).Nodup := by
  have hkeys : (values map).map ProcessNode.pid = map.keys := by
    unfold values AList.keys List.keys
    rw [List.map_map]
    refine List.map_congr_left (fun entry hentry => ?_)
    exact hkeyed entry.1 entry.2 (AList.mem_lookup_iff.mpr hentry)
  refine List.Nodup.of_map ProcessNode.pid ?_
  rw [hkeys]
  exact map.nodupKeys

theorem showsAll_iff_inTree {app : App} (hkeyed : WellKeyed app.processMap) :
    app.ShowsAll ↔ ∀ pid n, app.processMap.lookup pid = some n → InTree app.processMap pid := by
  have hnodup : (app.processTreeRows.map Prod.snd).Nodup := by
    refine List.Nodup.of_map ProcessNode.pid ?_
    rw [List.map_map]
    exact nodup_rows hkeyed
  have hpids : ∀ pid, pid ∈ app.processTreeRows.map (fun row => row.2.pid) ↔
      InTree app.processMap pid := by
    intro pid
    rw [map_pid_rows hkeyed, mem_shownPids_iff hkeyed]
  unfold ShowsAll
  -- Neither list has anything twice, so it is about what is in them.
  rw [List.perm_ext_iff_of_nodup hnodup (nodup_values hkeyed)]
  constructor
  · intro h pid n hlookup
    rcases List.mem_map.mp ((h n).mpr (mem_values_iff.mpr ⟨pid, hlookup⟩)) with ⟨row, hrow, rfl⟩
    rw [← hkeyed pid row.2 hlookup, ← hpids]
    exact List.mem_map_of_mem hrow
  · intro h n
    constructor
    · intro hmem
      rcases List.mem_map.mp hmem with ⟨row, hrow, rfl⟩
      exact mem_values_iff.mpr ⟨row.2.pid, lookup_of_mem_rows hkeyed hrow⟩
    · intro hmem
      rcases mem_values_iff.mp hmem with ⟨pid, hlookup⟩
      rcases List.mem_map.mp ((hpids pid).mpr (h pid n hlookup)) with ⟨row, hrow, hpid⟩
      have hown := lookup_of_mem_rows hkeyed hrow
      rw [hpid, hlookup] at hown
      rw [Option.some.inj hown]
      exact List.mem_map_of_mem hrow

/-- Every process has its row if climbing always ends. -/
theorem showsAll_iff_wellFounded {app : App} (hkeyed : WellKeyed app.processMap) :
    app.ShowsAll ↔ WellFounded (Above app.processMap) := by
  rw [showsAll_iff_inTree hkeyed]
  constructor
  · intro h
    refine ⟨fun pid => ?_⟩
    cases hlookup : app.processMap.lookup pid with
    | none => exact acc_of_unknown hlookup
    | some n => exact (inTree_iff_acc hlookup).mp (h pid n hlookup)
  · intro h pid n hlookup
    exact (inTree_iff_acc hlookup).mpr (h.apply pid)

/-! ### Events -/

section Events

variable {app : App} {evs : List NormalizedEvent}

/-- What the first event of a process says about its parent, unless that is process zero. -/
def Parented (evs : List NormalizedEvent) (parent pid : UInt32) : Prop :=
  parent ≠ 0 ∧ ∃ first, (eventsOf pid evs).head? = some first ∧ first.process.ppid = parent

/-- The known parent is the one of the first event. -/
theorem exists_processOf_iff (parent : UInt32) :
    (∃ n, processOf pid evs = some n ∧ n.ppid = parent) ↔
      ∃ first, (eventsOf pid evs).head? = some first ∧ first.process.ppid = parent := by
  unfold processOf
  cases eventsOf pid evs with
  | nil => simp
  | cons first rest => simp [List.getLast?_cons]

theorem Reflects.above_iff (h : app.Reflects evs) (parent pid : UInt32) :
    Above app.processMap parent pid ↔ Parented evs parent pid := by
  unfold Above Parented
  rw [h.processes pid, exists_processOf_iff]

/-- After any events that do not panic, every process has its row if and only if the
    parents that the first events name have no cycle. -/
theorem showsAll_iff (text : String) (store : Option ApprovalStore) (now : Int) (app : App)
    (hpush : evs.foldlM App.pushEvent (withApproval text store now) = some app) :
    app.ShowsAll ↔ ∀ pid, ¬ Relation.TransGen (Parented evs) pid pid := by
  have hreflects : app.Reflects evs := (reflects_withApproval text store now).pushEvents hpush
  have hsame : Above app.processMap = Parented evs :=
    funext (fun parent => funext (fun pid => propext (hreflects.above_iff parent pid)))
  have : Finite UInt32 := Finite.of_injective UInt32.toFin (fun _ _ => UInt32.toFin_inj.mp)
  rw [showsAll_iff_wellFounded hreflects.wellKeyed, hsame]
  exact wellFounded_iff_not_transGen (Parented evs)

/-- Where every process has a pid above that of its parent, so has it above those of all
    its ancestors. -/
theorem ancestor_lt (hyounger : ∀ ev ∈ evs, ev.process.ppid < ev.process.pid)
    {ancestor pid : UInt32} (h : Relation.TransGen (Parented evs) ancestor pid) :
    ancestor < pid := by
  have hedge : ∀ {parent pid : UInt32}, Parented evs parent pid → parent < pid := by
    intro parent pid hparented
    rcases hparented.2 with ⟨first, hfirst, rfl⟩
    rcases List.mem_filter.mp (List.mem_of_head? hfirst) with ⟨hmem, hpid⟩
    rw [← beq_iff_eq.mp hpid]
    exact hyounger first hmem
  induction h with
  | single h => exact hedge h
  | tail _ h ih => exact UInt32.lt_trans ih (hedge h)

/-- A process and its parent, whose own parent is not known, have their rows. -/
theorem showsAll_parent_child :
    ∃ app, [execBy 20 10, execBy 10 1].foldlM App.pushEvent (withApproval "" none 0) = some app ∧
      app.ShowsAll := by
  have hacyclic : ∀ pid, ¬ Relation.TransGen (Parented [execBy 20 10, execBy 10 1]) pid pid :=
    fun pid hcycle => UInt32.lt_irrefl pid (ancestor_lt (by decide) hcycle)
  exact ⟨_, rfl, (showsAll_iff "" none 0 _ rfl).mpr hacyclic⟩

/-- A process that is its own parent is neither a root nor a child, and has no row. -/
theorem own_parent_hidden :
    ¬ ∀ (text : String) (store : Option ApprovalStore) (now : Int) (evs : List NormalizedEvent)
      (app : App), evs.foldlM App.pushEvent (withApproval text store now) = some app →
        app.ShowsAll := by
  intro hall
  have hlength := (hall "" none 0 [execBy 10 10] _ rfl).length_eq
  revert hlength
  decide +kernel

end Events

end App

end VectorGuard
