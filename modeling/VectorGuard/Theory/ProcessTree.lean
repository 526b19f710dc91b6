import VectorGuard.Core.Tui

/-!
# Process Tree

Which processes the tree of the terminal interface shows, and what an event does
to it.

The tree is listed from the processes whose parent is not in the map, so it shows
a process when climbing from it, parent by parent, leaves the map. A cycle of
parents is never left, and neither it nor anything below it is shown. The map has
more nodes than the search visits on any branch, so the listing ends.

An event of a known process changes no parent. One of a new process gives a parent
to the processes that name it and were shown as roots, so those stay in the tree
when the new process is in it.

## Main definitions

* `WellKeyed`: Every process is stored under its own pid.
* `InTree`: Climbing from a process leaves the map.
* `Clear`: Climbing from a pid leaves the map without coming to a new process.
* `HidesNothing`, `Stays`: What a new process keeps shown.

## Theorems

* `exists_treeOrder`: The listing ends.
* `mem_shownPids_iff`: The tree shows the processes that are `InTree`.
* `lt_length_processTreeRows_iff`: There are as many rows as processes in the tree.
* `inTree_noteProcess_known`, `inTree_noteProcess_new`: What an event keeps shown.
* `inTree_iff_stays`: What is shown next to a process that is not.
-/

namespace VectorGuard

namespace App

variable {map map' : ProcessMap} {pid : UInt32} {node : ProcessNode}

/-- Every process is stored under its own pid. -/
def WellKeyed (map : ProcessMap) : Prop :=
  ∀ pid node, map.lookup pid = some node → node.pid = pid

theorem mem_values_iff : node ∈ values map ↔ ∃ pid, map.lookup pid = some node := by
  unfold values
  rw [List.mem_map]
  constructor
  · rintro ⟨⟨pid, _⟩, hmem, rfl⟩
    exact ⟨pid, AList.mem_lookup_iff.mpr hmem⟩
  · rintro ⟨pid, hlookup⟩
    exact ⟨⟨pid, node⟩, AList.mem_lookup_iff.mp hlookup, rfl⟩

theorem mem_childrenOf_iff (hkeyed : WellKeyed map) (parent : UInt32) :
    pid ∈ childrenOf map parent ↔
      ∃ n, map.lookup pid = some n ∧ n.ppid = parent ∧ pid ≠ parent := by
  unfold childrenOf
  rw [List.mem_insertionSort, List.mem_map]
  constructor
  · rintro ⟨n, hmem, rfl⟩
    rcases List.mem_filter.mp hmem with ⟨hvalue, hchild⟩
    rcases mem_values_iff.mp hvalue with ⟨key, hlookup⟩
    simp only [Bool.and_eq_true, beq_iff_eq, bne_iff_ne] at hchild
    refine ⟨n, ?_, hchild.1, hchild.2⟩
    rw [hkeyed key n hlookup]
    exact hlookup
  · rintro ⟨n, hlookup, hparent, hne⟩
    have hpid := hkeyed pid n hlookup
    refine ⟨n, List.mem_filter.mpr ⟨mem_values_iff.mpr ⟨pid, hlookup⟩, ?_⟩, hpid⟩
    simp only [Bool.and_eq_true, beq_iff_eq, bne_iff_ne]
    exact ⟨hparent, hpid ▸ hne⟩

theorem mem_rootsOf_iff (hkeyed : WellKeyed map) :
    pid ∈ rootsOf map ↔
      ∃ n, map.lookup pid = some n ∧ (n.ppid = 0 ∨ map.lookup n.ppid = none) := by
  unfold rootsOf
  rw [List.mem_insertionSort, List.mem_map]
  constructor
  · rintro ⟨n, hmem, rfl⟩
    rcases List.mem_filter.mp hmem with ⟨hvalue, hroot⟩
    rcases mem_values_iff.mp hvalue with ⟨key, hlookup⟩
    simp only [Bool.or_eq_true, beq_iff_eq, Option.isNone_iff_eq_none] at hroot
    refine ⟨n, ?_, hroot⟩
    rw [hkeyed key n hlookup]
    exact hlookup
  · rintro ⟨n, hlookup, hroot⟩
    refine ⟨n, List.mem_filter.mpr ⟨mem_values_iff.mpr ⟨pid, hlookup⟩, ?_⟩, hkeyed pid n hlookup⟩
    simp only [Bool.or_eq_true, beq_iff_eq, Option.isNone_iff_eq_none]
    exact hroot

/-- Climbing from a process leaves the map. -/
inductive InTree (map : ProcessMap) : UInt32 → Prop
  | root {pid : UInt32} {n : ProcessNode} : map.lookup pid = some n →
      n.ppid = 0 ∨ map.lookup n.ppid = none → InTree map pid
  | child {pid : UInt32} {n : ProcessNode} : map.lookup pid = some n → InTree map n.ppid →
      InTree map pid

theorem InTree.known (h : InTree map pid) : ∃ n, map.lookup pid = some n := by
  cases h with
  | root hlookup _ => exact ⟨_, hlookup⟩
  | child hlookup _ => exact ⟨_, hlookup⟩

/-- The roots reach what leaves the map. -/
theorem reaches_iff_inTree (hkeyed : WellKeyed map) :
    (∃ r ∈ rootsOf map, DepthFirst.Reaches (childrenOf map) r pid) ↔ InTree map pid := by
  constructor
  · rintro ⟨r, hroot, hreach⟩
    induction hreach with
    | refl =>
        rcases (mem_rootsOf_iff hkeyed).mp hroot with ⟨n, hlookup, hparent⟩
        exact .root hlookup hparent
    | tail _ hchild ih =>
        rcases (mem_childrenOf_iff hkeyed _).mp hchild with ⟨n, hlookup, hparent, _⟩
        refine .child hlookup ?_
        rw [hparent]
        exact ih
  · intro h
    induction h with
    | root hlookup hparent =>
        exact ⟨_, (mem_rootsOf_iff hkeyed).mpr ⟨_, hlookup, hparent⟩, Relation.ReflTransGen.refl⟩
    | @child pid n hlookup _ ih =>
        rcases ih with ⟨r, hroot, hreach⟩
        by_cases hself : pid = n.ppid
        · -- A process that is its own parent is not its own child.
          rw [hself]
          exact ⟨r, hroot, hreach⟩
        · have hchild := (mem_childrenOf_iff hkeyed n.ppid).mpr ⟨n, hlookup, rfl, hself⟩
          exact ⟨r, hroot, Relation.ReflTransGen.tail hreach hchild⟩

/-! ### Listing -/

/-- The search has fuel for every process, so it ends. -/
theorem exists_treeOrder (hkeyed : WellKeyed map) : ∃ rows, treeOrder map = some rows := by
  have hkeys : ∀ pid n, map.lookup pid = some n → pid ∈ map.keys := by
    intro pid n hlookup
    exact AList.mem_keys.mp (AList.lookup_isSome.mp (hlookup ▸ rfl))
  have hchildren : ∀ parent ∈ map.keys, ∀ c ∈ childrenOf map parent, c ∈ map.keys := by
    intro parent _ c hc
    rcases (mem_childrenOf_iff hkeyed parent).mp hc with ⟨n, hlookup, _⟩
    exact hkeys c n hlookup
  have hroots : ∀ r ∈ rootsOf map, r ∈ map.keys := by
    intro r hr
    rcases (mem_rootsOf_iff hkeyed).mp hr with ⟨n, hlookup, _⟩
    exact hkeys r n hlookup
  exact DepthFirst.exists_listing hchildren hroots (Nat.lt_succ_self _)

/-- The pids of the tree, from the top to the bottom. -/
def shownPids (map : ProcessMap) : List UInt32 := ((treeOrder map).getD []).map Prod.snd

theorem mem_shownPids_iff (hkeyed : WellKeyed map) : pid ∈ shownPids map ↔ InTree map pid := by
  rcases exists_treeOrder hkeyed with ⟨rows, hrows⟩
  unfold shownPids
  rw [hrows, ← reaches_iff_inTree hkeyed]
  exact DepthFirst.mem_listing_iff hrows pid

theorem nodup_shownPids (hkeyed : WellKeyed map) : (shownPids map).Nodup := by
  rcases exists_treeOrder hkeyed with ⟨rows, hrows⟩
  unfold shownPids
  rw [hrows]
  exact DepthFirst.nodup_listing hrows

/-- Every pid of the tree has its row. -/
theorem length_processTreeRows (app : App) (hkeyed : WellKeyed app.processMap) :
    app.processTreeRows.length = (shownPids app.processMap).length := by
  unfold processTreeRows shownPids
  rw [List.length_map, List.length_filterMap_eq_countP, List.countP_eq_length]
  intro row hrow
  have hmem : row.2 ∈ shownPids app.processMap := List.mem_map_of_mem hrow
  rcases ((mem_shownPids_iff hkeyed).mp hmem).known with ⟨n, hlookup⟩
  rw [hlookup]
  rfl

/-- More than some number of processes have a property. -/
def MoreThan (n : Nat) (P : UInt32 → Prop) : Prop :=
  ∃ pids : List UInt32, pids.Nodup ∧ n < pids.length ∧ ∀ pid ∈ pids, P pid

theorem MoreThan.mono {n : Nat} {P Q : UInt32 → Prop} (h : MoreThan n P)
    (himp : ∀ pid, P pid → Q pid) : MoreThan n Q := by
  rcases h with ⟨pids, hnodup, hmore, hall⟩
  exact ⟨pids, hnodup, hmore, fun pid hpid => himp pid (hall pid hpid)⟩

/-- There are as many rows as processes in the tree. -/
theorem lt_length_processTreeRows_iff (app : App) (hkeyed : WellKeyed app.processMap) (n : Nat) :
    n < app.processTreeRows.length ↔ MoreThan n (InTree app.processMap) := by
  rw [length_processTreeRows app hkeyed]
  constructor
  · intro hlt
    exact ⟨_, nodup_shownPids hkeyed, hlt, fun _ => (mem_shownPids_iff hkeyed).mp⟩
  · rintro ⟨pids, hnodup, hlt, hall⟩
    refine Nat.lt_of_lt_of_le hlt (List.subperm_of_subset hnodup ?_).length_le
    exact fun pid hpid => (mem_shownPids_iff hkeyed).mpr (hall pid hpid)

/-! ### Events -/

section Events

variable {ev : NormalizedEvent}

/-- The node of an event's process after it is what it was or as first seen, but
    for the last action and the count. -/
theorem lookup_noteProcess_self (map : ProcessMap) (ev : NormalizedEvent) :
    ∃ n, (noteProcess map ev).lookup ev.process.pid = some n ∧
      n.pid = ((map.lookup ev.process.pid).getD (newNode ev)).pid ∧
      n.ppid = ((map.lookup ev.process.pid).getD (newNode ev)).ppid := by
  unfold noteProcess
  exact ⟨_, AList.lookup_insert _, rfl, rfl⟩

theorem lookup_noteProcess_ne (hne : pid ≠ ev.process.pid) :
    (noteProcess map ev).lookup pid = map.lookup pid := by
  unfold noteProcess
  exact AList.lookup_insert_ne hne

theorem WellKeyed.noteProcess (hkeyed : WellKeyed map) : WellKeyed (noteProcess map ev) := by
  intro pid n hlookup
  by_cases hpid : pid = ev.process.pid
  · subst hpid
    rcases lookup_noteProcess_self map ev with ⟨m, hm, hkey, _⟩
    rw [hm] at hlookup
    rw [← Option.some.inj hlookup, hkey]
    cases hknown : map.lookup ev.process.pid with
    | none => rfl
    | some old => exact hkeyed _ old hknown
  · rw [lookup_noteProcess_ne hpid] at hlookup
    exact hkeyed pid n hlookup

/-- An event of a known process keeps every parent. -/
theorem inTree_noteProcess_known (hknown : (map.lookup ev.process.pid).isSome)
    (h : InTree map pid) : InTree (noteProcess map ev) pid := by
  rcases Option.isSome_iff_exists.mp hknown with ⟨old, hold⟩
  -- A node that is there keeps the parent it was first seen with.
  have hlinks : ∀ pid n, map.lookup pid = some n →
      ∃ n', (noteProcess map ev).lookup pid = some n' ∧ n'.ppid = n.ppid := by
    intro pid n hlookup
    by_cases hpid : pid = ev.process.pid
    · subst hpid
      rcases lookup_noteProcess_self map ev with ⟨m, hm, _, hparent⟩
      rw [hlookup] at hparent
      exact ⟨m, hm, hparent⟩
    · exact ⟨n, (lookup_noteProcess_ne hpid).trans hlookup, rfl⟩
  induction h with
  | root hlookup hparent =>
      rcases hlinks _ _ hlookup with ⟨n', hlookup', hsame⟩
      refine .root hlookup' ?_
      rw [hsame]
      rcases hparent with hzero | hunknown
      · exact .inl hzero
      · refine .inr ((lookup_noteProcess_ne ?_).trans hunknown)
        rintro heq
        rw [heq, hold] at hunknown
        cases hunknown
  | child hlookup _ ih =>
      rcases hlinks _ _ hlookup with ⟨n', hlookup', hsame⟩
      refine .child hlookup' ?_
      rw [hsame]
      exact ih

/-- Climbing from a pid leaves the map without coming to a new process. -/
inductive Clear (map : ProcessMap) (new : UInt32) : UInt32 → Prop
  | top : Clear map new 0
  | unknown {pid : UInt32} : map.lookup pid = none → pid ≠ new → Clear map new pid
  | climb {pid : UInt32} {n : ProcessNode} : map.lookup pid = some n → Clear map new n.ppid →
      Clear map new pid

/-- A new process keeps shown what was shown: no known process names it as its
    parent, or it is in the tree itself. -/
def HidesNothing (map : ProcessMap) (new parent : UInt32) : Prop :=
  (∀ n ∈ values map, n.ppid = new → new = 0) ∨ Clear map new parent

/-- A process stays in the tree when a new one comes that is not in it. -/
def Stays (map : ProcessMap) (new pid : UInt32) : Prop :=
  ∃ n, map.lookup pid = some n ∧ Clear map new n.ppid

section New

variable (hnew : map.lookup ev.process.pid = none)

include hnew

theorem lookup_noteProcess_old (hlookup : map.lookup pid = some node) :
    (noteProcess map ev).lookup pid = some node := by
  refine (lookup_noteProcess_ne ?_).trans hlookup
  intro heq
  rw [heq, hnew] at hlookup
  cases hlookup

theorem Clear.inTree (h : Clear map ev.process.pid pid) :
    (pid = 0 ∨ (noteProcess map ev).lookup pid = none) ∨ InTree (noteProcess map ev) pid := by
  induction h with
  | top => exact .inl (.inl rfl)
  | unknown hunknown hne => exact .inl (.inr ((lookup_noteProcess_ne hne).trans hunknown))
  | climb hlookup _ ih =>
      have hlookup' := lookup_noteProcess_old hnew hlookup
      rcases ih with houtside | hin
      · exact .inr (.root hlookup' houtside)
      · exact .inr (.child hlookup' hin)

/-- A new process is in the tree when climbing from its parent leaves the map. -/
theorem inTree_new (h : Clear map ev.process.pid ev.process.ppid) :
    InTree (noteProcess map ev) ev.process.pid := by
  rcases lookup_noteProcess_self map ev with ⟨m, hm, _, hparent⟩
  rw [hnew] at hparent
  have hppid : m.ppid = ev.process.ppid := hparent
  rcases h.inTree hnew with houtside | hin
  · exact .root hm (hppid.symm ▸ houtside)
  · exact .child hm (hppid.symm ▸ hin)

theorem inTree_noteProcess_new (hhides : HidesNothing map ev.process.pid ev.process.ppid)
    (h : InTree map pid) : InTree (noteProcess map ev) pid := by
  induction h with
  | @root pid n hlookup hparent =>
      have hlookup' := lookup_noteProcess_old hnew hlookup
      by_cases hnames : n.ppid = ev.process.pid
      · -- The process was a root and has the new one as its parent now.
        rcases hhides with hchildless | hclear
        · have hzero := hchildless n (mem_values_iff.mpr ⟨pid, hlookup⟩) hnames
          exact .root hlookup' (.inl (hnames.trans hzero))
        · refine .child hlookup' ?_
          rw [hnames]
          exact inTree_new hnew hclear
      · rcases hparent with hzero | hunknown
        · exact .root hlookup' (.inl hzero)
        · exact .root hlookup' (.inr ((lookup_noteProcess_ne hnames).trans hunknown))
  | child hlookup _ ih => exact .child (lookup_noteProcess_old hnew hlookup) ih

/-- A new process that is not in the tree takes what is below it away. -/
theorem inTree_iff_stays (hnot : ¬ Clear map ev.process.pid ev.process.ppid) :
    InTree (noteProcess map ev) pid ↔ Stays map ev.process.pid pid := by
  rcases lookup_noteProcess_self map ev with ⟨m, hm, _, hparent⟩
  rw [hnew] at hparent
  have hppid : m.ppid = ev.process.ppid := hparent
  -- A process whose parent is clear of the new one is not the new one.
  have hstays : ∀ pid n, (noteProcess map ev).lookup pid = some n →
      Clear map ev.process.pid n.ppid → Stays map ev.process.pid pid := by
    intro pid n hlookup hclear
    by_cases hpid : pid = ev.process.pid
    · rw [hpid, hm] at hlookup
      rw [← Option.some.inj hlookup, hppid] at hclear
      exact absurd hclear hnot
    · exact ⟨n, (lookup_noteProcess_ne hpid).symm.trans hlookup, hclear⟩
  constructor
  · intro h
    induction h with
    | @root pid n hlookup houtside =>
        refine hstays pid n hlookup ?_
        rcases houtside with hzero | hunknown
        · rw [hzero]
          exact .top
        · have hne : n.ppid ≠ ev.process.pid := by
            intro heq
            rw [heq, hm] at hunknown
            cases hunknown
          exact .unknown ((lookup_noteProcess_ne hne).symm.trans hunknown) hne
    | @child pid n hlookup _ ih =>
        rcases ih with ⟨above, habove, hclear⟩
        exact hstays pid n hlookup (.climb habove hclear)
  · rintro ⟨n, hlookup, hclear⟩
    have hlookup' := lookup_noteProcess_old hnew hlookup
    rcases hclear.inTree hnew with houtside | hin
    · exact .root hlookup' houtside
    · exact .child hlookup' hin

end New

end Events

end App

end VectorGuard
