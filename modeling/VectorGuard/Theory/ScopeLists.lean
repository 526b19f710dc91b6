import VectorGuard.Theory.SourceNames

/-!
# Scope Lists

What the scope filter does with the lists that are configured.

Three of the lists turn events away and two let them in. An empty list that lets in
is no condition, so a list counts as empty or it does not, and it matters when that
is decided. The filter drops the patterns that do not compile and looks at what is
left. A list of targets whose only pattern is mistyped then lets every process in,
where a list that turns away only loses an entry that could not match.

Both readings of the lists come down to `TurnedAway`, the reasons to turn an event
away that do not depend on an empty list. The filter allows what is not turned away.
In scope is what is not turned away and finds no list of dead patterns in its way.

## Main definitions

* `InScope`: The specification, over the configured lists.
* `TurnedAway`: A list of the configuration rejects the event.
* `Alive`: A list is empty or has a pattern that compiles.

## Theorems

* `allows_iff`: The filter allows what is not turned away.
* `inScope_iff`: What is in scope.
* `implementsScope_iff`: When the filter implements the specification.
-/

namespace VectorGuard

variable (glob : GlobCrate)

/-- A pattern of the list matches. -/
def ListHits (l : List String) (x : String) : Prop := ∃ pat ∈ l, glob.hit pat x = true

/-- The list is empty or has a pattern that matches. -/
def ListAdmits (l : List String) (x : String) : Prop := l = [] ∨ ListHits glob l x

/-- The list is empty or has a pattern that compiles. -/
def Alive (l : List String) : Prop := l = [] ∨ ∃ pat ∈ l, (glob.new pat).isSome

/-- The list has a pattern that compiles and none that matches. -/
def Misses (l : List String) (x : String) : Prop :=
  (∃ pat ∈ l, (glob.new pat).isSome) ∧ ¬ ListHits glob l x

/-- A selector that has a key holds of the labels. -/
def SelectorHolds (k8s : K8sMeta) (s : String) : Prop :=
  ∀ key value, splitOnce '=' s = some (key, value) → trim key ≠ "" →
    k8s.labels.lookup (trim key) = some (trim value)

/-- The specification of the filter, over the configured lists. -/
structure InScope (cfg : ScopeConfig) (event : NormalizedEvent) : Prop where
  process : ¬ ListHits glob cfg.excludeProcesses event.process.binary
  target : ListAdmits glob cfg.targets event.process.binary
  pod : ∀ k8s, event.k8s = some k8s →
    ListAdmits glob cfg.includeNamespaces k8s.nameSpace ∧
      ¬ ListHits glob cfg.excludeNamespaces k8s.nameSpace ∧
      ∀ s ∈ cfg.labelSelectors, SelectorHolds k8s s

/-- A list of the configuration rejects the event, as far as its patterns compile. -/
def TurnedAway (cfg : ScopeConfig) (event : NormalizedEvent) : Prop :=
  ListHits glob cfg.excludeProcesses event.process.binary ∨
    Misses glob cfg.targets event.process.binary ∨
    ∃ k8s, event.k8s = some k8s ∧
      (Misses glob cfg.includeNamespaces k8s.nameSpace ∨
        ListHits glob cfg.excludeNamespaces k8s.nameSpace ∨
        ∃ s ∈ cfg.labelSelectors, ¬ SelectorHolds k8s s)

/-- The lists that let the event in are empty or have a pattern that compiles. -/
def AliveFor (cfg : ScopeConfig) (event : NormalizedEvent) : Prop :=
  Alive glob cfg.targets ∧ (event.k8s ≠ none → Alive glob cfg.includeNamespaces)

/-- The filter answers for the event as specified. -/
def ImplementsScope (cfg : ScopeConfig) (event : NormalizedEvent) : Prop :=
  (ScopeFilter.new glob cfg).allows event = true ↔ InScope glob cfg event

/-! ### One list -/

theorem listHits_iff (l : List String) (x : String) : anyHit glob l x = true ↔ ListHits glob l x := by
  unfold anyHit ListHits
  rw [List.any_eq_true]

/-- Only a pattern that compiles matches. -/
theorem compiles_of_hit {pat x : String} (h : glob.hit pat x = true) : (glob.new pat).isSome := by
  unfold GlobCrate.hit at h
  cases hnew : glob.new pat with
  | none =>
      rw [hnew] at h
      exact absurd h (by simp only [Bool.false_eq_true, not_false_eq_true])
  | some p =>
      rfl

/-- A compiled list that lets in is empty, or has a pattern that matches. -/
theorem compiledAdmits_iff (l : List String) (x : String) :
    ((compilePatterns glob l).isEmpty ||
        (compilePatterns glob l).any (fun p => glob.accepts p x)) = true ↔ ¬ Misses glob l x := by
  have hempty : (compilePatterns glob l).isEmpty = true ↔
      ¬ ∃ pat ∈ l, (glob.new pat).isSome := by
    unfold compilePatterns
    rw [List.isEmpty_iff, List.filterMap_eq_nil_iff]
    simp only [not_exists, not_and, Option.not_isSome_iff_eq_none]
  rw [Bool.or_eq_true, any_compilePatterns, listHits_iff, hempty]
  unfold Misses
  by_cases hhits : ListHits glob l x
  · simp only [hhits, or_true, not_true, and_false, not_false_eq_true]
  · simp only [hhits, or_false, not_false_eq_true, and_true]

/-- A configured list that lets in is alive as well. -/
theorem listAdmits_iff (l : List String) (x : String) :
    ListAdmits glob l x ↔ ¬ Misses glob l x ∧ Alive glob l := by
  unfold ListAdmits Misses Alive
  constructor
  · intro h
    rcases h with hnil | ⟨pat, hpat, hhit⟩
    · subst hnil
      refine ⟨fun hmisses => ?_, Or.inl rfl⟩
      rcases hmisses with ⟨⟨pat, hpat, _⟩, _⟩
      exact absurd hpat List.not_mem_nil
    · exact ⟨fun hmisses => hmisses.2 ⟨pat, hpat, hhit⟩,
        Or.inr ⟨pat, hpat, compiles_of_hit glob hhit⟩⟩
  · intro h
    rcases h with ⟨hmisses, hnil | hcompiles⟩
    · exact Or.inl hnil
    · by_cases hhits : ListHits glob l x
      · exact Or.inr hhits
      · exact absurd ⟨hcompiles, hhits⟩ hmisses

/-- A selector is kept exactly if it has a key. -/
theorem labelSelector_eq (s : String) :
    labelSelector s = (splitOnce '=' s).bind (fun kv =>
      if (trim kv.1).isEmpty then none else some (trim kv.1, trim kv.2)) := by
  unfold labelSelector splitOnce
  cases s.toList.dropWhile (fun c => c != '=') with
  | nil =>
      simp only [Option.bind_none]
  | cons c value =>
      simp only [Option.bind_some]

/-- The selectors that were kept hold exactly if all do. -/
theorem labelSelectors_all_iff (l : List String) (k8s : K8sMeta) :
    (l.filterMap labelSelector).all (fun kv => k8s.labels.lookup kv.1 == some kv.2) = true ↔
      ∀ s ∈ l, SelectorHolds k8s s := by
  rw [List.all_eq_true]
  simp only [List.mem_filterMap, forall_exists_index, and_imp]
  constructor
  · intro h s hs key value hsplit hkey
    -- A selector with a key is one that was kept.
    have hkept : labelSelector s = some (trim key, trim value) := by
      have hempty : (trim key).isEmpty = false := by
        rw [Bool.eq_false_iff, ne_eq, String.isEmpty_iff]
        exact hkey
      rw [labelSelector_eq, hsplit, Option.bind_some, hempty]
      rfl
    have hlabel := h _ s hs hkept
    rw [beq_iff_eq] at hlabel
    exact hlabel
  · intro h kv s hs hkept
    rw [labelSelector_eq, Option.bind_eq_some_iff] at hkept
    rcases hkept with ⟨⟨key, value⟩, hsplit, hkv⟩
    split at hkv
    · exact absurd hkv (by simp only [reduceCtorEq, not_false_eq_true])
    · next hkey =>
        rw [Option.some.injEq] at hkv
        subst hkv
        rw [String.isEmpty_iff] at hkey
        rw [beq_iff_eq]
        exact h s hs key value hsplit hkey

/-! ### All lists -/

/-- The filter allows what is not turned away. -/
theorem allows_iff (cfg : ScopeConfig) (event : NormalizedEvent) :
    (ScopeFilter.new glob cfg).allows event = true ↔ ¬ TurnedAway glob cfg event := by
  rw [ScopeFilter.allows_eq]
  unfold ScopeFilter.excludes ScopeFilter.targeted ScopeFilter.allowsMeta TurnedAway
  simp only [ScopeFilter.new, any_compilePatterns glob cfg.excludeProcesses]
  have hexcluded := listHits_iff glob cfg.excludeProcesses event.process.binary
  have htarget := compiledAdmits_iff glob cfg.targets event.process.binary
  cases hk8s : event.k8s with
  | none =>
      simp only [Bool.and_true, Bool.and_eq_true, Bool.not_eq_true', Bool.eq_false_iff, ne_eq,
        hexcluded, htarget, reduceCtorEq, false_and, exists_false, or_false, not_or]
  | some k8s =>
      have hinclude := compiledAdmits_iff glob cfg.includeNamespaces k8s.nameSpace
      have hexclude := listHits_iff glob cfg.excludeNamespaces k8s.nameSpace
      have hlabels := labelSelectors_all_iff cfg.labelSelectors k8s
      simp only [any_compilePatterns glob cfg.excludeNamespaces, Bool.and_eq_true,
        Bool.not_eq_true', Bool.eq_false_iff, ne_eq, hexcluded, htarget, hinclude, hexclude,
        hlabels, Option.some.injEq, exists_eq_left', not_or, not_exists, not_and, not_not,
        and_assoc]

/-- In scope is what is not turned away and finds no list of dead patterns in its
    way. -/
theorem inScope_iff (cfg : ScopeConfig) (event : NormalizedEvent) :
    InScope glob cfg event ↔ ¬ TurnedAway glob cfg event ∧ AliveFor glob cfg event := by
  unfold TurnedAway AliveFor
  constructor
  · intro h
    rcases (listAdmits_iff glob _ _).mp h.target with ⟨hhits, halive⟩
    refine ⟨?_, halive, fun hk8s => ?_⟩
    · intro haway
      rcases haway with hexcluded | hmisses | ⟨k8s, hk8s, hpod⟩
      · exact h.process hexcluded
      · exact hhits hmisses
      · rcases h.pod k8s hk8s with ⟨hinclude, hexclude, hlabels⟩
        rcases hpod with hmisses | hns | ⟨s, hs, hlabel⟩
        · exact ((listAdmits_iff glob _ _).mp hinclude).1 hmisses
        · exact hexclude hns
        · exact hlabel (hlabels s hs)
    · rcases Option.ne_none_iff_exists'.mp hk8s with ⟨k8s, hsome⟩
      exact ((listAdmits_iff glob _ _).mp (h.pod k8s hsome).1).2
  · intro h
    rcases h with ⟨haway, halive, hinclude⟩
    -- None of the reasons to turn the event away holds.
    simp only [not_or, not_exists, not_and, not_not] at haway
    rcases haway with ⟨hexcluded, hmisses, hpod⟩
    refine ⟨hexcluded, (listAdmits_iff glob _ _).mpr ⟨hmisses, halive⟩, fun k8s hk8s => ?_⟩
    rcases hpod k8s hk8s with ⟨hns, hexclude, hlabels⟩
    have hsome : event.k8s ≠ none := by
      rw [hk8s]
      exact Option.some_ne_none k8s
    exact ⟨(listAdmits_iff glob _ _).mpr ⟨hns, hinclude hsome⟩, hexclude, hlabels⟩

/-- The filter implements the specification for an event exactly when the lists
    that let it in are empty or have a pattern that compiles, or some other list
    turns it away. -/
theorem implementsScope_iff (cfg : ScopeConfig) (event : NormalizedEvent) :
    ImplementsScope glob cfg event ↔ AliveFor glob cfg event ∨ TurnedAway glob cfg event := by
  unfold ImplementsScope
  rw [allows_iff, inScope_iff]
  by_cases haway : TurnedAway glob cfg event
  · simp only [haway, not_true, false_and, or_true]
  · simp only [haway, not_false_eq_true, true_and, true_iff, or_false]

/-- One target, with a bracket that is not closed. -/
def mistyped : ScopeConfig := ⟨["[nginx"], [], [], [], []⟩

/-- A mistyped target lets every process in. -/
theorem mistyped_not_implementsScope :
    (ScopeFilter.new GlobCrate.starred mistyped).allows (.plainExec "sh") = true ∧
      ¬ ImplementsScope GlobCrate.starred mistyped (.plainExec "sh") := by
  have hallows : (ScopeFilter.new GlobCrate.starred mistyped).allows (.plainExec "sh") = true := by
    decide
  refine ⟨hallows, ?_⟩
  intro h
  rcases (h.mp hallows).target with hnil | ⟨pat, hpat, hhit⟩
  · exact absurd hnil (List.cons_ne_nil _ _)
  · have hbracket : pat = "[nginx" := List.mem_singleton.mp hpat
    subst hbracket
    exact absurd hhit (by decide)

end VectorGuard
