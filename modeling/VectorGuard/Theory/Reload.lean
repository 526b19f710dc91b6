import VectorGuard.Core.MapOps
import VectorGuard.Lib.Transition
import VectorGuard.Theory.Loading

/-!
# Reloading under Lookups

A load of the kernel maps interleaved, operation by operation, with lookups
made by the kernel handlers.

The operations of a load are removals followed by insertions, so the keys held
at any point are those of the start not yet removed and those already
inserted. A key that old and new rules share is removed and inserted again,
and is missing in between: the load has no step that replaces a key. The window
is exactly that, `lookup_found_iff`, and closes before a load that is not
refused is over.

## Main definitions

* `Reload`: The maps, the operations done and the operations to do.
* `ReloadStep`: One operation, or one lookup.
* `Outside`: A key is outside the window between its removal and insertion.

## Theorems

* `run_accounts`: What is held along a run.
* `run_result`: A run that is over leaves what `loadRules` leaves.
* `lookup_found_iff`: When a lookup finds a shared key.
-/

namespace VectorGuard

/-- A load in progress. A refused operation ends it. -/
structure Reload where
  maps : BlockMaps
  done : List MapOp
  todo : List MapOp
  failed : Bool

/-- The load of a rule list into the given maps, before its first operation. -/
def Reload.init (maps : BlockMaps) (rules : List Rule) : Reload :=
  ⟨maps, [], loadOps maps rules, false⟩

inductive ReloadAction
  | op
  | lookup (k : BlockKey) (found : Bool)

/-- The next operation is executed or refused, or a handler looks a key up. -/
inductive ReloadStep : Reload → ReloadAction → Reload → Prop
  | op (s : Reload) (op : MapOp) (rest : List MapOp) (maps : BlockMaps) (hok : s.failed = false)
      (htodo : s.todo = op :: rest) (happly : op.apply s.maps = some maps) :
      ReloadStep s .op { maps := maps, done := s.done ++ [op], todo := rest, failed := false }
  | refused (s : Reload) (op : MapOp) (rest : List MapOp) (hok : s.failed = false)
      (htodo : s.todo = op :: rest) (happly : op.apply s.maps = none) :
      ReloadStep s .op { s with failed := true }
  | lookup (s : Reload) (k : BlockKey) :
      ReloadStep s (.lookup k (decide (s.maps.holds k))) s

/-- The key has not been removed yet, or has been inserted again. -/
def Outside (done : List MapOp) (k : BlockKey) : Prop :=
  .remove k ∉ done ∨ .insert k ∈ done

/-- The operations are those of the load, in order, and the held keys are those
    of the start that have not been removed and those that were inserted. -/
def Accounts (start : BlockMaps) (rules : List Rule) (s : Reload) : Prop :=
  s.done ++ s.todo = loadOps start rules ∧
    ∀ k, s.maps.holds k ↔ (start.holds k ∧ .remove k ∉ s.done) ∨ .insert k ∈ s.done

/-- A removal is executed before every insertion. -/
theorem insert_notMem_of_remove (start : BlockMaps) (rules : List Rule) (done rest : List MapOp)
    (k a : BlockKey) (h : done ++ .remove k :: rest = loadOps start rules) :
    .insert a ∉ done := by
  unfold loadOps at h
  rcases List.append_eq_append_iff.mp h with ⟨mid, hremoves, _⟩ | ⟨mid, hdone, hinserts⟩
  · -- What is done is part of the removals.
    intro ha
    have hmem : MapOp.insert a ∈ start.keyList.map MapOp.remove := by
      rw [hremoves]
      exact List.mem_append_left mid ha
    rcases List.mem_map.mp hmem with ⟨_, _, hop⟩
    exact absurd hop (by simp only [reduceCtorEq, not_false_eq_true])
  · -- All removals are done, so the next operation is an insertion.
    have hmem : MapOp.remove k ∈ (computeBlockKeys rules).toList.map MapOp.insert := by
      rw [hinserts]
      exact List.mem_append_right mid List.mem_cons_self
    rcases List.mem_map.mp hmem with ⟨_, _, hop⟩
    exact absurd hop (by simp only [reduceCtorEq, not_false_eq_true])

/-- One step keeps the account. -/
theorem step_accounts (start : BlockMaps) (rules : List Rule) (s t : Reload) (a : ReloadAction)
    (hacc : Accounts start rules s) (h : ReloadStep s a t) : Accounts start rules t := by
  rcases hacc with ⟨hops, hheld⟩
  cases h with
  | op op rest maps hok htodo happly =>
      rw [htodo] at hops
      refine ⟨by rw [List.append_assoc, List.singleton_append, hops], fun b => ?_⟩
      cases op with
      | remove k =>
          -- No insertion has been made yet, so a removed key is not held.
          rw [MapOp.apply, Option.some.injEq] at happly
          have hnone := insert_notMem_of_remove start rules s.done rest k k hops
          rw [← happly, holds_remove, hheld b]
          simp only [List.mem_append, List.mem_singleton, MapOp.remove.injEq, reduceCtorEq,
            or_false, not_or]
          by_cases hbk : b = k
          · subst hbk
            simp only [hnone, ne_eq, not_true, false_and, and_false, or_self]
          · simp only [hbk, ne_eq, not_false_eq_true, and_true, true_and]
      | insert k =>
          rw [MapOp.apply] at happly
          rw [holds_insert s.maps maps k b happly, hheld b]
          simp only [List.mem_append, List.mem_singleton, MapOp.insert.injEq, reduceCtorEq,
            or_false]
          exact ⟨fun h => h.elim (fun hbk => Or.inr (Or.inr hbk)) (Or.imp_right Or.inl),
            fun h => h.elim (fun hl => Or.inr (Or.inl hl)) (Or.symm ∘ Or.imp_left Or.inr)⟩
  | refused op rest hok htodo happly =>
      exact ⟨hops, hheld⟩
  | lookup k =>
      exact ⟨hops, hheld⟩

/-- The account holds along every run of a load. -/
theorem run_accounts (start : BlockMaps) (rules : List Rule) (acts : List ReloadAction)
    (s : Reload) (hrun : Transition.Run ReloadStep (Reload.init start rules) acts s) :
    Accounts start rules s := by
  refine hrun.invariant (I := fun _ s => Accounts start rules s) ?_
    (fun _ t a u _ hacc hstep => step_accounts start rules t u a hacc hstep)
  refine ⟨rfl, fun k => ?_⟩
  simp only [Reload.init, List.not_mem_nil, not_false_eq_true, and_true, or_false]

/-- What remains to be done leads to the same maps and result throughout. -/
theorem run_result (start : BlockMaps) (rules : List Rule) (acts : List ReloadAction) (s : Reload)
    (hrun : Transition.Run ReloadStep (Reload.init start rules) acts s) :
    loadRules start rules =
      if s.failed then (s.maps, .error .full) else runOps s.maps s.todo := by
  refine hrun.invariant (I := fun _ s => loadRules start rules =
    if s.failed then (s.maps, .error .full) else runOps s.maps s.todo) ?_ ?_
  · exact (runOps_loadOps start rules).symm
  · intro _ t a u _ hres hstep
    cases hstep with
    | op op rest maps hok htodo happly =>
        rw [hres, hok, htodo]
        simp only [Bool.false_eq_true, if_false, runOps, happly]
    | refused op rest hok htodo happly =>
        rw [hres, hok, htodo]
        simp only [Bool.false_eq_true, if_false, runOps, happly, if_true]
    | lookup k =>
        exact hres

/-- While new rules replace old ones, a lookup finds a key of both exactly
    outside the window between its removal and its insertion, and every such
    key is held again when the load has run to its end. -/
theorem lookup_found_iff (old new : List Rule) (start : BlockMaps)
    (hstart : start.HoldsExactly (computeBlockKeys old)) (k : BlockKey)
    (hold : (computeBlockKeys old).has k) (hnew : (computeBlockKeys new).has k)
    (acts : List ReloadAction) (s : Reload)
    (hrun : Transition.Run ReloadStep (Reload.init start new) acts s) :
    (∀ found t, ReloadStep s (.lookup k found) t → (found = true ↔ Outside s.done k)) ∧
      (s.failed = false → s.todo = [] → s.maps.holds k) := by
  rcases run_accounts start new acts s hrun with ⟨hops, hheld⟩
  have hinit : start.holds k := ((holdsExactly_iff start _).mp hstart k).mpr hold
  have hwindow : s.maps.holds k ↔ Outside s.done k := by
    rw [hheld k]
    simp only [hinit, true_and]
    rfl
  constructor
  · intro found t hlookup
    cases hlookup with
    | lookup =>
        rw [decide_eq_true_iff]
        exact hwindow
  · -- Nothing is left to do, so the insertion is among what was done.
    intro _ htodo
    rw [htodo, List.append_nil] at hops
    refine hwindow.mpr (Or.inr ?_)
    rw [hops]
    exact List.mem_append_right _ (List.mem_map.mpr ⟨k, hnew, rfl⟩)

theorem loadOps_rootMaps :
    loadOps rootMaps [rootRule] = [.remove (.uid 0), .insert (.uid 0)] := by
  decide

/-- Loading the rule on root again, after its first operation. -/
def rootReload : Reload where
  maps := rootMaps.remove (.uid 0)
  done := [.remove (.uid 0)]
  todo := [.insert (.uid 0)]
  failed := false

theorem run_rootReload :
    Transition.Run ReloadStep (Reload.init rootMaps [rootRule]) [.op] rootReload :=
  Transition.Run.snoc Transition.Run.nil
    (ReloadStep.op (Reload.init rootMaps [rootRule]) (.remove (.uid 0)) [.insert (.uid 0)] _ rfl
      loadOps_rootMaps rfl)

/-- When the rule on root has been loaded again, root is blocked again. -/
theorem root_held_after_reload :
    ∃ s, Transition.Run ReloadStep (Reload.init rootMaps [rootRule]) [.op, .op] s ∧
      s.maps.holds (.uid 0) := by
  have hexact := holdsExactly_of_loadRules BlockMaps.empty rootMaps [rootRule] loadRules_rootRule
  rcases Option.isSome_iff_exists.mp
    (show (rootReload.maps.insert (.uid 0)).isSome = true by decide) with ⟨maps, hins⟩
  have hrun := Transition.Run.snoc run_rootReload
    (ReloadStep.op rootReload (.insert (.uid 0)) [] maps rfl rfl hins)
  refine ⟨_, hrun, ?_⟩
  exact (lookup_found_iff [rootRule] [rootRule] rootMaps hexact (.uid 0)
    (List.mem_singleton_self _) (List.mem_singleton_self _) _ _ hrun).2 rfl rfl

/-- Loading the same rule again, a lookup between the two operations misses
    root. -/
theorem root_missed_during_reload :
    rootMaps.HoldsExactly (computeBlockKeys [rootRule]) ∧
      (computeBlockKeys [rootRule]).has (.uid 0) ∧
      Transition.Run ReloadStep (Reload.init rootMaps [rootRule]) [.op] rootReload ∧
      ReloadStep rootReload (.lookup (.uid 0) false) rootReload := by
  have hexact := holdsExactly_of_loadRules BlockMaps.empty rootMaps [rootRule] loadRules_rootRule
  have hmissed : decide (rootReload.maps.holds (.uid 0)) = false := by decide
  refine ⟨hexact, List.mem_singleton_self _, run_rootReload, ?_⟩
  have hlookup := ReloadStep.lookup rootReload (.uid 0)
  rwa [hmissed] at hlookup

end VectorGuard
