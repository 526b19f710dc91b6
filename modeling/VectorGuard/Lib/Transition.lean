import Mathlib.Data.List.Induction

/-!
# Labelled Transition Systems

Runs of a step relation that is labelled with what happened, over arbitrary
states and labels.

A run is grown at its end, so an invariant may speak about the whole history
and not only about the state: `Run.invariant` is the one induction, with the
labels taken so far as a parameter. A property of states alone is the special
case that ignores them.

A second system may follow a run with fewer steps of its own (`Run.simulate`), and
a run may be repeated elsewhere without some of its steps (`Run.matched`). A system
that gets its work from outside does not go on with it for ever when every step of the
work lowers a measure (`Draining`).

## Main definitions

* `Run`: The runs of a labelled step relation.
* `Draining`: A measure that the work lowers and only the outside raises.

## Theorems

* `Run.invariant`: What every step preserves holds along every run.
* `Run.iff_of_invariant`: Two systems whose steps agree under an invariant have the
  same runs.
* `Run.split`: A run, cut at a point of its history.
* `Run.simulate`, `Run.matched`: A run, followed by another system.
* `Draining.count_le`: The work of a run is bounded.
-/

namespace Transition

variable {σ ι : Type*}

/-- Runs from a state to a state, with the labels of their steps in order. -/
inductive Run (step : σ → ι → σ → Prop) (s : σ) : List ι → σ → Prop
  | nil : Run step s [] s
  | snoc {acts : List ι} {t u : σ} {a : ι} : Run step s acts t → step t a u →
      Run step s (acts ++ [a]) u

variable {step : σ → ι → σ → Prop} {s t : σ} {acts : List ι}

/-- What holds at the start and is preserved by every step that a run can take
    holds along the run. The preserved property may mention the history. -/
theorem Run.invariant {I : List ι → σ → Prop} (h0 : I [] s)
    (hstep : ∀ acts t a u, Run step s acts t → I acts t → step t a u → I (acts ++ [a]) u)
    (h : Run step s acts t) : I acts t := by
  induction h with
  | nil => exact h0
  | snoc hrun hst ih => exact hstep _ _ _ _ hrun ih hst

/-- What is a step under an invariant is one of another system, and so are runs. -/
theorem Run.of_invariant {step' : σ → ι → σ → Prop} {I : σ → Prop} (h0 : I s)
    (hstep : ∀ t a u, I t → step t a u → step' t a u ∧ I u) (h : Run step s acts t) :
    Run step' s acts t ∧ I t := by
  induction h with
  | nil => exact ⟨.nil, h0⟩
  | snoc _ hst ih =>
      rcases hstep _ _ _ ih.2 hst with ⟨hst', hinv⟩
      exact ⟨ih.1.snoc hst', hinv⟩

/-- Steps that agree under an invariant of both systems make the same runs. -/
theorem Run.iff_of_invariant {step' : σ → ι → σ → Prop} {I : σ → Prop} (h0 : I s)
    (hinv : ∀ t a u, I t → step t a u → I u)
    (hiff : ∀ t a u, I t → (step t a u ↔ step' t a u)) :
    Run step s acts t ↔ Run step' s acts t := by
  constructor
  · intro h
    refine (h.of_invariant h0 (fun t a u ht hst => ?_)).1
    exact ⟨(hiff t a u ht).mp hst, hinv t a u ht hst⟩
  · intro h
    refine (h.of_invariant h0 (fun t a u ht hst => ?_)).1
    have hst' := (hiff t a u ht).mpr hst
    exact ⟨hst', hinv t a u ht hst'⟩

theorem Run.append {acts' : List ι} {u : σ} (h : Run step s acts t) (h' : Run step t acts' u) :
    Run step s (acts ++ acts') u := by
  induction h' with
  | nil =>
      rw [List.append_nil]
      exact h
  | snoc _ hst ih =>
      rw [← List.append_assoc]
      exact ih.snoc hst

theorem Run.single {a : ι} (h : step s a t) : Run step s [a] t := Run.nil.snoc h

theorem Run.of_snoc {a : ι} (h : Run step s (acts ++ [a]) t) :
    ∃ u, Run step s acts u ∧ step u a t := by
  generalize hacts : acts ++ [a] = acts' at h
  cases h with
  | nil => exact absurd hacts (List.append_ne_nil_of_right_ne_nil acts (List.cons_ne_nil a []))
  | snoc hrun hst =>
      rcases List.append_inj' hacts rfl with ⟨rfl, hlast⟩
      rw [← List.singleton_inj.mp hlast] at hst
      exact ⟨_, hrun, hst⟩

/-- A run can be cut anywhere in its history. -/
theorem Run.split {acts' : List ι} (h : Run step s (acts ++ acts') t) :
    ∃ u, Run step s acts u ∧ Run step u acts' t := by
  induction acts' using List.reverseRecOn generalizing t with
  | nil =>
      rw [List.append_nil] at h
      exact ⟨t, h, .nil⟩
  | append_singleton acts' a ih =>
      rw [← List.append_assoc] at h
      rcases h.of_snoc with ⟨v, hrun, hst⟩
      rcases ih hrun with ⟨u, hfirst, hrest⟩
      exact ⟨u, hfirst, hrest.snoc hst⟩

/-! ### Simulations -/

section Simulations

variable {τ κ : Type*} {step' : τ → κ → τ → Prop}

/-- A system that makes a step of its own for some of the steps, and none for the
    others, follows every run. -/
theorem Run.simulate {I : List ι → σ → Prop} (f : σ → τ) (g : ι → Option κ)
    (hinv : ∀ acts t, Run step s acts t → I acts t)
    (hsome : ∀ acts t a u b, I acts t → step t a u → g a = some b → step' (f t) b (f u))
    (hnone : ∀ acts t a u, I acts t → step t a u → g a = none → f u = f t)
    (h : Run step s acts t) : Run step' (f s) (acts.filterMap g) (f t) := by
  induction h with
  | nil => exact .nil
  | @snoc acts t u a hrun hst ih =>
      rw [List.filterMap_append]
      cases hg : g a with
      | none =>
          rw [hnone _ _ _ _ (hinv _ _ hrun) hst hg, List.filterMap_cons_none hg,
            List.filterMap_nil, List.append_nil]
          exact ih
      | some b =>
          rw [List.filterMap_cons_some hg, List.filterMap_nil]
          exact ih.snoc (hsome _ _ _ _ _ (hinv _ _ hrun) hst hg)

/-- A run repeated in another system: what is observed of every step is observed of the
    steps that answer it, and each of those is allowed. -/
theorem Run.matched {ω : Type*} {R : σ → τ → Prop} (obs : ι → Option ω) (obs' : κ → Option ω)
    (Allowed : κ → Prop) {s' : τ}
    (hstep : ∀ t t' a u, R t t' → step t a u → ∃ acts' u', Run step' t' acts' u' ∧ R u u' ∧
      acts'.filterMap obs' = (obs a).toList ∧ ∀ b ∈ acts', Allowed b)
    (hR : R s s') (h : Run step s acts t) : ∃ acts' t', Run step' s' acts' t' ∧ R t t' ∧
      acts'.filterMap obs' = acts.filterMap obs ∧ ∀ b ∈ acts', Allowed b := by
  induction h with
  | nil => exact ⟨[], s', .nil, hR, rfl, fun b hb => absurd hb List.not_mem_nil⟩
  | @snoc acts t u a hrun hst ih =>
      rcases ih with ⟨acts', t', hrun', hRt, hobs, hall⟩
      rcases hstep t t' a u hRt hst with ⟨more, u', hmore, hRu, hobs', hall'⟩
      refine ⟨acts' ++ more, u', hrun'.append hmore, hRu, ?_, fun b hb => ?_⟩
      · rw [List.filterMap_append, List.filterMap_append, hobs, hobs']
        cases hg : obs a with
        | none => rw [List.filterMap_cons_none hg]; rfl
        | some o => rw [List.filterMap_cons_some hg]; rfl
      · rcases List.mem_append.mp hb with hb | hb
        · exact hall b hb
        · exact hall' b hb

end Simulations

/-! ### Draining -/

/-- The work of a system lowers a measure, and nothing but what comes from outside
    raises it. -/
structure Draining (step : σ → ι → σ → Prop) (I : σ → Prop) (Work Feed : ι → Prop)
    (μ : σ → Nat) : Prop where
  inv : ∀ t a u, I t → step t a u → I u
  work : ∀ t a u, I t → step t a u → Work a → μ u < μ t
  rest : ∀ t a u, I t → step t a u → ¬ Feed a → μ u ≤ μ t

section Draining

variable {I : σ → Prop} {Work Feed : ι → Prop} {μ : σ → Nat}

/-- Without anything from outside, there is no more work in a run than the measure says. -/
theorem Draining.count_le [DecidablePred Work] (hd : Draining step I Work Feed μ) (hs : I s)
    (h : Run step s acts t) (hfeed : ∀ a ∈ acts, ¬ Feed a) :
    acts.countP (fun a => decide (Work a)) + μ t ≤ μ s := by
  have hboth : acts.countP (fun a => decide (Work a)) + μ t ≤ μ s ∧ I t := by
    induction h with
    | nil => exact ⟨Nat.le_of_eq (Nat.zero_add _), hs⟩
    | @snoc acts t u a _ hst ih =>
        rcases ih (fun b hb => hfeed b (List.mem_append_left _ hb)) with ⟨hle, ht⟩
        have ha := hfeed a (List.mem_append_right _ (List.mem_singleton_self a))
        refine ⟨?_, hd.inv _ _ _ ht hst⟩
        rw [List.countP_append, List.countP_singleton]
        by_cases hwork : Work a
        · have hlt := hd.work _ _ _ ht hst hwork
          rw [decide_eq_true hwork, if_pos rfl]
          omega
        · have hrest := hd.rest _ _ _ ht hst ha
          rw [decide_eq_false hwork, if_neg Bool.false_ne_true]
          omega
  exact hboth.1

end Draining

end Transition
