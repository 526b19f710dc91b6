import VectorGuard.Lib.Transition
import VectorGuard.Theory.PatternCounter

/-!
# Counts of the Advisor

The counts of the advisor and the events they count, while the configuration changes.

A count goes up where an event enters the window and down where it leaves, two places
that a new configuration may separate: a disabled advisor evicts nothing, and another
width evicts more or fewer events than the one they entered under. `Counting` holds
nevertheless, as it does not mention the configuration. It asks of the window only what
every eviction from the front and every addition at the end keep.

## Main definitions

* `AdvisorOp`: What is done with an advisor.
* `Counting`: The counts are those of the window.

## Theorems

* `gate_cases`: What an event does to the window and the counts.
* `Counting.track`: A tracked event is counted, and what it evicts is not any more.
* `counting_of_run`: The counts are those of the window in every state.
-/

namespace VectorGuard

open SlidingWindow

/-- No count is zero. -/
def Positive (counts : Counts) : Prop := ∀ key, counts.lookup key ≠ some 0

theorem Positive.decrement {counts : Counts} (h : Positive counts) (key : PatternKey) :
    Positive (decrement counts key) := by
  intro k
  unfold VectorGuard.decrement
  cases hlookup : counts.lookup key with
  | none => exact h k
  | some c =>
      have hpos : c ≠ 0 := fun hzero => h key (by rw [hlookup, hzero])
      simp only [if_neg hpos]
      by_cases hone : c - 1 = 0
      · -- A count that comes to zero is erased.
        rw [if_pos hone]
        by_cases hk : k = key
        · rw [hk, AList.lookup_erase]
          exact (Option.some_ne_none 0).symm
        · rw [AList.lookup_erase_ne hk]
          exact h k
      · rw [if_neg hone]
        by_cases hk : k = key
        · rw [hk, AList.lookup_insert]
          exact fun heq => hone (Option.some.inj heq)
        · rw [AList.lookup_insert_ne hk]
          exact h k

theorem Positive.evict {counts : Counts} (h : Positive counts) (now width : Nat)
    (window : List Call) : Positive (AiAdvisor.evict now width window counts).2 := by
  induction window generalizing counts with
  | nil => exact h
  | cons c rest ih =>
      unfold AiAdvisor.evict
      split
      · cases patternKey c.2 with
        | none => exact ih h
        | some key => exact ih (h.decrement key)
      · exact h

/-- A count that goes up is positive, unless it wraps around. -/
theorem Positive.increment {counts : Counts} {keys : List PatternKey} (h : Positive counts)
    (htallies : Tallies counts keys) (key : PatternKey) (hroom : keys.count key + 1 < UInt32.size) :
    Positive (increment counts key) := by
  intro k
  by_cases hk : k = key
  · have hcount := tallies_increment htallies key hroom key
    rw [List.count_append, List.count_singleton_self] at hcount
    rw [hk]
    intro hzero
    rw [hzero] at hcount
    exact absurd hcount (Nat.succ_ne_zero _).symm
  · unfold VectorGuard.increment
    rw [AList.lookup_insert_ne hk]
    exact h k

theorem evict_sublist (now width : Nat) (window : List Call) (counts : Counts) :
    (AiAdvisor.evict now width window counts).1.Sublist window := by
  induction window generalizing counts with
  | nil => exact List.Sublist.refl []
  | cons c rest ih =>
      unfold AiAdvisor.evict
      split
      · cases patternKey c.2 with
        | none => exact (ih counts).cons c
        | some key => exact (ih (decrement counts key)).cons c
      · exact List.Sublist.refl _

/-- The counts are those of the window, and the window is in order. -/
structure Counting (adv : AiAdvisor) : Prop where
  counts : ∀ key, ((adv.counts.lookup key).getD 0).toNat
    = adv.window.countP (fun c => patternKey c.2 = some key)
  positive : ∀ key, adv.counts.lookup key ≠ some 0
  keyed : ∀ c ∈ adv.window, (patternKey c.2).isSome
  ordered : Ordered Prod.fst adv.window

theorem tallies_windowKeys_iff {counts : Counts} {window : List Call} :
    Tallies counts (windowKeys window) ↔ ∀ key, ((counts.lookup key).getD 0).toNat
      = window.countP (fun c => patternKey c.2 = some key) := by
  unfold Tallies windowKeys
  refine forall_congr' (fun key => ?_)
  rw [List.count_filterMap]
  simp only [Bool.beq_eq_decide_eq]

variable {adv : AiAdvisor} {now : Nat} {event : NormalizedEvent} {key : PatternKey}

theorem patternKey_of_trackedKey (hkey : trackedKey event = some key) :
    patternKey event = some key := by
  unfold trackedKey at hkey
  split at hkey
  · exact hkey
  · exact absurd hkey (Option.some_ne_none key).symm

/-- An event is tracked, or leaves the window and the counts as they are. -/
theorem gate_cases (adv : AiAdvisor) (now : Nat) (event : NormalizedEvent) :
    (adv.gate now event).1 = adv ∨ ∃ key cooldowns, trackedKey event = some key ∧
      (adv.gate now event).1 = { adv.track now event key with cooldowns := cooldowns } := by
  cases henabled : adv.cfg.enabled with
  | false =>
      left
      unfold AiAdvisor.gate
      rw [henabled]
      rfl
  | true =>
      cases hkey : trackedKey event with
      | none =>
          left
          rw [gate_untracked henabled hkey]
      | some key =>
          right
          rcases gate_tracked now henabled hkey with ⟨count, context, _, hgate⟩
          rw [hgate]
          split
          · exact ⟨key, _, rfl, rfl⟩
          · split
            · exact ⟨key, _, rfl, rfl⟩
            · exact ⟨key, _, rfl, rfl⟩

/-- A tracked event is counted, and what it evicts is not any more. -/
theorem Counting.track (h : Counting adv) (hkey : trackedKey event = some key)
    (hlatest : UpTo Prod.fst now adv.window)
    (hfew : (adv.track now event key).window.length < UInt32.size) :
    Counting (adv.track now event key) := by
  have hpattern := patternKey_of_trackedKey hkey
  have htallies : Tallies adv.counts (windowKeys adv.window) := tallies_windowKeys_iff.mpr h.counts
  have hcounts := (evict_eq now (fromSecs adv.cfg.windowSecs) adv.window adv.counts htallies).2
  have hpositive := Positive.evict h.positive now (fromSecs adv.cfg.windowSecs) adv.window
  have hsub := evict_sublist now (fromSecs adv.cfg.windowSecs) adv.window adv.counts
  unfold AiAdvisor.track at hfew ⊢
  dsimp only at hfew ⊢
  generalize AiAdvisor.evict now (fromSecs adv.cfg.windowSecs) adv.window adv.counts = kept
    at hcounts hpositive hsub hfew ⊢
  -- The count does not wrap around: it counts some of the events in the window.
  have hroom : (windowKeys kept.1).count key + 1 < UInt32.size := by
    have hle : (windowKeys kept.1).count key ≤ kept.1.length :=
      List.count_le_length.trans (List.length_filterMap_le _ _)
    rw [List.length_append, List.length_singleton] at hfew
    omega
  have hkeys : windowKeys (kept.1 ++ [(now, event)]) = windowKeys kept.1 ++ [key] := by
    unfold windowKeys
    rw [List.filterMap_append, List.filterMap_cons_some (by exact hpattern), List.filterMap_nil]
  refine ⟨tallies_windowKeys_iff.mp ?_, hpositive.increment hcounts key hroom, ?_, ?_⟩
  · rw [hkeys]
    exact tallies_increment hcounts key hroom
  · intro c hc
    rcases List.mem_append.mp hc with hc | hc
    · exact h.keyed c (hsub.subset hc)
    · rw [List.mem_singleton.mp hc, hpattern]
      rfl
  · refine List.pairwise_append.mpr ⟨h.ordered.sublist hsub, List.pairwise_singleton _ _, ?_⟩
    intro c hc d hd
    rw [List.mem_singleton.mp hd]
    exact hlatest c (hsub.subset hc)

/-! ### Runs -/

/-- What is done with an advisor: an event is analyzed at an instant, or the
    configuration replaced. -/
inductive AdvisorOp
  | analyze (now : Nat) (event : NormalizedEvent)
  | updateConfig (cfg : AiAdvisorConfig)

/-- The instant of an operation that takes place at one. -/
def AdvisorOp.instant : AdvisorOp → Option Nat
  | analyze now _ => some now
  | updateConfig _ => none

namespace AiAdvisor

def apply (adv : AiAdvisor) : AdvisorOp → AiAdvisor
  | .analyze now event => (adv.gate now event).1
  | .updateConfig cfg => adv.updateConfig cfg

/-- An operation, after which there are fewer than `2 ^ 32` events in the window. -/
def Step (adv : AiAdvisor) (op : AdvisorOp) (adv' : AiAdvisor) : Prop :=
  adv' = adv.apply op ∧ adv'.window.length < UInt32.size

end AiAdvisor

/-- The instants of some operations. -/
def instants (ops : List AdvisorOp) : List Nat := ops.filterMap AdvisorOp.instant

theorem instants_append_analyze (ops : List AdvisorOp) (now : Nat) (event : NormalizedEvent) :
    instants (ops ++ [.analyze now event]) = instants ops ++ [now] := by
  unfold instants
  rw [List.filterMap_append]
  rfl

/-- The events in the window entered it at some of the instants. -/
def EnteredAt (times : List Nat) (adv : AiAdvisor) : Prop := ∀ c ∈ adv.window, c.1 ∈ times

theorem EnteredAt.track {times : List Nat} (h : EnteredAt times adv) (key : PatternKey) :
    EnteredAt (times ++ [now]) (adv.track now event key) := by
  intro c hc
  rcases List.mem_append.mp hc with hc | hc
  · exact List.mem_append_left _ (h c ((evict_sublist _ _ _ _).subset hc))
  · rw [List.mem_singleton.mp hc]
    exact List.mem_append_right _ List.mem_cons_self

/-- An operation keeps the counts those of the window, as long as the clock does not
    go back. -/
theorem Counting.step {ops : List AdvisorOp} {op : AdvisorOp} {adv' : AiAdvisor}
    (h : Counting adv) (hentered : EnteredAt (instants ops) adv)
    (hclock : (instants (ops ++ [op])).Pairwise (· ≤ ·)) (hstep : adv.Step op adv') :
    Counting adv' ∧ EnteredAt (instants (ops ++ [op])) adv' := by
  rcases hstep with ⟨hadv, hfew⟩
  subst hadv
  cases op with
  | updateConfig cfg =>
      -- A new configuration is no call.
      have hsame : instants (ops ++ [.updateConfig cfg]) = instants ops := by
        unfold instants
        rw [List.filterMap_append]
        exact List.append_nil _
      rw [hsame]
      exact ⟨⟨h.counts, h.positive, h.keyed, h.ordered⟩, hentered⟩
  | analyze now event =>
      rw [instants_append_analyze] at hclock ⊢
      -- The call is the latest by the clock.
      have hlatest : UpTo Prod.fst now adv.window := fun c hc =>
        (List.pairwise_append.mp hclock).2.2 c.1 (hentered c hc) now List.mem_cons_self
      unfold AiAdvisor.apply at hfew ⊢
      dsimp only at hfew ⊢
      rcases gate_cases adv now event with hgate | ⟨key, cooldowns, hkey, hgate⟩
      · rw [hgate]
        exact ⟨h, fun c hc => List.mem_append_left _ (hentered c hc)⟩
      · rw [hgate] at hfew ⊢
        have htrack := h.track hkey hlatest hfew
        exact ⟨⟨htrack.counts, htrack.positive, htrack.keyed, htrack.ordered⟩,
          hentered.track key⟩

theorem counting_new (cfg : AiAdvisorConfig) (rulesPath : String) :
    Counting (AiAdvisor.new cfg rulesPath) where
  counts _ := rfl
  positive _ := (Option.some_ne_none 0).symm
  keyed _ hc := absurd hc List.not_mem_nil
  ordered := List.Pairwise.nil

/-- Whatever is analyzed and however the configuration changes, the counts are those of
    the window. -/
theorem counting_of_run (cfg : AiAdvisorConfig) (rulesPath : String) (ops : List AdvisorOp)
    (adv : AiAdvisor) (hclock : (instants ops).Pairwise (· ≤ ·))
    (hrun : Transition.Run AiAdvisor.Step (AiAdvisor.new cfg rulesPath) ops adv) :
    Counting adv := by
  have hinv := hrun.invariant
    (I := fun ops adv => (instants ops).Pairwise (· ≤ ·) →
      Counting adv ∧ EnteredAt (instants ops) adv)
    (fun _ => ⟨counting_new cfg rulesPath, fun c hc => absurd hc List.not_mem_nil⟩) ?_
  · exact (hinv hclock).1
  · intro ops adv op adv' _ ih hstep hclock
    have hbefore : (instants ops).Pairwise (· ≤ ·) := by
      unfold instants at hclock ⊢
      rw [List.filterMap_append] at hclock
      exact (List.pairwise_append.mp hclock).1
    rcases ih hbefore with ⟨hcounting, hentered⟩
    exact hcounting.step hentered hclock hstep

/-- A disabled advisor keeps an event for ten seconds that it had entered for one. -/
theorem counting_switched_off :
    ∃ adv, Transition.Run AiAdvisor.Step (AiAdvisor.new eagerAdvisor "/rules")
        [.analyze 0 (.plainAlert "nc"), .updateConfig AiAdvisorConfig.default,
          .analyze 10000000000 (.plainAlert "sh")] adv ∧
      adv.window = [(0, .plainAlert "nc")] ∧ Counting adv := by
  have hrun : Transition.Run AiAdvisor.Step (AiAdvisor.new eagerAdvisor "/rules") [] _ :=
    Transition.Run.nil
  have hrun := hrun.snoc (show AiAdvisor.Step _ (.analyze 0 (.plainAlert "nc")) _ from
    ⟨rfl, by decide⟩)
  have hrun := hrun.snoc (show AiAdvisor.Step _ (.updateConfig AiAdvisorConfig.default) _ from
    ⟨rfl, by decide⟩)
  have hrun := hrun.snoc (show AiAdvisor.Step _ (.analyze 10000000000 (.plainAlert "sh")) _ from
    ⟨rfl, by decide⟩)
  exact ⟨_, hrun, rfl, counting_of_run eagerAdvisor "/rules" _ _ (by decide) hrun⟩

end VectorGuard
