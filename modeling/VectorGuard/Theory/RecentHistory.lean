import Mathlib.Algebra.Group.Nat.Defs
import VectorGuard.Theory.LivePids

/-!
# Recent History

What the ring of a process is after any number of operations on the window.

A push appends, drops from the front by age, and then by number. The two loops see
only what earlier pushes have left, but what they have dropped could not come back:
the cutoff never falls for timestamps that do not, and a suffix of the history that
was too long stays too long. So the ring stands for the history in the sense of a
sliding window, and right after a push of its own it is more than that: the longest
suffix of the history that is short and recent enough.

A push never leaves its ring empty, and so pruning the empty rings does nothing.

## Main definitions

* `WindowOp`: An operation on the window.
* `pushedFor`: What was pushed for a process.
* `KeepsRecent`: The ring of a process is its recent history.

## Theorems

* `representsRings`: What every run of operations preserves.
* `keepsRecent_afterOps`: The ring of every process after every run.
-/

namespace VectorGuard

open SlidingWindow

/-- An operation on the window. -/
inductive WindowOp
  | push (pid : UInt32) (timestampNs : UInt64) (vector : List Float32)
  | pruneStalePids

namespace WindowOp

/-- The process an operation is on. -/
def pid? : WindowOp → Option UInt32
  | push pid _ _ => some pid
  | pruneStalePids => none

/-- The entry that an operation pushes for a process. -/
def entryFor (pid : UInt32) : WindowOp → Option (UInt64 × List Float32)
  | push p ts v => if p = pid then some (ts, v) else none
  | pruneStalePids => none

end WindowOp

/-- The window after an operation. -/
def ContextWindow.apply (cw : ContextWindow) : WindowOp → ContextWindow
  | .push pid ts v => cw.push pid ts v
  | .pruneStalePids => cw.pruneStalePids

/-- The window after some operations. -/
def ContextWindow.afterOps (cw : ContextWindow) (ops : List WindowOp) : ContextWindow :=
  ops.foldl ContextWindow.apply cw

/-- What was pushed for a process, in order. -/
def pushedFor (ops : List WindowOp) (pid : UInt32) : Ring :=
  ops.filterMap (WindowOp.entryFor pid)

/-- The entries of a ring that may be in it: at most so many, none older than the
    last entry of the history by more than the window, in nanoseconds. -/
def WithinLimits (windowNs : Nat) (history r : Ring) : Prop :=
  r.length ≤ maxPerPid ∧
    ∀ last, history.getLast? = some last → ∀ e ∈ r, last.1.toNat - windowNs ≤ e.1.toNat

/-- The ring of a process is the longest suffix of its history within the limits,
    it is not empty if anything was pushed, and no operation on another process
    changes what is stored for it. -/
structure KeepsRecent (windowNs : Nat) (cw : ContextWindow) (pid : UInt32) (history : Ring) :
    Prop where
  longest : LongestSuffix (WithinLimits windowNs history) (cw.ring pid) history
  nonempty : history ≠ [] → ∃ r, cw.store.lookup pid = some r ∧ r ≠ []
  frame : ∀ op : WindowOp, op.pid? ≠ some pid →
    (cw.apply op).store.lookup pid = cw.store.lookup pid

/-- The timestamps of a process do not decrease. -/
def Chronological (ops : List WindowOp) (pid : UInt32) : Prop :=
  (pushedFor ops pid).Pairwise (fun e e' => e.1 ≤ e'.1)

instance (ops : List WindowOp) (pid : UInt32) : Decidable (Chronological ops pid) :=
  inferInstanceAs (Decidable (List.Pairwise _ _))

/-- What every operation preserves, for one process. -/
structure RingInvariant (width : Nat) (cw : ContextWindow) (pid : UInt32) (history : Ring) :
    Prop where
  windowNs : cw.windowNs.toNat = width
  represents : Represents entryTime width (lastN maxPerPid) (cw.ring pid) history
  /-- Nothing in the ring has left the window of the last push. -/
  fresh : ∀ last, history.getLast? = some last → ∀ e ∈ cw.ring pid,
    entryTime last - entryTime e ≤ width
  stored : history ≠ [] → ∃ r, cw.store.lookup pid = some r ∧ r ≠ []
  /-- No ring is empty. -/
  noEmpty : ∀ r, cw.store.lookup pid = some r → r ≠ []

theorem ordered_of_chronological {ops : List WindowOp} {pid : UInt32} (h : Chronological ops pid) :
    Ordered entryTime (pushedFor ops pid) :=
  h.imp (fun hle => UInt64.le_iff_toNat_le.mp hle)

theorem pushedFor_snoc (ops : List WindowOp) (op : WindowOp) (pid : UInt32) :
    pushedFor (ops ++ [op]) pid = pushedFor ops pid ++ (op.entryFor pid).toList := by
  unfold pushedFor
  rw [List.filterMap_append]
  cases h : op.entryFor pid with
  | none =>
      rw [List.filterMap_cons_none h]
      rfl
  | some e =>
      rw [List.filterMap_cons_some h]
      rfl

section Step

variable {width : Nat} {cw : ContextWindow} {pid : UInt32} {history : Ring}

/-- An operation on no process or on another one leaves what is stored alone, as
    no ring is empty. -/
theorem lookup_apply_of_ne (hnoEmpty : ∀ r, cw.store.lookup pid = some r → r ≠ []) (op : WindowOp)
    (hne : op.pid? ≠ some pid) : (cw.apply op).store.lookup pid = cw.store.lookup pid := by
  cases op with
  | push p ts v =>
      have hpid : pid ≠ p := fun heq => hne (congrArg some heq.symm)
      unfold ContextWindow.apply ContextWindow.push
      rw [AList.lookup_insert_ne hpid]
  | pruneStalePids =>
      unfold ContextWindow.apply
      simp only [lookup_pruneStalePids]
      cases hlookup : cw.store.lookup pid with
      | none =>
          rfl
      | some r =>
          have hr : (!r.isEmpty) = true := by
            rw [Bool.not_eq_true', List.isEmpty_eq_false_iff]
            exact hnoEmpty r hlookup
          rw [Option.filter_some, if_pos hr]

theorem windowNs_apply (cw : ContextWindow) (op : WindowOp) :
    (cw.apply op).windowNs = cw.windowNs := by
  cases op <;> rfl

/-- An operation on no process or on another one preserves the invariant. -/
theorem RingInvariant.of_ne (h : RingInvariant width cw pid history) (op : WindowOp)
    (hne : op.pid? ≠ some pid) : RingInvariant width (cw.apply op) pid history := by
  have hlookup := lookup_apply_of_ne h.noEmpty op hne
  have hring : (cw.apply op).ring pid = cw.ring pid := by
    unfold ContextWindow.ring
    rw [hlookup]
  refine ⟨by rw [windowNs_apply, h.windowNs], ?_, ?_, ?_, ?_⟩
  · rw [hring]
    exact h.represents
  · rw [hring]
    exact h.fresh
  · rw [hlookup]
    exact h.stored
  · rw [hlookup]
    exact h.noEmpty

/-- A push for the process preserves the invariant. -/
theorem RingInvariant.push (h : RingInvariant width cw pid history) (ts : UInt64)
    (v : List Float32) (hordered : Ordered entryTime (history ++ [(ts, v)])) :
    RingInvariant width (cw.push pid ts v) pid (history ++ [(ts, v)]) := by
  have hwindow : Ordered entryTime (cw.ring pid ++ [(ts, v)]) :=
    hordered.sublist (h.represents.sub.append (List.Sublist.refl _))
  have hring : (cw.push pid ts v).ring pid
      = lastN maxPerPid (recent entryTime width (entryTime (ts, v)) (cw.ring pid ++ [(ts, v)])) := by
    rw [ring_push_self, prunedRing_eq _ _ _ hwindow, h.windowNs]
    rfl
  have hlookup : (cw.push pid ts v).store.lookup pid
      = some (ContextWindow.prunedRing (cw.ring pid ++ [(ts, v)])
        (ContextWindow.saturatingSub ts cw.windowNs)) := by
    unfold ContextWindow.push
    rw [AList.lookup_insert]
    rfl
  refine ⟨h.windowNs, ?_, ?_, ?_, ?_⟩
  · rw [hring]
    exact h.represents.push (trimming_lastN maxPerPid) (ts, v) hordered
  · -- The loops have just run with the time of the last entry.
    intro last hlast e he
    rw [List.getLast?_append_of_ne_nil _ (List.cons_ne_nil _ _), List.getLast?_singleton,
      Option.some.injEq] at hlast
    rw [hring] at he
    rw [← hlast]
    exact of_decide_eq_true (List.mem_filter.mp ((lastN_suffix _ _).subset he)).2
  · intro _
    exact ⟨_, hlookup, prunedRing_push_ne_nil _ _ _ _⟩
  · intro r hr
    rw [hlookup, Option.some.injEq] at hr
    rw [← hr]
    exact prunedRing_push_ne_nil _ _ _ _

/-- A ring with the invariant is the last recent entries of the history. -/
theorem RingInvariant.keepsRecent (h : RingInvariant width cw pid history)
    (hordered : Ordered entryTime history) : KeepsRecent width cw pid history := by
  refine ⟨?_, h.stored, fun op hne => lookup_apply_of_ne h.noEmpty op hne⟩
  cases hlast : history.getLast? with
  | none =>
      -- Nothing was pushed.
      rw [List.getLast?_eq_none_iff] at hlast
      have hnil : cw.ring pid = [] := List.sublist_nil.mp (hlast ▸ h.represents.sub)
      rw [hnil, hlast]
      refine ⟨List.suffix_rfl, ⟨Nat.zero_le _, fun _ _ e he => absurd he List.not_mem_nil⟩, ?_⟩
      exact fun s hs _ => hs
  | some last =>
      have hup : UpTo entryTime (entryTime last) history := by
        intro e he
        rcases List.getLast?_eq_some_iff.mp hlast with ⟨front, rfl⟩
        rcases List.mem_append.mp he with hfront | hself
        · exact (List.pairwise_append.mp hordered).2.2 e hfront last List.mem_cons_self
        · exact Nat.le_of_eq (congrArg entryTime (List.mem_singleton.mp hself))
      have hring : cw.ring pid
          = lastN maxPerPid (recent entryTime width (entryTime last) history) := by
        rw [← h.represents.recent_eq _ hup, recent_eq_self (h.fresh last hlast)]
      have hlongest : LongestSuffix
          (fun r => r.length ≤ maxPerPid ∧ ∀ e ∈ r, entryTime last - entryTime e ≤ width)
          (lastN maxPerPid (recent entryTime width (entryTime last) history)) history :=
        longestSuffix_lastN_recent maxPerPid (entryTime last) history hordered
      -- The cutoff of the code, which stops at zero, in place of an age.
      have hlimits : ∀ r, WithinLimits width history r ↔
          r.length ≤ maxPerPid ∧ ∀ e ∈ r, entryTime last - entryTime e ≤ width := by
        intro r
        unfold WithinLimits entryTime
        rw [hlast]
        simp only [Option.some.injEq, forall_eq', Nat.sub_le_iff_le_add, Nat.add_comm]
      rw [hring]
      exact ⟨hlongest.suffix, (hlimits _).mpr hlongest.holds,
        fun s hs hP => hlongest.longest s hs ((hlimits s).mp hP)⟩

end Step

theorem afterOps_snoc (cw : ContextWindow) (ops : List WindowOp) (op : WindowOp) :
    cw.afterOps (ops ++ [op]) = (cw.afterOps ops).apply op := by
  unfold ContextWindow.afterOps
  rw [List.foldl_append, List.foldl_cons, List.foldl_nil]

/-- The invariant holds after every run of operations from an empty window. -/
theorem representsRings (windowSecs : UInt64) (hfits : windowSecs.toNat * 1000000000 < 2 ^ 64)
    (dim : Nat) (ops : List WindowOp) (pid : UInt32) (hclock : Chronological ops pid) :
    RingInvariant (windowSecs.toNat * 1000000000) ((ContextWindow.new windowSecs dim).afterOps ops)
      pid (pushedFor ops pid) := by
  -- By induction on the operations from their end, as the window takes them.
  induction ops using List.reverseRecOn with
  | nil =>
      have hns : (1000000000 : UInt64).toNat = 1000000000 := rfl
      refine ⟨?_, Represents.nil (trimming_lastN maxPerPid), ?_, ?_, ?_⟩
      · exact (UInt64.toNat_mul _ _).trans (by rw [hns, Nat.mod_eq_of_lt hfits])
      · exact fun last hlast => absurd hlast (by simp only [pushedFor, List.filterMap_nil,
          List.getLast?_nil, reduceCtorEq, not_false_eq_true])
      · exact fun hne => absurd rfl hne
      · exact fun r hr => absurd hr (by simp only [ContextWindow.afterOps, List.foldl_nil,
          ContextWindow.new, AList.lookup_empty, reduceCtorEq, not_false_eq_true])
  | append_singleton ops op ih =>
      have hordered := ordered_of_chronological hclock
      unfold Chronological at hclock
      rw [pushedFor_snoc] at hclock hordered ⊢
      have hbefore := ih (List.pairwise_append.mp hclock).1
      rw [afterOps_snoc]
      by_cases hpid : op.pid? = some pid
      · cases op with
        | push p ts v =>
            have heq : p = pid := Option.some.inj hpid
            subst heq
            have hentry : (WindowOp.push p ts v).entryFor p = some (ts, v) := if_pos rfl
            rw [hentry, Option.toList_some] at hordered ⊢
            exact hbefore.push ts v hordered
        | pruneStalePids =>
            exact absurd hpid (by simp only [WindowOp.pid?, reduceCtorEq, not_false_eq_true])
      · have hentry : op.entryFor pid = none := by
          cases op with
          | push p ts v => exact if_neg (fun heq => hpid (congrArg some heq))
          | pruneStalePids => rfl
        rw [hentry, Option.toList_none, List.append_nil]
        exact hbefore.of_ne op hpid

/-- After every run of operations with clocks that do not go back, the ring of every
    process is its recent history. -/
theorem keepsRecent_afterOps (windowSecs : UInt64)
    (hfits : windowSecs.toNat * 1000000000 < 2 ^ 64) (dim : Nat) (ops : List WindowOp)
    (hclock : ∀ pid, Chronological ops pid) (pid : UInt32) :
    KeepsRecent (windowSecs.toNat * 1000000000) ((ContextWindow.new windowSecs dim).afterOps ops)
      pid (pushedFor ops pid) :=
  (representsRings windowSecs hfits dim ops pid (hclock pid)).keepsRecent
    (ordered_of_chronological (hclock pid))

/-- Two pushes for a process, ten seconds apart, and one for another between
    them. -/
def threePushes : List WindowOp :=
  [.push 1 0 [1], .pruneStalePids, .push 2 20000000000 [1], .push 1 10000000000 [0]]

theorem chronological_threePushes (pid : UInt32) : Chronological threePushes pid := by
  by_cases hone : pid = 1
  · subst hone
    decide
  · by_cases htwo : pid = 2
    · subst htwo
      decide
    · have hnone : pushedFor threePushes pid = [] := by
        refine List.filterMap_eq_nil_iff.mpr (fun op hop => ?_)
        simp only [threePushes, List.mem_cons, List.not_mem_nil, or_false] at hop
        rcases hop with rfl | rfl | rfl | rfl
        · exact if_neg (fun heq => hone heq.symm)
        · rfl
        · exact if_neg (fun heq => htwo heq.symm)
        · exact if_neg (fun heq => hone heq.symm)
      unfold Chronological
      rw [hnone]
      exact List.Pairwise.nil

/-- In a window of five seconds only the second push is left. -/
theorem keepsRecent_threePushes :
    KeepsRecent 5000000000 ((ContextWindow.new 5 1).afterOps threePushes) 1
      [(0, [1]), (10000000000, [0])] :=
  keepsRecent_afterOps 5 (by decide) 1 threePushes chronological_threePushes 1

end VectorGuard
