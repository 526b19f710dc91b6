import VectorGuard.Theory.WorkerIsolation

/-!
# Copies for the Worker

What becomes of the copies that the pipeline makes for the slow worker.

A copy is offered once, right after its event is recorded. It is dropped on the spot or
goes into a channel from which the worker takes the copies one by one, each as it was
recorded. So the worker analyses some of the recorded events, none of them twice, in
their order, and the others are counted.

A backlog is reported when the count of the dropped copies gets to a power of two. The
count saturates and its largest value is none, so there are as many reports as binary
digits in the count.

## Main definitions

* `DataflowAction.offered`, `forwarded`, `analyzed`: The copies of a step.
* `reports`: How often a count has been reported.

## Theorems

* `reports_saturatingSucc`: One more drop, and perhaps one more report.
* `copies_of_run`: Every copy is accounted for.
-/

namespace VectorGuard

open Transition

namespace DataflowAction

def offered : DataflowAction → List Numbered
  | .forward copy => [copy]
  | .drop copy _ => [copy]
  | _ => []

def forwarded : DataflowAction → List Numbered
  | .forward copy => [copy]
  | _ => []

def analyzed : DataflowAction → List Numbered
  | .analyze n ev _ => [(n, ev)]
  | _ => []

def isDrop : DataflowAction → Bool
  | .drop _ _ => true
  | _ => false

/-- A backlog is reported. -/
def isReport : DataflowAction → Bool
  | .drop _ warned => warned
  | _ => false

/-- What is forwarded is some of what is offered, and the rest is dropped. -/
theorem forwarded_sublist_offered (acts : List DataflowAction) :
    (acts.flatMap forwarded).Sublist (acts.flatMap offered) ∧
      (acts.flatMap offered).length = (acts.flatMap forwarded).length + acts.countP isDrop := by
  induction acts with
  | nil => exact ⟨List.Sublist.slnil, rfl⟩
  | cons a acts ih =>
      rcases ih with ⟨hsub, hlen⟩
      have hone : a.forwarded.Sublist a.offered ∧
          a.offered.length = a.forwarded.length + if isDrop a then 1 else 0 := by
        cases a <;> exact ⟨by simp [forwarded, offered], rfl⟩
      simp only [List.flatMap_cons, List.countP_cons, List.length_append]
      exact ⟨hone.1.append hsub, by omega⟩

end DataflowAction

open DataflowAction

/-! ### Reports -/

/-- How often a count has been reported: once for each of its binary digits. -/
def reports (n : Nat) : Nat := if n = 0 then 0 else n.log2 + 1

theorem reports_succ (n : Nat) :
    reports (n + 1) = reports n + if (n + 1).isPowerOfTwo then 1 else 0 := by
  unfold reports
  rw [if_neg (Nat.succ_ne_zero n)]
  by_cases hn : n = 0
  · subst hn
    rw [if_pos rfl, if_pos Nat.isPowerOfTwo_one]
    rfl
  · rw [if_neg hn]
    have hbounds := (Nat.log2_eq_iff hn).mp rfl
    by_cases hpow : (n + 1).isPowerOfTwo
    · rcases hpow with ⟨k, hk⟩
      rw [if_pos ⟨k, hk⟩, hk, Nat.log2_two_pow]
      -- The count was one short of the power.
      have hlog : n.log2 + 1 = k := by
        have hlow : n.log2 < k := (Nat.log2_lt hn).mpr (by omega)
        have hhigh : k ≤ n.log2 + 1 := by
          refine (Nat.pow_le_pow_iff_right (a := 2) (by decide)).mp ?_
          omega
        omega
      omega
    · have hne : n + 1 ≠ 2 ^ (n.log2 + 1) := fun heq => hpow ⟨_, heq⟩
      have hlog : (n + 1).log2 = n.log2 :=
        (Nat.log2_eq_iff (Nat.succ_ne_zero n)).mpr ⟨by omega, by omega⟩
      rw [if_neg hpow, hlog]

theorem not_isPowerOfTwo_u64Max : ¬ u64Max.isPowerOfTwo := by decide

/-- One more drop, and one more report if it makes the count a power of two. -/
theorem reports_saturatingSucc (n : Nat) (hn : n ≤ u64Max) :
    reports (saturatingSucc n) =
      reports n + if decide (saturatingSucc n).isPowerOfTwo = true then 1 else 0 := by
  unfold saturatingSucc
  by_cases hmax : n = u64Max
  · have hsame : min (n + 1) u64Max = u64Max := by omega
    rw [hsame, decide_eq_false not_isPowerOfTwo_u64Max, if_neg Bool.false_ne_true, hmax]
    rfl
  · have hsucc : min (n + 1) u64Max = n + 1 := by omega
    rw [hsucc, reports_succ]
    simp only [decide_eq_true_eq]

/-! ### Copies -/

/-- The copy that has not been offered yet. -/
def PipelineTaskAt.toOffer : PipelineTaskAt → List Numbered
  | .advising copy => [copy]
  | _ => []

/-- The copy that is analysed. -/
def SlowWorkerAt.inHand : SlowWorkerAt → List Numbered
  | .analyzing copy => [copy]
  | _ => []

namespace Dataflow

variable {glob : GlobCrate} {term : Terminal} {fromStr : String → Option RuleSet}
  {s t : Dataflow glob term} {a : DataflowAction} {acts : List DataflowAction}

/-- The copies the worker has before it, the one in its hand first. -/
def backlog (s : Dataflow glob term) : List Numbered := s.worker.inHand ++ s.slow.queue

/-- Whatever is recorded is offered. -/
theorem fifo_offered : Fifo (DataflowStep fromStr) (fun _ : Dataflow glob term => True)
    (fun s => s.pipeline.toOffer) recorded offered (fun _ => True) where
  inv _ _ _ _ _ := trivial
  conserve t a u _ hst _ := by
    cases hst with
    | receive ev rest hphase hlistening hqueue =>
        rw [hphase]
        cases hverdict : pipelineEvent glob t.scopeFilter t.fastPath ev with
        | none => rfl
        | some ev' => rfl
    | forward _ hphase | drop _ hphase | deliver _ hphase | hangUp _ hphase | changed hphase
    | borrow hphase | rebuild _ _ _ hphase =>
        rw [hphase]
        rfl
    | _ => exact List.append_nil _
  stays _ _ _ _ _ := trivial
  closed _ _ _ _ h := absurd trivial h

/-- Whatever is forwarded is analysed, as it is. -/
theorem fifo_backlog : Fifo (DataflowStep fromStr) (fun _ : Dataflow glob term => True)
    backlog forwarded analyzed (fun _ => True) where
  inv _ _ _ _ _ := trivial
  conserve t a u _ hst _ := by
    unfold backlog
    cases hst with
    | forward copy hphase htakes => exact List.append_assoc _ _ _
    | take copy rest hphase hqueue =>
        simp only [hphase, hqueue, SlowWorkerAt.inHand, forwarded, analyzed, Channel.queue_rest,
          List.tail_cons, List.append_nil, List.nil_append, List.cons_append]
    | analyze copy provider qdrantSearch hphase =>
        simp only [hphase, SlowWorkerAt.inHand, forwarded, analyzed, List.append_nil,
          List.nil_append]
    | finish hphase | workerChanged hphase | workerBorrow hphase | workerRebuild _ _ _ _ hphase =>
        rw [hphase]
        exact List.append_nil _
    | _ => exact List.append_nil _
  stays _ _ _ _ _ := trivial
  closed _ _ _ _ h := absurd trivial h

/-- The count of the drops, and how often it has been reported. -/
structure Tallied (acts : List DataflowAction) (s : Dataflow glob term) : Prop where
  drops : s.slowDrops = min (acts.countP isDrop) u64Max
  reported : acts.countP isReport = reports s.slowDrops

theorem Tallied.step (h : Tallied acts s) (hst : DataflowStep fromStr s a t) :
    Tallied (acts ++ [a]) t := by
  cases hst with
  | drop copy hphase hfull =>
      have hle : s.slowDrops ≤ u64Max := by
        rw [h.drops]
        exact Nat.min_le_right _ _
      refine ⟨?_, ?_⟩
      · have hdrops := h.drops
        rw [List.countP_append, List.countP_singleton]
        simp only [isDrop, if_true, saturatingSucc]
        omega
      · rw [List.countP_append, List.countP_singleton, h.reported]
        exact (reports_saturatingSucc s.slowDrops hle).symm
  | _ =>
      refine ⟨?_, ?_⟩
      · rw [List.countP_append]
        exact h.drops
      · rw [List.countP_append]
        exact h.reported

/-- The worker analyses events as they were recorded, none twice and in their order. Every
    other recorded event is still before it or has been dropped and counted, and every
    binary digit of the count has been reported once. -/
theorem copies_of_run {fs : FileSystem} {cfg : Config} {slowPath : SlowPath} {st : term.State}
    (hrun : Run (DataflowStep fromStr) (init fromStr fs cfg slowPath st : Dataflow glob term) acts s) :
    (acts.flatMap analyzed).Sublist (numbered (acts.flatMap DataflowAction.verdict)) ∧
      (numbered (acts.flatMap DataflowAction.verdict)).length =
        (acts.flatMap analyzed).length + s.backlog.length + s.pipeline.toOffer.length +
          acts.countP isDrop ∧
      s.slowDrops = min (acts.countP isDrop) u64Max ∧
      acts.countP isReport = reports s.slowDrops := by
  have hoffered := fifo_offered.conserved trivial hrun trivial
  have hbacklog := fifo_backlog.conserved trivial hrun trivial
  have htallied : Tallied acts s :=
    hrun.invariant ⟨rfl, rfl⟩ (fun _ _ _ _ _ h hst => h.step hst)
  rcases forwarded_sublist_offered acts with ⟨hsub, hlen⟩
  -- Nothing was there at the start.
  change acts.flatMap recorded = _ at hoffered
  change acts.flatMap forwarded = _ at hbacklog
  rw [← (counted_of_run hrun).numbers]
  refine ⟨?_, ?_, htallied.drops, htallied.reported⟩
  · rw [hoffered]
    refine List.Sublist.trans ?_ (hsub.trans (List.sublist_append_left _ _))
    rw [hbacklog]
    exact List.sublist_append_left _ _
  · rw [hoffered, List.length_append, hlen, hbacklog, List.length_append]
    omega

end Dataflow

/-- The `ls` is in the worker's channel. -/
theorem shownLs_waits :
    ∃ s, Run (DataflowStep (fun _ => none)) quietDaemon shownLs s ∧
      s.slow.queue = [(0, .plainExec "ls")] ∧
      1 = 0 + s.backlog.length + s.pipeline.toOffer.length + 0 := by
  rcases exists_run_shownLs with ⟨s, hrun, _, _, hqueue⟩
  exact ⟨s, hrun, hqueue, (Dataflow.copies_of_run hrun).2.1⟩

end VectorGuard
