import Mathlib.Data.List.Infix
import VectorGuard.Lib.Transition

/-!
# Bounded Channels

First-in-first-out channels of a fixed capacity, over arbitrary messages, and what a
program made of tasks with such channels between them passes on.

A channel never holds more than its capacity: a message is pushed with a proof that
there is room for it. What a stretch of a program holds need not be one channel. It
may be a channel together with what the tasks at its two ends have in hand, and the
messages may change on the way, so the statement is about `contents`, and about what
each step puts in and takes out. One equation per step (`Fifo.conserve`) gives one
per run: nothing is lost, nothing comes twice, and the order is kept. A stretch may
break, when its receiver goes away. What has come out of it is still a beginning of
what went in.

## Main definitions

* `Channel`: A queue with a capacity.
* `Fifo`: What goes in comes out in order, as long as the stretch is open.

## Theorems

* `Fifo.conserved`: What went in is what came out and what is still inside.
* `Fifo.prefix_of_run`: What came out is a beginning of what went in.
-/

/-- A queue that never gets longer than its capacity. -/
structure Channel (α : Type*) (capacity : Nat) where
  queue : List α
  fits : queue.length ≤ capacity

namespace Channel

variable {α : Type*} {capacity : Nat}

def empty : Channel α capacity := ⟨[], Nat.zero_le capacity⟩

def HasRoom (c : Channel α capacity) : Prop := c.queue.length < capacity

instance (c : Channel α capacity) : Decidable c.HasRoom := Nat.decLt _ _

/-- Put a message behind the others. -/
def push (c : Channel α capacity) (a : α) (hroom : c.HasRoom) : Channel α capacity where
  queue := c.queue ++ [a]
  fits := by
    rw [List.length_append, List.length_singleton]
    exact hroom

/-- Without the oldest message. -/
def rest (c : Channel α capacity) : Channel α capacity where
  queue := c.queue.tail
  fits := by
    rw [List.length_tail]
    exact (Nat.sub_le _ _).trans c.fits

@[simp] theorem queue_push (c : Channel α capacity) (a : α) (hroom : c.HasRoom) :
    (c.push a hroom).queue = c.queue ++ [a] := rfl

@[simp] theorem queue_rest (c : Channel α capacity) : c.rest.queue = c.queue.tail := rfl

/-- An empty channel of a positive capacity has room. -/
theorem hasRoom_of_empty {c : Channel α capacity} (hcapacity : 0 < capacity)
    (hempty : c.queue = []) : c.HasRoom := by
  unfold HasRoom
  rw [hempty]
  exact hcapacity

end Channel

namespace Transition

variable {σ ι α : Type*}

/-- A stretch of a program: while it is open, what a step puts in and takes out
    accounts for what it holds. A stretch that is not open lets nothing out, and does
    not open again. The steps are those from states with an invariant. -/
structure Fifo (step : σ → ι → σ → Prop) (I : σ → Prop) (contents : σ → List α)
    (ins outs : ι → List α) (Open : σ → Prop) : Prop where
  inv : ∀ t a u, I t → step t a u → I u
  conserve : ∀ t a u, I t → step t a u → Open u → contents t ++ ins a = outs a ++ contents u
  stays : ∀ t a u, step t a u → Open u → Open t
  closed : ∀ t a u, step t a u → ¬ Open u → outs a = []

section Fifo

variable {step : σ → ι → σ → Prop} {I : σ → Prop} {contents : σ → List α} {ins outs : ι → List α}
  {Open : σ → Prop} {s t : σ} {acts : List ι}

theorem Fifo.inv_of_run (hf : Fifo step I contents ins outs Open) (hs : I s)
    (h : Run step s acts t) : I t :=
  h.invariant (I := fun _ t => I t) hs (fun _ t a u _ ht hst => hf.inv t a u ht hst)

/-- What went into an open stretch is what came out of it and what is still inside. -/
theorem Fifo.conserved (hf : Fifo step I contents ins outs Open) (hs : I s)
    (h : Run step s acts t) (hopen : Open t) :
    contents s ++ acts.flatMap ins = acts.flatMap outs ++ contents t := by
  induction h with
  | nil => exact List.append_nil _
  | @snoc acts t u a hrun hst ih =>
      have hbefore := ih (hf.stays _ _ _ hst hopen)
      have hnow := hf.conserve _ _ _ (hf.inv_of_run hs hrun) hst hopen
      rw [List.flatMap_append, List.flatMap_append, List.flatMap_singleton, List.flatMap_singleton]
      calc contents s ++ (acts.flatMap ins ++ ins a)
          = (contents s ++ acts.flatMap ins) ++ ins a := (List.append_assoc _ _ _).symm
        _ = acts.flatMap outs ++ contents t ++ ins a := by rw [hbefore]
        _ = acts.flatMap outs ++ (outs a ++ contents u) := by rw [List.append_assoc, hnow]
        _ = acts.flatMap outs ++ outs a ++ contents u := (List.append_assoc _ _ _).symm

/-- What came out is a beginning of what went in, open or not. -/
theorem Fifo.prefix_of_run (hf : Fifo step I contents ins outs Open) (hs : I s)
    (h : Run step s acts t) : acts.flatMap outs <+: contents s ++ acts.flatMap ins := by
  induction h with
  | nil => exact List.nil_prefix
  | @snoc acts t u a hrun hst ih =>
      by_cases hopen : Open u
      · rw [hf.conserved hs (hrun.snoc hst) hopen]
        exact List.prefix_append _ _
      · -- Nothing came out, and what went in only got longer.
        rw [List.flatMap_append, List.flatMap_append, List.flatMap_singleton,
          List.flatMap_singleton, hf.closed _ _ _ hst hopen, List.append_nil, ← List.append_assoc]
        exact ih.trans (List.prefix_append _ _)

end Fifo

end Transition
