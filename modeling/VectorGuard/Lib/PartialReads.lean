import Mathlib.Data.List.Basic

/-!
# Partial Reads

Reading from a memory of which only some cells can be read.

A memory is seen from a place in it, as the function that gives the cell at each
distance. `readVec` reads a block and fails when one of its cells cannot be read,
however few of them matter to the reader. `readUntil` reads up to a terminator
and never looks behind it, so what lies there does not matter.

`HoldsAt` is the other direction: a sequence lies at the place. A block that is
read agrees with the sequences that lie there, which is all a decoder of the
block needs, and a terminated sequence is what a read up to the terminator
gives.

The cells and the terminator are arbitrary; nothing here is about bytes.

## Main definitions

* `HoldsAt`: A sequence lies at the place.
* `readVec`: Reading a block.
* `readUntil`: Reading up to a terminator.

## Theorems

* `isSome_readVec`: When a block can be read.
* `getElem_readVec`: A block agrees with a sequence that lies there.
* `not_mem_readUntil`: A read up to a terminator ends before it.
* `readUntil_of_holds`: A terminated sequence is read, as far as the read goes.
-/

namespace PartialReads

variable {α : Type*}

/-- The sequence lies at the place. -/
def HoldsAt (cell : Nat → Option α) (l : List α) : Prop :=
  ∀ i x, l[i]? = some x → cell i = some x

/-- The first cells, none when one of them cannot be read. -/
def readVec (cell : Nat → Option α) (n : Nat) : Option (Vector α n) :=
  if h : ∀ i < n, (cell i).isSome then some (Vector.ofFn (fun i => (cell i).get (h i i.isLt)))
  else none

/-- The cells before the first terminator, of at most so many that are looked
    at, none when one of these cannot be read. -/
def readUntil [DecidableEq α] (z : α) : (Nat → Option α) → Nat → Option (List α)
  | _, 0 => some []
  | cell, n + 1 =>
    match cell 0 with
    | none => none
    | some x =>
      if x = z then some []
      else (readUntil z (fun i => cell (i + 1)) n).map (fun l => x :: l)

section Blocks

variable {cell : Nat → Option α} {n : Nat}

theorem isSome_readVec : (readVec cell n).isSome ↔ ∀ i < n, (cell i).isSome := by
  unfold readVec
  split
  · next h => exact iff_of_true rfl h
  · next h => exact iff_of_false (by simp only [Option.isSome_none, Bool.false_eq_true,
      not_false_eq_true]) h

theorem cell_of_readVec {v : Vector α n} (h : readVec cell n = some v) (i : Nat) (hi : i < n) :
    cell i = some v[i] := by
  unfold readVec at h
  split at h
  · rw [Option.some.injEq] at h
    subst h
    rw [Vector.getElem_ofFn, Option.some_get]
  · exact absurd h (by simp only [reduceCtorEq, not_false_eq_true])

/-- A block that is read agrees with a sequence that lies there. -/
theorem getElem_readVec {v : Vector α n} (h : readVec cell n = some v) {l : List α}
    (hheld : HoldsAt cell l) (i : Nat) (hi : i < n) (x : α) (hx : l[i]? = some x) : v[i] = x := by
  have hcell := hheld i x hx
  rw [cell_of_readVec h i hi] at hcell
  exact Option.some.inj hcell

/-- A block is read when a sequence lies there as far as it reaches and the
    cells behind the sequence can be read. -/
theorem isSome_readVec_of_holds {l : List α} (hheld : HoldsAt cell l) :
    (readVec cell n).isSome ↔ ∀ i < n, l.length ≤ i → (cell i).isSome := by
  rw [isSome_readVec]
  constructor
  · intro h i hi _
    exact h i hi
  · intro h i hi
    by_cases hl : i < l.length
    · rw [hheld i l[i] (List.getElem?_eq_getElem hl)]
      rfl
    · exact h i hi (Nat.le_of_not_lt hl)

end Blocks

theorem HoldsAt.tail {cell : Nat → Option α} {x : α} {l : List α} (h : HoldsAt cell (x :: l)) :
    HoldsAt (fun i => cell (i + 1)) l := by
  intro i y hy
  exact h (i + 1) y (by rw [List.getElem?_cons_succ]; exact hy)

theorem HoldsAt.head {cell : Nat → Option α} {x : α} {l : List α} (h : HoldsAt cell (x :: l)) :
    cell 0 = some x :=
  h 0 x List.getElem?_cons_zero

/-- What is read up to a terminator has none. -/
theorem not_mem_readUntil [DecidableEq α] {z : α} (cell : Nat → Option α) (n : Nat) (l : List α)
    (h : readUntil z cell n = some l) : z ∉ l := by
  induction n generalizing cell l with
  | zero =>
      rw [readUntil, Option.some.injEq] at h
      subst h
      exact List.not_mem_nil
  | succ n ih =>
      unfold readUntil at h
      cases hcell : cell 0 with
      | none =>
          rw [hcell] at h
          exact absurd h (by simp only [reduceCtorEq, not_false_eq_true])
      | some x =>
          simp only [hcell] at h
          by_cases hx : x = z
          · rw [if_pos hx, Option.some.injEq] at h
            subst h
            exact List.not_mem_nil
          · rw [if_neg hx, Option.map_eq_some_iff] at h
            rcases h with ⟨rest, hrest, rfl⟩
            rw [List.mem_cons, not_or]
            exact ⟨Ne.symm hx, ih _ rest hrest⟩

/-- A terminated sequence is read, as far as the read goes. -/
theorem readUntil_of_holds [DecidableEq α] {z : α} (cell : Nat → Option α) (n : Nat) (l : List α)
    (hz : z ∉ l) (h : HoldsAt cell (l ++ [z])) : readUntil z cell n = some (l.take n) := by
  induction n generalizing cell l with
  | zero =>
      rw [List.take_zero]
      rfl
  | succ n ih =>
      cases l with
      | nil =>
          unfold readUntil
          rw [h.head]
          exact if_pos rfl
      | cons x l =>
          rw [List.mem_cons, not_or] at hz
          unfold readUntil
          rw [h.head]
          simp only [if_neg (Ne.symm hz.1), ih _ l hz.2 h.tail, Option.map_some, List.take_succ_cons]

end PartialReads
