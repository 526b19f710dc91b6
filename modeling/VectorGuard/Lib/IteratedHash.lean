import Mathlib.Data.List.Basic

/-!
# Iterated Hashes

Hashes that take their input in rounds, one element after another, over arbitrary
states and elements.

Such a hash maps more inputs than there are states, so some of them collide. Where every
round can be undone, in its state as well as in its element, no two inputs that differ in
one position do: up to there the states are the same, there they part, and no later round
brings two states together. Nothing of the kind follows for two positions, as the second
may make up for the first.

## Main definitions

* `DiffersOnce`: Lists that differ in exactly one position.
* `Reversible`: Rounds that are injective in either argument.

## Theorems

* `differsOnce_iff`: Such lists have a common front and a common back.
* `Reversible.comp`: A round with an injective step behind it.
* `Reversible.foldl_injective`: Taking a list in is injective in the state.
* `Reversible.foldl_ne`: Lists that differ once do not collide.
-/

namespace IteratedHash

variable {σ α : Type*}

/-- Lists of one length that differ in exactly one position. -/
structure DiffersOnce (l l' : List α) : Prop where
  length : l.length = l'.length
  position : ∃! i : Nat, l[i]? ≠ l'[i]?

/-- Rounds that are injective in the state and in the element. -/
structure Reversible (round : σ → α → σ) : Prop where
  state : ∀ a, Function.Injective (fun s => round s a)
  input : ∀ s, Function.Injective (round s)

/-! ## Lists -/

section Lists

variable {l l' front back : List α} {a b : α}

/-- Behind a common head, it is the tails that differ. -/
theorem DiffersOnce.of_cons (h : DiffersOnce (a :: l) (a :: l')) : DiffersOnce l l' := by
  rcases h.position with ⟨i, hi, honly⟩
  cases i with
  | zero => exact absurd rfl hi
  | succ i =>
      refine ⟨Nat.succ.inj h.length, i, hi, fun j hj => ?_⟩
      exact Nat.succ.inj (honly (j + 1) hj)

/-- Behind heads that differ, the tails are the same. -/
theorem DiffersOnce.tail_eq (h : DiffersOnce (a :: l) (b :: l')) (hne : a ≠ b) : l = l' := by
  rcases h.position with ⟨i, _, honly⟩
  have hzero : 0 = i := honly 0 (fun heq => hne (Option.some.inj heq))
  refine List.ext_getElem? (fun j => ?_)
  by_contra hj
  have hsucc : j + 1 = i := honly (j + 1) hj
  exact absurd (hzero.trans hsucc.symm) (Nat.succ_ne_zero j).symm

theorem exists_split (h : DiffersOnce l l') :
    ∃ front a b back, l = front ++ a :: back ∧ l' = front ++ b :: back ∧ a ≠ b := by
  -- By induction on the list, over its common front.
  induction l generalizing l' with
  | nil =>
      have hnil : l' = [] := List.eq_nil_of_length_eq_zero h.length.symm
      rcases h.position with ⟨i, hi, _⟩
      rw [hnil] at hi
      exact absurd rfl hi
  | cons a l ih =>
      cases l' with
      | nil => exact absurd h.length (Nat.succ_ne_zero l.length)
      | cons b l' =>
          by_cases hab : a = b
          · subst hab
            rcases ih h.of_cons with ⟨front, x, y, back, hl, hl', hne⟩
            refine ⟨a :: front, x, y, back, ?_, ?_, hne⟩
            · rw [hl, List.cons_append]
            · rw [hl', List.cons_append]
          · refine ⟨[], a, b, l, rfl, ?_, hab⟩
            rw [h.tail_eq hab, List.nil_append]

/-- Before the position both lists are the front, behind it both are the back. -/
theorem getElem?_append_cons_of_ne (front back : List α) (a b : α) {j : Nat}
    (hj : j ≠ front.length) : (front ++ a :: back)[j]? = (front ++ b :: back)[j]? := by
  rcases Nat.lt_or_gt_of_ne hj with hlt | hgt
  · rw [List.getElem?_append_left hlt, List.getElem?_append_left hlt]
  · have hsub : j - front.length = j - front.length - 1 + 1 := by omega
    rw [List.getElem?_append_right (Nat.le_of_lt hgt),
      List.getElem?_append_right (Nat.le_of_lt hgt), hsub, List.getElem?_cons_succ,
      List.getElem?_cons_succ]

theorem differsOnce_append (hne : a ≠ b) :
    DiffersOnce (front ++ a :: back) (front ++ b :: back) where
  length := by
    rw [List.length_append, List.length_append, List.length_cons, List.length_cons]
  position := by
    refine ⟨front.length, ?_, fun j hj => ?_⟩
    · beta_reduce
      rw [List.getElem?_append_right (Nat.le_refl _), List.getElem?_append_right (Nat.le_refl _),
        Nat.sub_self, List.getElem?_cons_zero, List.getElem?_cons_zero]
      exact fun heq => hne (Option.some.inj heq)
    · by_contra hpos
      exact hj (getElem?_append_cons_of_ne front back a b hpos)

/-- Lists differ in one position if they have a common front and a common back there. -/
theorem differsOnce_iff : DiffersOnce l l' ↔
    ∃ front a b back, l = front ++ a :: back ∧ l' = front ++ b :: back ∧ a ≠ b := by
  constructor
  · exact exists_split
  · rintro ⟨front, a, b, back, rfl, rfl, hne⟩
    exact differsOnce_append hne

end Lists

/-! ## Rounds -/

section Rounds

variable {round : σ → α → σ} {l l' : List α}

/-- A round with an injective step behind it. -/
theorem Reversible.comp {mix : σ → σ} (hmix : Function.Injective mix) (h : Reversible round) :
    Reversible (fun s a => mix (round s a)) where
  state a := hmix.comp (h.state a)
  input s := hmix.comp (h.input s)

/-- No two states are brought together by the same elements. -/
theorem Reversible.foldl_injective (h : Reversible round) (l : List α) :
    Function.Injective (fun s => l.foldl round s) := by
  induction l with
  | nil => exact Function.injective_id
  | cons a l ih => exact ih.comp (h.state a)

/-- Lists that differ in one position are taken to different states. -/
theorem Reversible.foldl_ne (h : Reversible round) (hdiff : DiffersOnce l l') (s : σ) :
    l.foldl round s ≠ l'.foldl round s := by
  rcases exists_split hdiff with ⟨front, a, b, back, rfl, rfl, hne⟩
  rw [List.foldl_append, List.foldl_append, List.foldl_cons, List.foldl_cons]
  intro heq
  have hstates : round (front.foldl round s) a = round (front.foldl round s) b :=
    h.foldl_injective back heq
  exact hne (h.input _ hstates)

end Rounds

end IteratedHash
