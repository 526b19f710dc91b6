import Mathlib.Data.List.Nodup
import Mathlib.Logic.Function.Basic

/-!
# Selections by Index

A row of a list that is remembered by its index, while the list changes.

An index follows a row if it leads to the row for as long as the row is in the
list. What is put behind the last row does not matter. A list that loses its first
row keeps no index of a row behind it, as every row moves up. A list that is
replaced keeps the index of a row with as many rows before it as the index says.

Rows that are equal are told apart by numbers. A list that grows at its end and
shrinks at its front shows the numbered rows that pass a filter.

## Main definitions

* `Follows`: The index leads to the row while it is there.
* `shownFrom`, `numbers`: The rows that pass a filter with their numbers.

## Theorems

* `follows_append_iff`, `follows_tail_iff`, `follows_iff_idxOf`: When an index
  follows a row into another list.
* `numbers_append`, `nodup_numbers`: The numbers of a list that grows.
-/

namespace Selection

variable {α κ ι : Type*} {rows : List κ} {row new first : κ} {index : Nat}

/-- A row that is in the list is the one at the index. -/
def Follows (rows : List κ) (index : Nat) (row : κ) : Prop :=
  row ∈ rows → rows[index]? = some row

theorem follows_of_notMem (h : row ∉ rows) : Follows rows index row := fun hmem => absurd hmem h

/-- Another row behind the last one changes nothing. -/
theorem follows_append_iff (hne : row ≠ new) :
    Follows (rows ++ [new]) index row ↔ Follows rows index row := by
  unfold Follows
  rw [List.mem_append, List.mem_singleton, or_iff_left hne]
  refine imp_congr_right (fun _ => ?_)
  by_cases hlt : index < rows.length
  · rw [List.getElem?_append_left hlt]
  · have hge := Nat.le_of_not_lt hlt
    rw [List.getElem?_append_right hge, List.getElem?_eq_none hge]
    constructor
    · intro h
      exact absurd (List.mem_singleton.mp (List.mem_of_getElem? h)) hne
    · intro h
      cases h

/-- Without the first row every other one is at another index. -/
theorem follows_tail_iff (hnodup : (first :: rows).Nodup) (h : Follows (first :: rows) index row) :
    Follows rows index row ↔ row ∉ rows := by
  refine ⟨fun hrows hmem => ?_, follows_of_notMem⟩
  have hat := h (List.mem_cons_of_mem first hmem)
  have hmoved : (first :: rows)[index + 1]? = some row := hrows hmem
  have hlt : index < (first :: rows).length := (List.getElem?_eq_some_iff.mp hat).1
  have hsame := (List.getElem?_inj hlt hnodup).mp (hat.trans hmoved.symm)
  omega

/-- The index counts the rows before the row. -/
theorem follows_iff_idxOf [DecidableEq κ] (hnodup : rows.Nodup) :
    Follows rows index row ↔ (row ∈ rows → rows.idxOf row = index) := by
  refine imp_congr_right (fun hmem => ?_)
  constructor
  · intro hat
    rcases List.getElem?_eq_some_iff.mp hat with ⟨hlt, heq⟩
    rw [← heq, hnodup.idxOf_getElem]
  · intro hidx
    rw [← hidx, List.getElem?_idxOf hmem]

/-- Rows under other names. -/
theorem follows_map_iff {f : κ → ι} (hf : Function.Injective f) :
    Follows (rows.map f) index (f row) ↔ Follows rows index row := by
  unfold Follows
  rw [List.mem_map_of_injective hf, List.getElem?_map]
  exact imp_congr_right (fun _ => (Option.map_injective hf).eq_iff (b := some row))

/-! ### Numbered rows -/

/-- The rows that pass a filter, with their numbers. -/
def shownFrom (shown : α → Bool) : Int → List α → List (Int × α)
  | _, [] => []
  | n, row :: rows =>
    if shown row then (n, row) :: shownFrom shown (n + 1) rows else shownFrom shown (n + 1) rows

/-- The numbers of the rows that pass a filter. -/
def numbers (shown : α → Bool) (n : Int) (rows : List α) : List Int :=
  (shownFrom shown n rows).map Prod.fst

variable {shown : α → Bool} {n m : Int} {l : List α} {a : α}

theorem numbers_cons_pos (hshown : shown a = true) :
    numbers shown n (a :: l) = n :: numbers shown (n + 1) l := by
  unfold numbers
  rw [shownFrom, if_pos hshown, List.map_cons]

theorem numbers_cons_neg (hshown : ¬ shown a = true) :
    numbers shown n (a :: l) = numbers shown (n + 1) l := by
  unfold numbers
  rw [shownFrom, if_neg hshown]

/-- The next row has the next number. -/
theorem numbers_append (shown : α → Bool) (n : Int) (l : List α) (a : α) :
    numbers shown n (l ++ [a]) =
      numbers shown n l ++ (if shown a then [n + l.length] else []) := by
  induction l generalizing n with
  | nil =>
      by_cases hshown : shown a = true
      · rw [List.nil_append, numbers_cons_pos hshown, if_pos hshown]
        simp [numbers, shownFrom]
      · rw [List.nil_append, numbers_cons_neg hshown, if_neg hshown]
        rfl
  | cons b l ih =>
      have hlength : n + ((b :: l).length : Nat) = n + 1 + l.length := by
        rw [List.length_cons]
        omega
      rw [List.cons_append, hlength]
      by_cases hshown : shown b = true
      · rw [numbers_cons_pos hshown, numbers_cons_pos hshown, ih, List.cons_append]
      · rw [numbers_cons_neg hshown, numbers_cons_neg hshown, ih]

theorem bounds_of_mem_numbers (h : m ∈ numbers shown n l) : n ≤ m ∧ m < n + l.length := by
  induction l generalizing n with
  | nil => cases h
  | cons a l ih =>
      rw [List.length_cons]
      by_cases hshown : shown a = true
      · rw [numbers_cons_pos hshown, List.mem_cons] at h
        rcases h with rfl | h
        · omega
        · have hbounds := ih h
          omega
      · rw [numbers_cons_neg hshown] at h
        have hbounds := ih h
        omega

/-- No number is given twice. -/
theorem nodup_numbers (shown : α → Bool) (n : Int) (l : List α) : (numbers shown n l).Nodup := by
  induction l generalizing n with
  | nil => exact List.nodup_nil
  | cons a l ih =>
      by_cases hshown : shown a = true
      · rw [numbers_cons_pos hshown, List.nodup_cons]
        refine ⟨fun hmem => ?_, ih (n + 1)⟩
        have hbounds := bounds_of_mem_numbers hmem
        omega
      · rw [numbers_cons_neg hshown]
        exact ih (n + 1)

end Selection
