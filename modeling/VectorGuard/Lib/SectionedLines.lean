import Mathlib.Data.List.Basic

/-!
# Sectioned Lines

Lines that are section headers, entries of a key and a value, or anything else,
and the first entry of a key in a section: those two lines below a header of the
section with no other header between them. Headers, keys and values are of any
type.

Looking up and replacing such an entry satisfy the laws of a lens, one for every
pair of a section and a key: `get_set_self` and `get_set_of_ne`.

## Main definitions

* `Line`: What a line is.
* `find`: The position of the first entry of a key in a section.
* `get`: Its value.

## Theorems

* `get_set_self`: A replaced value is looked up.
* `get_set_of_ne`: No other value changes.
* `get_append_other`: Lines that are neither headers nor entries do not matter.
-/

namespace SectionedLines

variable {H K V : Type*} [DecidableEq H] [DecidableEq K]

inductive Line (H K V : Type*)
  | header (h : H)
  | entry (k : K) (v : V)
  | other

/-- The position of the first entry of a key in a section, given whether the
    lines start inside the section. -/
def find (h : H) (k : K) : Bool → List (Line H K V) → Option Nat
  | _, [] => none
  | _, .header h' :: rest => (find h k (decide (h' = h)) rest).map Nat.succ
  | inside, .entry k' _ :: rest =>
    if inside = true ∧ k' = k then some 0 else (find h k inside rest).map Nat.succ
  | inside, .other :: rest => (find h k inside rest).map Nat.succ

/-- The value of the first entry of a key in a section. -/
def get (h : H) (k : K) : Bool → List (Line H K V) → Option V
  | _, [] => none
  | _, .header h' :: rest => get h k (decide (h' = h)) rest
  | inside, .entry k' v :: rest => if inside = true ∧ k' = k then some v else get h k inside rest
  | inside, .other :: rest => get h k inside rest

variable {h h' : H} {k k' : K} {inside inside' : Bool} {lines : List (Line H K V)} {i : Nat}

/-- Lines that do not start inside the section have a header before what is found. -/
theorem pos_of_find (hfind : find h k false lines = some i) : 0 < i := by
  cases lines with
  | nil => exact absurd hfind (by simp [find])
  | cons line rest =>
      cases line with
      | header h' =>
          rcases Option.map_eq_some_iff.mp hfind with ⟨j, _, rfl⟩
          exact Nat.succ_pos j
      | other =>
          rcases Option.map_eq_some_iff.mp hfind with ⟨j, _, rfl⟩
          exact Nat.succ_pos j
      | entry k' v =>
          unfold find at hfind
          rw [if_neg (fun hhere => Bool.false_ne_true hhere.1)] at hfind
          rcases Option.map_eq_some_iff.mp hfind with ⟨j, _, rfl⟩
          exact Nat.succ_pos j

theorem get_eq_none_of_find (hfind : find h k inside lines = none) :
    get h k inside lines = none := by
  induction lines generalizing inside with
  | nil => rfl
  | cons line rest ih =>
      cases line with
      | header h' => exact ih (Option.map_eq_none_iff.mp hfind)
      | other => exact ih (Option.map_eq_none_iff.mp hfind)
      | entry k' v =>
          unfold find at hfind
          unfold get
          split at hfind
          · exact absurd hfind (by simp)
          · next hne =>
              rw [if_neg hne]
              exact ih (Option.map_eq_none_iff.mp hfind)

/-- A replaced value is looked up. -/
theorem get_set_self (v : V) (hfind : find h k inside lines = some i) :
    get h k inside (lines.set i (.entry k v)) = some v := by
  induction lines generalizing inside i with
  | nil => exact absurd hfind (by simp [find])
  | cons line rest ih =>
      cases line with
      | header h' =>
          rcases Option.map_eq_some_iff.mp hfind with ⟨j, hj, rfl⟩
          exact ih hj
      | other =>
          rcases Option.map_eq_some_iff.mp hfind with ⟨j, hj, rfl⟩
          exact ih hj
      | entry k' w =>
          unfold find at hfind
          split at hfind
          · -- The value that is replaced is here.
            next hhere =>
              rw [← Option.some.inj hfind, List.set_cons_zero]
              unfold get
              rw [if_pos ⟨hhere.1, rfl⟩]
          · next hne =>
              rcases Option.map_eq_some_iff.mp hfind with ⟨j, hj, rfl⟩
              rw [Nat.succ_eq_add_one, List.set_cons_succ]
              unfold get
              rw [if_neg hne]
              exact ih hj

/-- Another value is looked up as before. For another section this needs that
    the lines do not start inside both. -/
theorem get_set_of_ne (v : V) (hfind : find h k inside lines = some i)
    (hne : ¬ (h' = h ∧ k' = k)) (hapart : h' ≠ h → ¬ (inside = true ∧ inside' = true)) :
    get h' k' inside' (lines.set i (.entry k v)) = get h' k' inside' lines := by
  induction lines generalizing inside inside' i with
  | nil => rfl
  | cons line rest ih =>
      cases line with
      | header t =>
          rcases Option.map_eq_some_iff.mp hfind with ⟨j, hj, rfl⟩
          refine ih hj (fun hh hboth => hh ?_)
          exact (of_decide_eq_true hboth.2).symm.trans (of_decide_eq_true hboth.1)
      | other =>
          rcases Option.map_eq_some_iff.mp hfind with ⟨j, hj, rfl⟩
          exact ih hj hapart
      | entry t w =>
          unfold find at hfind
          split at hfind
          · next hhere =>
              -- The replaced line is no entry of the other key, or not in its section.
              have hother : ¬ (inside' = true ∧ k = k') := by
                intro hboth
                by_cases hh : h' = h
                · exact hne ⟨hh, hboth.2.symm⟩
                · exact hapart hh ⟨hhere.1, hboth.1⟩
              rw [← Option.some.inj hfind, List.set_cons_zero]
              unfold get
              rw [if_neg hother, if_neg (by rw [hhere.2]; exact hother)]
          · next hnot =>
              rcases Option.map_eq_some_iff.mp hfind with ⟨j, hj, rfl⟩
              rw [Nat.succ_eq_add_one, List.set_cons_succ]
              unfold get
              split
              · rfl
              · exact ih hj hapart

/-- A line at the end that is neither a header nor an entry does not matter. -/
theorem get_append_other : get h k inside (lines ++ [.other]) = get h k inside lines := by
  induction lines generalizing inside with
  | nil => rfl
  | cons line rest ih =>
      cases line with
      | header h' => exact ih
      | other => exact ih
      | entry k' v =>
          rw [List.cons_append]
          unfold get
          split
          · rfl
          · exact ih

end SectionedLines
