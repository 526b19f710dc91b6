import Mathlib.Data.List.TakeWhile

/-!
# Framed Streams

Sequences of records written to a stream, each closed by a separator, and a
reader that takes one record at a time from what has arrived so far.

The reader takes everything up to and including the first separator. When no
separator has arrived it takes whatever there is, which is only part of a
record. As long as that does not happen, the reader's position is always the
start of a record (`readFrame_frames`): what it takes is one whole record, and
what it leaves continues the stream.

The elements and the separator are arbitrary.

## Main definitions

* `frames`: A sequence of records as a stream.
* `readFrame`: The next record of a stream, or what there is of it.

## Theorems

* `frames_eq_nil_iff`: Only the empty sequence is an empty stream.
* `readFrame_frames`: A reader at the start of a record that finds a separator
  takes that record.
-/

namespace Framing

variable {α : Type*} [DecidableEq α]

/-- Records as a stream, each closed by the separator. -/
def frames {α : Type*} (z : α) (records : List (List α)) : List α :=
  records.flatMap (fun r => r ++ [z])

/-- Everything up to and including the first separator, and the rest. Without a
    separator, everything. -/
def readFrame (z : α) (l : List α) : List α × List α :=
  let body := l.takeWhile (fun x => decide (x ≠ z))
  let rest := l.dropWhile (fun x => decide (x ≠ z))
  (body ++ rest.take 1, rest.drop 1)

@[simp] theorem frames_nil {α : Type*} (z : α) : frames z ([] : List (List α)) = [] := rfl

@[simp] theorem frames_cons {α : Type*} (z : α) (r : List α) (rs : List (List α)) :
    frames z (r :: rs) = r ++ z :: frames z rs := by
  simp only [frames, List.flatMap_cons, List.append_assoc, List.singleton_append]

theorem frames_eq_nil_iff {α : Type*} (z : α) (records : List (List α)) :
    frames z records = [] ↔ records = [] := by
  cases records with
  | nil =>
      simp only [frames_nil]
  | cons r rs =>
      simp only [frames_cons, List.append_eq_nil_iff, reduceCtorEq, and_false]

theorem readFrame_append (z : α) (r rest : List α) (h : z ∉ r) :
    readFrame z (r ++ z :: rest) = (r ++ [z], rest) := by
  have hall : ∀ x ∈ r, decide (x ≠ z) = true :=
    fun x hx => decide_eq_true (fun hxz => h (hxz ▸ hx))
  unfold readFrame
  simp only []
  rw [List.takeWhile_append_of_pos hall, List.dropWhile_append_of_pos hall,
    List.takeWhile_cons_of_neg (by simp), List.dropWhile_cons_of_neg (by simp)]
  simp only [List.append_nil, List.take_succ_cons, List.take_zero, List.drop_succ_cons,
    List.drop_zero]

/-- Of a stream of records that has arrived in part, a reader that finds a
    separator takes the first record, whole, and leaves the others. -/
theorem readFrame_frames (z : α) (records : List (List α)) (l later : List α)
    (hrecords : ∀ r ∈ records, z ∉ r) (hstream : l ++ later = frames z records) (hsep : z ∈ l) :
    ∃ r rs rest, records = r :: rs ∧ readFrame z l = (r ++ [z], rest) ∧
      rest ++ later = frames z rs := by
  cases records with
  | nil =>
      rw [frames_nil, List.append_eq_nil_iff] at hstream
      rw [hstream.1] at hsep
      exact absurd hsep List.not_mem_nil
  | cons r rs =>
      rcases List.eq_append_cons_of_mem hsep with ⟨a, b, rfl, ha⟩
      rw [frames_cons, List.append_assoc, List.cons_append] at hstream
      -- Both sides are read up to their first separator.
      have hread := congrArg (readFrame z) hstream
      rw [readFrame_append z a _ ha, readFrame_append z r _ (hrecords r List.mem_cons_self),
        Prod.mk.injEq, List.append_left_inj] at hread
      refine ⟨r, rs, b, rfl, ?_, hread.2⟩
      rw [readFrame_append z a b ha, hread.1]

end Framing
