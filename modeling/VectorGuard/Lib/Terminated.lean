import Mathlib.Data.List.TakeWhile

/-!
# Terminated Buffers

Fixed-size buffers that hold a shorter sequence closed by a terminator, the
way a C string sits in a character array.

A writer copies the sequence and one terminator to the front of a buffer and
leaves the cells behind it as they were, so a buffer that is reused keeps
stale cells after the terminator. A reader stops at the first terminator.
`read_store` is the one fact both sides rest on: what a reader sees is exactly
what the writer stored, whatever the buffer held before.

`pad` is the other way to fill a buffer: the sequence in front and terminators
everywhere behind it, cut when it is too long.

The cells and the terminator are arbitrary; nothing here is about bytes.

## Main definitions

* `read`: The cells before the first terminator.
* `blit`: Overwriting the front of a buffer.
* `store`: Copying a sequence and its terminator to the front of a buffer.
* `pad`: A buffer holding a sequence with terminators behind it.

## Theorems

* `read_append`: Reading stops at the first terminator.
* `read_store`: A stored sequence is read back from any buffer.
* `read_blit_pad`: A padded block read back through a wider buffer.
-/

namespace Terminated

variable {α : Type*} [DecidableEq α] {n m : Nat}

/-- The cells before the first terminator, or all of them. -/
def read (z : α) (l : List α) : List α :=
  l.takeWhile (fun x => decide (x ≠ z))

/-- Overwrite the front of a buffer, leaving the cells behind it alone. -/
def blit {α : Type*} (buf : Vector α n) (l : List α) : Vector α n :=
  ⟨(l.take n ++ buf.toList.drop l.length).toArray, by
    simp only [List.size_toArray, List.length_append, List.length_take, List.length_drop,
      Vector.length_toList]
    omega⟩

/-- Copy a sequence and its terminator to the front of a buffer. -/
def store {α : Type*} (z : α) (buf : Vector α n) (l : List α) : Vector α n :=
  blit buf (l ++ [z])

/-- A buffer holding a sequence, cut to size, with terminators behind it. -/
def pad {α : Type*} (n : Nat) (z : α) (l : List α) : Vector α n :=
  ⟨(l.take n ++ List.replicate (n - l.length) z).toArray, by
    simp only [List.size_toArray, List.length_append, List.length_take, List.length_replicate]
    omega⟩

@[simp] theorem toList_blit {α : Type*} (buf : Vector α n) (l : List α) :
    (blit buf l).toList = l.take n ++ buf.toList.drop l.length := by
  simp only [blit, Vector.toList_mk]

@[simp] theorem toList_pad {α : Type*} (n : Nat) (z : α) (l : List α) :
    (pad n z l).toList = l.take n ++ List.replicate (n - l.length) z := by
  simp only [pad, Vector.toList_mk]

/-- Reading stops at the first terminator. -/
theorem read_append (z : α) (l r : List α) (h : z ∉ l) : read z (l ++ z :: r) = l := by
  have hall : ∀ x ∈ l, decide (x ≠ z) = true :=
    fun x hx => decide_eq_true (fun hxz => h (hxz ▸ hx))
  rw [read, List.takeWhile_append_of_pos hall, List.takeWhile_cons_of_neg (by simp),
    List.append_nil]

/-- A stored sequence is read back, whatever the buffer held before. -/
theorem read_store (z : α) (buf : Vector α n) (l : List α) (h : z ∉ l) (hlen : l.length < n) :
    read z (store z buf l).toList = l := by
  have htake : (l ++ [z]).take n = l ++ [z] := by
    refine List.take_of_length_le ?_
    rw [List.length_append, List.length_singleton]
    omega
  rw [store, toList_blit, htake, List.append_assoc, List.singleton_append]
  exact read_append z l _ h

/-- A padded block copied to the front of a wider buffer is read back, as long
    as the block has room for a terminator of its own. -/
theorem read_blit_pad (z : α) (buf : Vector α m) (l : List α) (h : z ∉ l)
    (hlen : l.length < n) (hnm : n ≤ m) :
    read z (blit buf (pad n z l).toList).toList = l := by
  have hn : (pad n z l).toList.length = n := Vector.length_toList
  rw [toList_blit, List.take_of_length_le (by omega), toList_pad,
    List.take_of_length_le (by omega)]
  rcases Nat.exists_eq_succ_of_ne_zero (show n - l.length ≠ 0 by omega) with ⟨k, hk⟩
  rw [hk, List.replicate_succ, List.append_assoc, List.cons_append]
  exact read_append z l _ h

end Terminated
