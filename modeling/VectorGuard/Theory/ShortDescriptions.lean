import VectorGuard.Core.Tui
import VectorGuard.Theory.StagedNames
import VectorGuard.Theory.TextLines

/-!
# Short Descriptions

When pushing an event completes.

The description of an event is shortened for the table if it is longer than forty
bytes. The cut is made behind byte thirty-nine and nothing looks for the character
it falls into, so a path with a character of several bytes at that place ends the
program. Only the description decides. What the application holds plays no part.

## Main definitions

* `CutsBetween`: A place between two characters of a string.

## Theorems

* `isSome_sliceTo`: When a string can be cut.
* `pushEvent_isSome_iff`: When pushing an event completes.
-/

namespace VectorGuard

/-- The first bytes of a string, up to this number, are whole characters. -/
def CutsBetween (s : String) (n : Nat) : Prop := ∃ t u, s = t ++ u ∧ (bytes t).length = n

/-- A string can be cut between its characters only. -/
theorem isSome_sliceTo {s : String} {n : Nat} (hn : n ≤ (bytes s).length) :
    (sliceTo s n).isSome ↔ CutsBetween s n := by
  unfold sliceTo
  constructor
  · intro h
    rcases Option.isSome_iff_exists.mp h with ⟨t, ht⟩
    have hbytes := bytes_of_fromUtf8 ht
    have hstart : startsWith s t = true := by
      unfold startsWith
      rw [List.isPrefixOf_iff_prefix, hbytes]
      exact List.take_prefix n _
    rcases exists_append_of_startsWith hstart with ⟨u, hu⟩
    exact ⟨t, u, hu, by rw [hbytes, List.length_take, Nat.min_eq_left hn]⟩
  · intro h
    rcases h with ⟨t, u, hs, hlen⟩
    rw [hs, bytes_append, ← hlen, List.take_left, fromUtf8_bytes]
    rfl

theorem isSome_shortKind (fullKind : String) :
    (shortKind fullKind).isSome ↔ (bytes fullKind).length ≤ 40 ∨ CutsBetween fullKind 39 := by
  unfold shortKind
  by_cases hlong : (bytes fullKind).length > 40
  · rw [if_pos hlong, Option.isSome_map, isSome_sliceTo (by omega)]
    simp only [Nat.not_le_of_lt hlong, false_or]
  · rw [if_neg hlong]
    exact iff_of_true rfl (Or.inl (Nat.le_of_not_lt hlong))

/-- Pushing an event completes exactly when its description is short or can be cut
    behind byte thirty-nine. -/
theorem pushEvent_isSome_iff (app : App) (ev : NormalizedEvent) :
    (app.pushEvent ev).isSome ↔
      (bytes ev.eventType.fullKind).length ≤ 40 ∨ CutsBetween ev.eventType.fullKind 39 := by
  unfold App.pushEvent
  rw [Option.isSome_map, isSome_shortKind]

/-- An open of a path whose thirty-fourth character takes two bytes. -/
def accentedOpen : NormalizedEvent :=
  { NormalizedEvent.plainExec "cat" with
    eventType := .fileAccess "/home/user/documents/annual/resumé.txt" ⟨true, false, false⟩ }

/-- Such an open ends the program. -/
theorem accentedOpen_panics :
    (App.withApproval "" none 0).pushEvent accentedOpen = none := by
  have hcut : shortKind accentedOpen.eventType.fullKind = none := by decide
  unfold App.pushEvent
  rw [hcut, Option.map_none]

end VectorGuard
