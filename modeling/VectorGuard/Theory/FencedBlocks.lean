import VectorGuard.Core.Advice
import VectorGuard.Theory.TextLines

/-!
# Fenced Blocks

What the advisor takes out of an answer.

An answer is prose with blocks between it. A line that starts with the opening fence
opens a block, whatever white space stands before it, and a line that is the closing
fence closes it. Inside of a block an opening fence means nothing, and neither does a
closing one outside. An answer that was cut off may end inside of a block.

Every line of an answer carries what it must not be: prose does not open a block, and
a line of a block does not close it. The scan then recovers the blocks from every
answer, without any condition on it.

## Main definitions

* `opensBlock`, `closesBlock`: What the fences are.
* `Piece`, `Answer`: Prose and blocks, each line with its condition.
* `Answer.written`, `Answer.content`: The lines of the answer, and those of its blocks.

## Theorems

* `extractLine_of_closed`, `extractLine_of_open`: What one line does.
* `foldl_extractLine_piece`: Of a piece its content is taken out.
* `extractToml_of_consists`: What is taken out of an answer.
-/

namespace VectorGuard

/-- A line that opens a block. -/
def opensBlock (line : String) : Bool := startsWith (trimStart line) "```toml"

/-- A line that closes the block it is in. -/
def closesBlock (line : String) : Bool := decide (trim line = "```")

/-- A line outside of the blocks. -/
abbrev ProseLine := { line : String // IsLine line ∧ opensBlock line = false }

/-- An opening fence. -/
abbrev Opening := { line : String // IsLine line ∧ opensBlock line = true }

/-- A line of a block. -/
abbrev BlockLine := { line : String // IsLine line ∧ closesBlock line = false }

/-- A closing fence. -/
abbrev Closing := { line : String // IsLine line ∧ closesBlock line = true }

inductive Piece
  | prose (ls : List ProseLine)
  | block (opening : Opening) (ls : List BlockLine) (closing : Closing)

structure Answer where
  pieces : List Piece
  /-- The block that the answer ends in. -/
  unclosed : Option (Opening × List BlockLine)

namespace Piece

/-- The lines of a piece. -/
def written : Piece → List String
  | prose ls => ls.map Subtype.val
  | block opening ls closing => opening.val :: ls.map Subtype.val ++ [closing.val]

/-- The lines of a piece that are inside of a block. -/
def content : Piece → List String
  | prose _ => []
  | block _ ls _ => ls.map Subtype.val

end Piece

namespace Answer

/-- The lines of an answer. -/
def written (a : Answer) : List String :=
  a.pieces.flatMap Piece.written ++
    match a.unclosed with
    | some (opening, ls) => opening.val :: ls.map Subtype.val
    | none => []

/-- The lines of its blocks. -/
def content (a : Answer) : List String :=
  a.pieces.flatMap Piece.content ++
    match a.unclosed with
    | some (_, ls) => ls.map Subtype.val
    | none => []

end Answer

/-! ### Lines -/

/-- The opening fence has no white space in front. -/
theorem opensBlock_of_startsWith {line : String} (h : startsWith line "```toml" = true) :
    opensBlock line = true := by
  rcases exists_append_of_startsWith h with ⟨rest, rfl⟩
  have hsame : trimStart ("```toml" ++ rest) = "```toml" ++ rest := by
    unfold trimStart
    rw [String.toList_append, dropWhile_isWhitespace_append (by decide), ← String.toList_append,
      String.ofList_toList]
    intro c hc
    rw [← Option.some.inj hc]
    decide
  unfold opensBlock
  rw [hsame, h]

/-- Outside of the blocks a line is dropped, and opens a block if it is a fence. -/
theorem extractLine_of_closed (taken line : String) :
    extractLine (taken, false) line = (taken, opensBlock line) := by
  unfold extractLine
  rw [Bool.not_false, if_pos rfl]
  cases hstarts : startsWith line "```toml" with
  | false => rfl
  | true => rw [opensBlock_of_startsWith hstarts, Bool.true_or]

/-- Inside of a block a line is taken, unless it closes the block. -/
theorem extractLine_of_open (taken line : String) :
    extractLine (taken, true) line =
      if closesBlock line then (taken, false) else (taken ++ line ++ "\n", true) := by
  unfold extractLine closesBlock
  simp only [Bool.not_true, Bool.false_eq_true, if_false, decide_eq_true_eq]

theorem foldl_extractLine_prose (taken : String) (ls : List ProseLine) :
    (ls.map Subtype.val).foldl extractLine (taken, false) = (taken, false) := by
  induction ls with
  | nil => rfl
  | cons line ls ih =>
      rw [List.map_cons, List.foldl_cons, extractLine_of_closed, line.property.2]
      exact ih

theorem foldl_extractLine_block (taken : String) (ls : List BlockLine) :
    (ls.map Subtype.val).foldl extractLine (taken, true) =
      (taken ++ closedLines (ls.map Subtype.val), true) := by
  induction ls generalizing taken with
  | nil => exact congrArg (fun s => (s, true)) String.append_empty.symm
  | cons line ls ih =>
      rw [List.map_cons, List.foldl_cons, extractLine_of_open, line.property.2,
        if_neg Bool.false_ne_true, ih, closedLines_cons, String.append_assoc, String.append_assoc,
        String.append_assoc]

/-! ### Answers -/

/-- Of a piece its content is taken out, and the scan is outside of the blocks again. -/
theorem foldl_extractLine_piece (taken : String) (p : Piece) :
    p.written.foldl extractLine (taken, false) = (taken ++ closedLines p.content, false) := by
  cases p with
  | prose ls =>
      dsimp only [Piece.written, Piece.content]
      rw [foldl_extractLine_prose]
      exact congrArg (fun s => (s, false)) String.append_empty.symm
  | block opening ls closing =>
      dsimp only [Piece.written, Piece.content]
      rw [List.cons_append, List.foldl_cons, extractLine_of_closed, opening.property.2,
        List.foldl_append, foldl_extractLine_block, List.foldl_cons, List.foldl_nil,
        extractLine_of_open, closing.property.2, if_pos rfl]

theorem foldl_extractLine_pieces (taken : String) (ps : List Piece) :
    (ps.flatMap Piece.written).foldl extractLine (taken, false) =
      (taken ++ closedLines (ps.flatMap Piece.content), false) := by
  induction ps generalizing taken with
  | nil => exact congrArg (fun s => (s, false)) String.append_empty.symm
  | cons p ps ih =>
      rw [List.flatMap_cons, List.foldl_append, foldl_extractLine_piece, ih, List.flatMap_cons,
        closedLines_append, String.append_assoc]

/-- Of an answer the content of its blocks is taken out. -/
theorem foldl_extractLine_written (a : Answer) :
    (a.written.foldl extractLine ("", false)).1 = closedLines a.content := by
  unfold Answer.written Answer.content
  rw [List.foldl_append, foldl_extractLine_pieces, String.empty_append]
  cases a.unclosed with
  | none => rw [List.foldl_nil, List.append_nil]
  | some last =>
      rcases last with ⟨opening, ls⟩
      dsimp only
      rw [List.foldl_cons, extractLine_of_closed, opening.property.2, foldl_extractLine_block,
        closedLines_append]

theorem isLine_of_mem_piece {p : Piece} {line : String} (h : line ∈ p.written) : IsLine line := by
  cases p with
  | prose ls =>
      rcases List.mem_map.mp h with ⟨l, _, rfl⟩
      exact l.property.1
  | block opening ls closing =>
      rcases List.mem_append.mp h with h | h
      · rcases List.mem_cons.mp h with rfl | h
        · exact opening.property.1
        · rcases List.mem_map.mp h with ⟨l, _, rfl⟩
          exact l.property.1
      · rw [List.mem_singleton.mp h]
        exact closing.property.1

theorem isLine_of_mem_written {a : Answer} {line : String} (h : line ∈ a.written) :
    IsLine line := by
  rcases List.mem_append.mp h with h | h
  · rcases List.mem_flatMap.mp h with ⟨p, _, hline⟩
    exact isLine_of_mem_piece hline
  · cases hlast : a.unclosed with
    | none =>
        rw [hlast] at h
        exact absurd h List.not_mem_nil
    | some last =>
        rw [hlast] at h
        rcases List.mem_cons.mp h with rfl | h
        · exact last.1.property.1
        · rcases List.mem_map.mp h with ⟨l, _, rfl⟩
          exact l.property.1

/-- What is taken out of an answer that has a line in a block are the lines of its blocks
    in order, each followed by a newline. -/
theorem extractToml_of_consists (a : Answer) (text : String) (htext : Consists text a.written)
    (hcontent : a.content ≠ []) : extractToml text = closedLines a.content := by
  have hnonempty : (closedLines a.content).isEmpty = false := by
    rcases List.exists_cons_of_ne_nil hcontent with ⟨line, rest, hcons⟩
    refine String.isEmpty_eq_false_iff.mpr (fun hempty => ?_)
    have hlen := congrArg String.length hempty
    rw [hcons, closedLines_cons, String.length_append, String.length_append] at hlen
    have hnewline : "\n".length = 1 := rfl
    have hzero : "".length = 0 := rfl
    omega
  unfold extractToml
  dsimp only
  rw [lines_of_consists htext (fun _ hline => isLine_of_mem_written hline),
    foldl_extractLine_written, hnonempty]
  rfl

/-- A sentence, and an indented block that the answer ends in. -/
def shortAnswer : Answer where
  pieces := [.prose [⟨"Rule:", by decide⟩]]
  unclosed := some (⟨"  ```toml", by decide⟩, [⟨"[[rules]]", by decide⟩, ⟨"", by decide⟩])

theorem extractToml_shortAnswer : extractToml "Rule:\n  ```toml\n[[rules]]\n\n" = "[[rules]]\n\n" :=
  extractToml_of_consists shortAnswer _ (Or.inl (by decide)) (by decide)

end VectorGuard
