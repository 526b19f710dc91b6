import Mathlib.Data.List.DropRight
import VectorGuard.Core.Text

/-!
# Trimming and Lines

What code that reads a text line by line and trims what it finds can rely on.

Trimming is described by what is left: a text without white space at its ends
(`Tight`), whatever white space stood around it. Splitting into lines and joining
again is almost the identity: it drops the carriage return before a newline and
the newline at the end.

## Main definitions

* `Tight`: No white space at either end.
* `IsLine`: A line that is read as it is written.
* `Consists`: The text of some lines, with or without a newline at the end.

## Theorems

* `trim_around`, `tight_trim`: What trimming leaves.
* `not_mem_of_mem_lines`: There is no newline in a line.
* `lines_joinLines_concat`: The lines of joined lines.
* `lines_of_consists`: The lines of a text that consists of lines.
-/

namespace VectorGuard

theorem isValidUTF8_of_append (cs : List Char) {b : ByteArray}
    (h : (cs.utf8Encode ++ b).IsValidUTF8) : b.IsValidUTF8 := by
  induction cs with
  | nil =>
      rwa [List.utf8Encode_nil, ByteArray.empty_append] at h
  | cons c cs ih =>
      rw [List.utf8Encode_cons, ByteArray.append_assoc] at h
      exact ih (ByteArray.isValidUTF8_utf8Encode_singleton_append_iff.mp h)

/-- A prefix of the bytes of a string that is a string is a prefix of the string. -/
theorem exists_append_of_startsWith {s p : String} (h : startsWith s p = true) :
    ∃ t, s = p ++ t := by
  rcases List.isPrefixOf_iff_prefix.mp h with ⟨rest, hrest⟩
  rcases p.exists_eq_ofList with ⟨cs, rfl⟩
  have hbytes : s.toByteArray = (String.ofList cs).toByteArray ++ ByteArray.mk rest.toArray := by
    apply ByteArray.ext
    apply Array.toList_inj.mp
    rw [ByteArray.data_append, Array.toList_append]
    exact hrest.symm
  -- What is left of valid UTF-8 behind whole characters is valid.
  have hvalid : (ByteArray.mk rest.toArray).IsValidUTF8 := by
    have hs := s.isValidUTF8
    rw [hbytes, String.toByteArray_ofList] at hs
    exact isValidUTF8_of_append cs hs
  exact ⟨⟨ByteArray.mk rest.toArray, hvalid⟩, String.toByteArray_inj.mp hbytes⟩

/-! ### Trimming -/

/-- No white space at either end. -/
def Tight (cs : List Char) : Prop :=
  (∀ c, cs.head? = some c → isWhitespace c = false) ∧
    ∀ c, cs.getLast? = some c → isWhitespace c = false

theorem tight_nil : Tight [] :=
  ⟨fun _ h => absurd h (by simp), fun _ h => absurd h (by simp)⟩

/-- Nothing is dropped where the first character stays. -/
theorem dropWhile_isWhitespace_append {m r : List Char} (hne : m ≠ [])
    (hhead : ∀ c, m.head? = some c → isWhitespace c = false) :
    (m ++ r).dropWhile isWhitespace = m ++ r := by
  cases m with
  | nil => exact absurd rfl hne
  | cons c m =>
      rw [List.cons_append, List.dropWhile_cons_of_neg]
      rw [hhead c rfl]
      exact Bool.false_ne_true

theorem dropWhile_isWhitespace_all {l r : List Char} (hl : ∀ c ∈ l, isWhitespace c = true) :
    (l ++ r).dropWhile isWhitespace = r.dropWhile isWhitespace :=
  List.dropWhile_append_of_pos hl

/-- White space around a text is trimmed. -/
theorem trim_around {l m r : List Char} (hl : ∀ c ∈ l, isWhitespace c = true)
    (hr : ∀ c ∈ r, isWhitespace c = true) (hm : Tight m) :
    trim (String.ofList (l ++ m ++ r)) = String.ofList m := by
  have hr' : ∀ c ∈ r.reverse, isWhitespace c = true :=
    fun c hc => hr c (List.mem_reverse.mp hc)
  unfold trim
  rw [String.toList_ofList, List.append_assoc, dropWhile_isWhitespace_all hl]
  congr 1
  by_cases hne : m = []
  · -- All white space: the first pass already drops everything.
    rw [hne, List.nil_append, List.dropWhile_eq_nil_iff.mpr hr]
    rfl
  · have hrev : m.reverse ≠ [] := List.reverse_ne_nil_iff.mpr hne
    have hback := dropWhile_isWhitespace_append (r := []) hrev
      (fun c hc => hm.2 c (by rwa [List.head?_reverse] at hc))
    rw [List.append_nil] at hback
    rw [dropWhile_isWhitespace_append hne hm.1, List.reverse_append,
      dropWhile_isWhitespace_all hr', hback, List.reverse_reverse]

theorem trim_of_tight {s : String} (hs : Tight s.toList) : trim s = s := by
  have h := trim_around (l := []) (r := []) (fun _ h => nomatch h) (fun _ h => nomatch h) hs
  rwa [List.nil_append, List.append_nil, String.ofList_toList] at h

/-- A trimmed text has no white space at its ends. -/
theorem tight_trim (s : String) : Tight (trim s).toList := by
  unfold trim
  rw [String.toList_ofList]
  constructor
  · -- What the second pass leaves is a prefix of what the first pass leaves.
    intro c hc
    have hpre := List.rdropWhile_prefix isWhitespace (s.toList.dropWhile isWhitespace)
    rcases hpre with ⟨rest, hrest⟩
    unfold List.rdropWhile at hrest
    have hfirst : (s.toList.dropWhile isWhitespace).head? = some c := by
      rw [← hrest, List.head?_append, hc]
      rfl
    have hnot := List.head?_dropWhile_not isWhitespace s.toList
    rw [hfirst] at hnot
    exact hnot
  · intro c hc
    rw [List.getLast?_reverse] at hc
    have hnot := List.head?_dropWhile_not isWhitespace
      (s.toList.dropWhile isWhitespace).reverse
    rw [hc] at hnot
    exact hnot

/-- A text is what trimming leaves with white space around it. -/
theorem exists_around (s : String) : ∃ l r : List Char, s.toList = l ++ (trim s).toList ++ r ∧
    (∀ c ∈ l, isWhitespace c = true) ∧ ∀ c ∈ r, isWhitespace c = true := by
  let front := s.toList.dropWhile isWhitespace
  refine ⟨s.toList.takeWhile isWhitespace, (front.reverse.takeWhile isWhitespace).reverse,
    ?_, fun c hc => List.mem_takeWhile_imp hc,
    fun c hc => List.mem_takeWhile_imp (List.mem_reverse.mp hc)⟩
  -- The second pass takes the white space at the end off what the first one leaves.
  have hfront : front = (trim s).toList ++ (front.reverse.takeWhile isWhitespace).reverse := by
    unfold trim
    rw [String.toList_ofList, ← List.reverse_append, List.takeWhile_append_dropWhile,
      List.reverse_reverse]
  rw [List.append_assoc, ← hfront]
  exact (List.takeWhile_append_dropWhile ..).symm

/-- White space at the end makes no difference to trimming. -/
theorem trim_append_white (cs : List Char) {r : List Char}
    (hr : ∀ c ∈ r, isWhitespace c = true) :
    trim (String.ofList (cs ++ r)) = trim (String.ofList cs) := by
  rcases exists_around (String.ofList cs) with ⟨front, back, hcs, hfront, hback⟩
  rw [String.toList_ofList] at hcs
  -- The white space behind the text is only longer.
  have hlong : ∀ c ∈ back ++ r, isWhitespace c = true := by
    intro c hc
    rcases List.mem_append.mp hc with hc | hc
    · exact hback c hc
    · exact hr c hc
  have htrim := trim_around hfront hlong (tight_trim (String.ofList cs))
  rw [← List.append_assoc, ← hcs, String.ofList_toList] at htrim
  exact htrim

/-- A carriage return at the end of a line is white space. -/
theorem trim_stripReturn (cs : List Char) :
    trim (String.ofList (stripReturn cs)) = trim (String.ofList cs) := by
  unfold stripReturn
  by_cases hlast : cs.getLast? = some '\r'
  · rcases List.getLast?_eq_some_iff.mp hlast with ⟨body, rfl⟩
    have hreturn : ∀ c ∈ ['\r'], isWhitespace c = true := by
      intro c hc
      rw [List.mem_singleton.mp hc]
      rfl
    rw [if_pos hlast, List.dropLast_concat, trim_append_white body hreturn]
  · rw [if_neg hlast]

/-! ### Lines -/

theorem joinLines_eq_intercalate (ls : List String) : joinLines ls = "\n".intercalate ls := by
  apply String.toList_inj.mp
  rw [String.toList_intercalate]
  unfold joinLines
  rw [String.toList_ofList]
  rfl

/-- Joined lines consist of the lines and newlines. -/
theorem of_mem_joinLines {ls : List String} {c : Char} (h : c ∈ (joinLines ls).toList) :
    c = '\n' ∨ ∃ line ∈ ls, c ∈ line.toList := by
  induction ls with
  | nil => exact absurd h List.not_mem_nil
  | cons line rest ih =>
      rw [joinLines_eq_intercalate] at h
      by_cases hrest : rest = []
      · rw [hrest, String.intercalate_singleton] at h
        exact Or.inr ⟨line, List.mem_cons_self, h⟩
      · rw [String.intercalate_cons_of_ne_nil hrest, ← joinLines_eq_intercalate,
          String.toList_append, String.toList_append] at h
        rcases List.mem_append.mp h with h | h
        · rcases List.mem_append.mp h with h | h
          · exact Or.inr ⟨line, List.mem_cons_self, h⟩
          · exact Or.inl (List.mem_singleton.mp h)
        · rcases ih h with hc | ⟨other, hother, hc⟩
          · exact Or.inl hc
          · exact Or.inr ⟨other, List.mem_cons_of_mem _ hother, hc⟩

/-- What stands between newlines, joined again. -/
theorem joinLines_splitOn (text : String) :
    joinLines ((text.toList.splitOn '\n').map String.ofList) = text := by
  have hid : (String.toList ∘ String.ofList) = id := funext (fun _ => String.toList_ofList)
  unfold joinLines
  rw [List.map_map, hid, List.map_id, List.intercalate_splitOn, String.ofList_toList]

/-- Joined lines start with what the first line starts with. -/
theorem head?_joinLines_cons {line : String} (hne : line.toList ≠ []) (rest : List String) :
    (joinLines (line :: rest)).toList.head? = line.toList.head? := by
  unfold joinLines
  rw [String.toList_ofList, List.map_cons]
  by_cases hrest : rest.map String.toList = []
  · rw [hrest, List.intercalate_singleton]
  · rw [List.intercalate_cons_of_ne_nil hrest, List.append_assoc,
      List.head?_append_of_ne_nil _ hne]

theorem mem_of_mem_stripReturn {cs : List Char} {c : Char} (h : c ∈ stripReturn cs) : c ∈ cs := by
  unfold stripReturn at h
  split at h
  · exact List.mem_of_mem_dropLast h
  · exact h

/-- What stands between newlines is from the text, and no newline. -/
theorem of_mem_splitOn {cs piece : List Char} {c : Char} (h : piece ∈ cs.splitOn '\n')
    (hc : c ∈ piece) : c ∈ cs ∧ c ≠ '\n' := by
  induction cs generalizing piece with
  | nil =>
      rw [List.splitOn_nil, List.mem_singleton] at h
      rw [h] at hc
      exact absurd hc List.not_mem_nil
  | cons first cs ih =>
      have hlater : ∀ p ∈ cs.splitOn '\n', c ∈ p → c ∈ first :: cs ∧ c ≠ '\n' :=
        fun p hp hcp => ⟨List.mem_cons_of_mem _ (ih hp hcp).1, (ih hp hcp).2⟩
      rw [List.splitOn_cons_eq_if_modifyHead] at h
      split at h
      · rcases List.mem_cons.mp h with rfl | h
        · exact absurd hc List.not_mem_nil
        · exact hlater piece h hc
      · next hfirst =>
          -- The character goes to the front of the first piece.
          rcases List.exists_cons_of_ne_nil (List.splitOn_ne_nil '\n' cs) with ⟨head, rest, hsplit⟩
          rw [hsplit, List.modifyHead_cons] at h
          rw [hsplit] at hlater
          rcases List.mem_cons.mp h with rfl | h
          · rcases List.mem_cons.mp hc with rfl | hc
            · exact ⟨List.mem_cons_self, fun h => hfirst (beq_iff_eq.mpr h)⟩
            · exact hlater head List.mem_cons_self hc
          · exact hlater piece (List.mem_cons_of_mem _ h) hc

/-- There is no newline in a line. -/
theorem not_mem_of_mem_lines {text line : String} (h : line ∈ lines text) :
    '\n' ∉ line.toList := by
  unfold lines at h
  rcases List.mem_map.mp h with ⟨cs, hcs, rfl⟩
  rw [String.toList_ofList]
  -- One of the lines that a newline closes, or the last one.
  rcases List.mem_append.mp hcs with hcs | hcs
  · rcases List.mem_map.mp hcs with ⟨piece, hpiece, rfl⟩
    intro hmem
    exact (of_mem_splitOn (List.mem_of_mem_dropLast hpiece) (mem_of_mem_stripReturn hmem)).2 rfl
  · split at hcs
    · exact absurd hcs List.not_mem_nil
    · rw [List.mem_singleton] at hcs
      rw [hcs]
      cases hlast : (text.toList.splitOn '\n').getLast? with
      | none => exact List.not_mem_nil
      | some piece => exact fun hmem => (of_mem_splitOn (List.mem_of_getLast? hlast) hmem).2 rfl

/-- The lines of joined lines: those that a newline follows lose a carriage
    return, and the last one does not count when it is empty. -/
theorem lines_joinLines_concat (init : List String) (last : String)
    (h : ∀ line ∈ init ++ [last], '\n' ∉ line.toList) :
    lines (joinLines (init ++ [last]))
      = init.map (fun line => String.ofList (stripReturn line.toList))
        ++ (if last.toList.isEmpty then [] else [last]) := by
  have hpieces : (joinLines (init ++ [last])).toList.splitOn '\n'
      = init.map String.toList ++ [last.toList] := by
    unfold joinLines
    rw [String.toList_ofList, List.splitOn_intercalate]
    · rw [List.map_append]
      rfl
    · intro cs hcs
      rcases List.mem_map.mp hcs with ⟨line, hline, rfl⟩
      exact h line hline
    · simp
  -- The pieces between newlines are the lines that were joined.
  unfold lines
  simp only [hpieces, List.getLast?_concat, Option.getD_some, List.dropLast_concat]
  rw [List.map_append, List.map_map, List.map_map]
  congr 1
  split
  · rfl
  · rw [List.map_singleton, String.ofList_toList]

/-- A line that is read as it is written: no newline in it and no carriage return at
    its end. -/
def IsLine (line : String) : Prop :=
  '\n' ∉ line.toList ∧ line.toList.getLast? ≠ some '\r'

instance (line : String) : Decidable (IsLine line) := inferInstanceAs (Decidable (_ ∧ _))

theorem IsLine.stripReturn {line : String} (h : IsLine line) :
    String.ofList (stripReturn line.toList) = line := by
  rw [VectorGuard.stripReturn, if_neg h.2, String.ofList_toList]

/-- Joined lines are read back if the last is not empty. -/
theorem lines_joinLines {ls : List String} (h : ∀ line ∈ ls, IsLine line)
    (hlast : ∀ last, ls.getLast? = some last → last ≠ "") : lines (joinLines ls) = ls := by
  rcases List.eq_nil_or_concat ls with rfl | ⟨init, last, rfl⟩
  · rfl
  · rw [List.concat_eq_append] at h hlast ⊢
    have hne : ¬ last.toList.isEmpty = true := by
      rw [List.isEmpty_iff, String.toList_eq_nil_iff]
      exact hlast last List.getLast?_concat
    have hkept : ∀ line ∈ init, String.ofList (stripReturn line.toList) = line :=
      fun line hline => (h line (List.mem_append_left _ hline)).stripReturn
    rw [lines_joinLines_concat init last (fun line hline => (h line hline).1), if_neg hne,
      List.map_congr_left hkept, List.map_id']

/-- Lines that are each followed by a newline. -/
def closedLines (ls : List String) : String := String.join (ls.map (fun line => line ++ "\n"))

theorem closedLines_append (ls ls' : List String) :
    closedLines (ls ++ ls') = closedLines ls ++ closedLines ls' := by
  unfold closedLines
  rw [List.map_append, String.join_append]

theorem closedLines_cons (line : String) (ls : List String) :
    closedLines (line :: ls) = line ++ "\n" ++ closedLines ls := by
  unfold closedLines
  rw [List.map_cons, String.join_cons]

theorem joinLines_concat (init : List String) (last : String) :
    joinLines (init ++ [last]) = closedLines init ++ last := by
  rw [joinLines_eq_intercalate]
  induction init with
  | nil =>
      rw [List.nil_append, String.intercalate_singleton]
      exact (String.empty_append).symm
  | cons line init ih =>
      have hne : init ++ [last] ≠ [] := List.append_ne_nil_of_right_ne_nil _ (List.cons_ne_nil _ _)
      rw [List.cons_append, String.intercalate_cons_of_ne_nil hne, ih, closedLines_cons,
        String.append_assoc, String.append_assoc, String.append_assoc]

/-- A text that consists of lines: a newline follows each, which may be missing from
    the last one unless that is empty. -/
def Consists (text : String) (ls : List String) : Prop :=
  text = closedLines ls ∨ text ++ "\n" = closedLines ls ∧ ls.getLast? ≠ some ""

/-- The lines a text consists of are its lines. -/
theorem lines_of_consists {text : String} {ls : List String} (h : Consists text ls)
    (hls : ∀ line ∈ ls, IsLine line) : lines text = ls := by
  rcases h with rfl | ⟨htext, hlast⟩
  · have hkept : ∀ line ∈ ls, String.ofList (stripReturn line.toList) = line :=
      fun line hline => (hls line hline).stripReturn
    have hjoin := joinLines_concat ls ""
    rw [String.append_empty] at hjoin
    rw [← hjoin, lines_joinLines_concat, List.map_congr_left hkept, List.map_id']
    · exact List.append_nil ls
    · intro line hline
      rcases List.mem_append.mp hline with hline | hline
      · exact (hls line hline).1
      · rw [List.mem_singleton.mp hline]
        exact List.not_mem_nil
  · rcases List.eq_nil_or_concat ls with rfl | ⟨init, last, rfl⟩
    · -- No lines are the empty text, which no newline ends.
      have hlen := congrArg String.length htext
      rw [String.length_append] at hlen
      exact absurd hlen (Nat.succ_ne_zero _)
    · rw [List.concat_eq_append] at htext hlast hls ⊢
      have hsame : text = joinLines (init ++ [last]) := by
        have hnil : closedLines [] = "" := rfl
        rw [closedLines_append, closedLines_cons, hnil, String.append_empty,
          ← String.append_assoc] at htext
        rw [joinLines_concat]
        exact (String.append_left_inj "\n").mp htext
      rw [hsame]
      refine lines_joinLines hls (fun l hl hempty => hlast ?_)
      rw [hl, hempty]

end VectorGuard
