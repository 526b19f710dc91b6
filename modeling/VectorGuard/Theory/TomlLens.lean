import VectorGuard.Theory.TomlScan

/-!
# Lens Laws of the Scan

Reading and writing a key as a pair, on every text.

What is written is read, and nothing else is read differently, whether or not the key
is found. Besides, the new text consists of the lines of the old one with at most one
of them rewritten. The lines are joined by newlines, whatever closed them before, and
so they are not in every case the lines of the new text: a carriage return at the end
of a line is then before a newline, and an empty line at the end is not closed.

## Main definitions

* `isScanValue`: A value that is read as it is written.
* `updatedLines`: The lines that a written text is joined from.
* `LensLaws`: What reading and writing have to do with each other.
* `RereadsOthers`: The other lines of the written text are those of the old one.

## Theorems

* `extract_update_of_none`: Nothing changes where the key is not found.
* `lensLaws`: The laws hold on every text.
* `returns_not_reread`: A line that is not read again.
-/

namespace VectorGuard

/-- A value that is read as it is written. -/
structure IsScanValue (raw : String) : Prop where
  tight : Tight raw.toList
  noHash : '#' ∉ raw.toList
  noNewline : '\n' ∉ raw.toList

/-- The lines that a written text is joined from: those of the old text, with the one that
    is found rewritten. -/
def updatedLines (text section_ key raw : String) : List String :=
  match foundAt text section_ key with
  | some i => rewritten text key raw i
  | none => lines text

/-- What is read of lines that were joined: only the last one keeps a carriage return at
    its end, and does not count if it is empty. -/
def reread (ls : List String) : List String :=
  ls.dropLast.map (fun line => String.ofList (stripReturn line.toList)) ++
    (ls.getLast?.filter (fun last => !last.toList.isEmpty)).toList

theorem lines_joinLines_eq_reread {ls : List String} (h : ∀ line ∈ ls, '\n' ∉ line.toList) :
    lines (joinLines ls) = reread ls := by
  rcases List.eq_nil_or_concat ls with rfl | ⟨init, last, rfl⟩
  · rfl
  · rw [List.concat_eq_append] at h ⊢
    unfold reread
    rw [lines_joinLines_concat init last h, List.dropLast_concat, List.getLast?_concat,
      Option.filter_some]
    cases last.toList.isEmpty <;> rfl

section Laws

variable {text section_ key raw : String}

theorem updateTomlValue_eq_joinLines (text section_ key raw : String) :
    updateTomlValue text section_ key raw = joinLines (updatedLines text section_ key raw) := by
  unfold updatedLines
  cases hfind : foundAt text section_ key with
  | some i => exact updateTomlValue_eq raw hfind
  | none =>
      unfold foundAt at hfind
      unfold updateTomlValue
      rw [updateFrom_eq, hfind]

theorem not_mem_updatedLines (hkey : isScanName key = true) (hraw : IsScanValue raw) :
    ∀ line ∈ updatedLines text section_ key raw, '\n' ∉ line.toList := by
  unfold updatedLines
  cases foundAt text section_ key with
  | some i => exact not_mem_rewritten hkey hraw.noNewline
  | none => exact fun line hline => not_mem_of_mem_lines hline

/-- Nothing is read differently where the key is not found. -/
theorem extract_update_of_none (hfind : foundAt text section_ key = none)
    (section' key' : String) :
    extractTomlValue (updateTomlValue text section_ key raw) section' key'
      = extractTomlValue text section' key' := by
  rw [updateTomlValue_eq_joinLines, updatedLines, hfind,
    extractTomlValue_joinLines (fun line hline => not_mem_of_mem_lines hline)]
  rfl

/-- What reading a key and writing it have to do with each other. -/
structure LensLaws (text section_ key raw : String) : Prop where
  written : (foundAt text section_ key).isSome →
    extractTomlValue (updateTomlValue text section_ key raw) section_ key = raw
  others : (foundAt text section_ key).isSome → ∀ section' key',
    ¬ (section' = section_ ∧ key' = key) →
      extractTomlValue (updateTomlValue text section_ key raw) section' key'
        = extractTomlValue text section' key'
  notFound : foundAt text section_ key = none → ∀ section' key',
    extractTomlValue (updateTomlValue text section_ key raw) section' key'
      = extractTomlValue text section' key'
  joined : updateTomlValue text section_ key raw = joinLines (updatedLines text section_ key raw)
  lines_eq : lines (updateTomlValue text section_ key raw)
    = reread (updatedLines text section_ key raw)

/-- The laws hold on every text, for every section, key and value that the scan can tell
    apart. -/
theorem lensLaws (text section_ key raw : String) (hkey : isScanName key = true)
    (hraw : IsScanValue raw) : LensLaws text section_ key raw where
  written hfound := by
    rcases Option.isSome_iff_exists.mp hfound with ⟨i, hfind⟩
    exact extract_update_self hkey hraw.tight hraw.noHash hraw.noNewline hfind
  others hfound section' key' hne := by
    rcases Option.isSome_iff_exists.mp hfound with ⟨i, hfind⟩
    exact extract_update_of_ne hkey hraw.tight hraw.noHash hraw.noNewline hfind hne
  notFound hfind section' key' := extract_update_of_none hfind section' key'
  joined := updateTomlValue_eq_joinLines text section_ key raw
  lines_eq := by
    rw [updateTomlValue_eq_joinLines]
    exact lines_joinLines_eq_reread (not_mem_updatedLines hkey hraw)

end Laws

theorem isScanValue_two : IsScanValue "2" where
  tight := by
    constructor
    · intro c hc
      rw [← Option.some.inj hc]
      decide
    · intro c hc
      rw [← Option.some.inj hc]
      decide
  noHash := by decide
  noNewline := by decide

/-- Windows line ends and a comment. -/
theorem lensLaws_returns : LensLaws "# a\r\n[s]\r\nk = 1 # one\r\n" "s" "k" "2" :=
  lensLaws _ "s" "k" "2" (by decide) isScanValue_two

/-- The lines but the edited one are those of the old text, up to an empty one at the end. -/
def RereadsOthers (text section_ key raw : String) : Prop :=
  let kept (ls : List String) : List String :=
    match foundAt text section_ key with
    | some i => ls.eraseIdx i
    | none => ls
  let before := kept (lines text)
  let after := kept (lines (updateTomlValue text section_ key raw))
  after = before ∨ after ++ [""] = before

instance (text section_ key raw : String) : Decidable (RereadsOthers text section_ key raw) :=
  inferInstanceAs (Decidable (_ ∨ _))

/-- A line that ends in a carriage return is not read again as it was. -/
theorem returns_not_reread :
    ¬ ∀ text section_ key raw : String, (isScanName section_ = true ∧ ']' ∉ section_.toList) →
      (isScanName key = true ∧ ']' ∉ key.toList) → IsScanValue raw →
        RereadsOthers text section_ key raw := by
  intro hall
  have h := hall "a\r\r\n[s]\nk = 1" "s" "k" "2" (by decide) (by decide) isScanValue_two
  revert h
  decide +kernel

end VectorGuard
