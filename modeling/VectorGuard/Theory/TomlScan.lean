import VectorGuard.Core.Toml
import VectorGuard.Core.ConfigEditor
import VectorGuard.Lib.SectionedLines
import VectorGuard.Theory.TextLines

/-!
# What the Scan Finds

The two loops of the configuration editor look at the same lines in the same way:
as section headers, entries and other lines (`classify`). Reading is looking up
the first entry of a key in a section, writing is replacing that line
(`extractFrom_eq`, `updateFrom_eq`).

The line that is written is again an entry of the key (`classify_rewriteLine`),
and joining the lines and splitting them again makes no difference to what they
are (`extractTomlValue_joinLines`). So the value that was written is read, and
the values of all other keys are read as before.

## Main definitions

* `classify`: What the scan takes a line for.
* `isScanName`: A key that the scan can tell from everything else on a line.

## Theorems

* `extract_update_self`, `extract_update_of_ne`: What is read after writing.
-/

namespace VectorGuard

open SectionedLines

/-- What the scan takes a line for. -/
def classify (line : String) : Line String String String :=
  let trimmed := trim line
  if isSectionHeader trimmed then .header trimmed
  else match keyValueOf trimmed with
    | some (k, v) => .entry k v
    | none => .other

theorem classify_header {line : String} (h : isSectionHeader (trim line) = true) :
    classify line = .header (trim line) := if_pos h

theorem classify_entry {line : String} (h : ¬ isSectionHeader (trim line) = true)
    {k v : String} (hkv : keyValueOf (trim line) = some (k, v)) : classify line = .entry k v := by
  unfold classify
  dsimp only
  rw [if_neg h, hkv]

theorem classify_other {line : String} (h : ¬ isSectionHeader (trim line) = true)
    (hkv : keyValueOf (trim line) = none) : classify line = .other := by
  unfold classify
  dsimp only
  rw [if_neg h, hkv]

/-- A key that the scan can tell from everything else on a line. -/
def isScanName (key : String) : Bool :=
  !key.isEmpty && key.toList.all (fun c => !isWhitespace c && c != '=' && c != '#' && c != '[')

/-- Reading is looking up. -/
theorem extractFrom_eq (target key : String) (inSection : Bool) (ls : List String) :
    extractFrom target key inSection ls
      = (get target key inSection (ls.map classify)).getD "" := by
  -- The loop and the look-up go through the lines together, in the same section.
  induction ls generalizing inSection with
  | nil => rfl
  | cons line rest ih =>
      unfold extractFrom
      rw [List.map_cons]
      by_cases hheader : isSectionHeader (trim line) = true
      · rw [if_pos hheader, classify_header hheader, ih]
        rfl
      · rw [if_neg hheader]
        cases hkv : keyValueOf (trim line) with
        | none =>
            rw [ite_self, classify_other hheader hkv]
            exact ih inSection
        | some kv =>
            rcases kv with ⟨k, v⟩
            rw [classify_entry hheader hkv]
            dsimp only
            unfold SectionedLines.get
            -- Outside the section an entry is passed over, inside only one of another key.
            cases inSection with
            | false =>
                rw [Bool.not_false, if_pos rfl, if_neg (fun h => Bool.false_ne_true h.1)]
                exact ih false
            | true =>
                rw [Bool.not_true, if_neg Bool.false_ne_true]
                by_cases hk : k = key
                · rw [if_pos (beq_iff_eq.mpr hk), if_pos ⟨rfl, hk⟩]
                  rfl
                · rw [if_neg (fun h => hk (beq_iff_eq.mp h)), if_neg (fun h => hk h.2)]
                  exact ih true

/-- After the line is replaced the loop only copies. -/
theorem updateFrom_replaced (target key newVal : String) (inSection : Bool) (ls : List String) :
    updateFrom target key newVal inSection true ls = ls := by
  induction ls generalizing inSection with
  | nil => rfl
  | cons line rest ih =>
      unfold updateFrom
      rw [Bool.not_true, Bool.and_false]
      by_cases hheader : isSectionHeader (trim line) = true
      · simp only [if_pos hheader, ih]
      · simp only [if_neg hheader, if_neg Bool.false_ne_true, ih]

/-- Writing is replacing the line that is found. -/
theorem updateFrom_eq (target key newVal : String) (inSection : Bool) (ls : List String) :
    updateFrom target key newVal inSection false ls
      = match find target key inSection (ls.map classify) with
        | some i => ls.modify i (fun line => rewriteLine line key newVal)
        | none => ls := by
  induction ls generalizing inSection with
  | nil => rfl
  | cons line rest ih =>
      -- Where the line is only copied, the position moves by one.
      have hcopy : ∀ b, line :: updateFrom target key newVal b false rest
          = match (find target key b (rest.map classify)).map Nat.succ with
            | some i => (line :: rest).modify i (fun line => rewriteLine line key newVal)
            | none => line :: rest := by
        intro b
        rw [ih]
        cases find target key b (rest.map classify) with
        | none => rfl
        | some i =>
            rw [Option.map_some]
            exact (List.modify_succ_cons ..).symm
      unfold updateFrom
      rw [List.map_cons, Bool.not_false, Bool.and_true]
      by_cases hheader : isSectionHeader (trim line) = true
      · simp only [if_pos hheader, classify_header hheader]
        exact hcopy _
      · rw [if_neg hheader]
        cases hkv : keyValueOf (trim line) with
        | none =>
            simp only [ite_self, classify_other hheader hkv]
            exact hcopy inSection
        | some kv =>
            rcases kv with ⟨k, v⟩
            rw [classify_entry hheader hkv]
            dsimp only
            unfold find
            cases inSection with
            | false =>
                rw [if_neg Bool.false_ne_true, if_neg (fun h => Bool.false_ne_true h.1)]
                exact hcopy false
            | true =>
                rw [if_pos rfl]
                by_cases hk : k = key
                · rw [if_pos (beq_iff_eq.mpr hk), if_pos ⟨rfl, hk⟩, updateFrom_replaced]
                  rfl
                · rw [if_neg (fun h => hk (beq_iff_eq.mp h)), if_neg (fun h => hk h.2)]
                  exact hcopy true

/-! ### The written line -/

theorem isScanName_iff {key : String} : isScanName key = true ↔
    key.toList ≠ [] ∧ ∀ c ∈ key.toList, isWhitespace c = false ∧ c ≠ '=' ∧ c ≠ '#' ∧ c ≠ '[' := by
  unfold isScanName
  rw [Bool.and_eq_true, List.all_eq_true]
  constructor
  · rintro ⟨hne, hall⟩
    refine ⟨?_, fun c hc => ?_⟩
    · intro hnil
      rw [String.toList_eq_nil_iff] at hnil
      rw [hnil] at hne
      exact absurd hne (by simp)
    · simpa [and_assoc] using hall c hc
  · rintro ⟨hne, hall⟩
    refine ⟨?_, fun c hc => ?_⟩
    · simpa using fun hnil => hne (String.toList_eq_nil_iff.mpr hnil)
    · simpa [and_assoc] using hall c hc

/-- The code points of the characters of a bare key: they lie between those of the
    hyphen and of `z`, and neither the equals sign nor the bracket is among them. -/
theorem toNat_of_bare {c : Char} (h : (c.isAlphanum || c == '-' || c == '_') = true) :
    45 ≤ c.toNat ∧ c.toNat ≤ 122 ∧ c.toNat ≠ 61 ∧ c.toNat ≠ 91 := by
  rw [Bool.or_eq_true, Bool.or_eq_true, beq_iff_eq, beq_iff_eq] at h
  rcases h with (h | rfl) | rfl
  · have hval : c.val.toNat = c.toNat := rfl
    have hdef : c.isAlphanum = ((decide (65 ≤ c.val ∧ c.val ≤ 90) ||
        (decide (97 ≤ c.val) && decide (c.val ≤ 122))) ||
        (decide (48 ≤ c.val) && decide (c.val ≤ 57))) := rfl
    simp only [hdef, Bool.or_eq_true, Bool.and_eq_true, decide_eq_true_eq,
      UInt32.le_iff_toNat_le, hval] at h
    simp at h
    omega
  · decide
  · decide

theorem isBareKey_iff {key : String} : isBareKey key = true ↔
    key.toList ≠ [] ∧ ∀ c ∈ key.toList, (c.isAlphanum || c == '-' || c == '_') = true := by
  unfold isBareKey
  rw [Bool.and_eq_true, List.all_eq_true, Bool.not_eq_true', String.isEmpty_eq_false_iff,
    ne_eq, ne_eq, String.toList_eq_nil_iff]

/-- The scan can tell a bare key from everything else. -/
theorem isScanName_of_isBareKey {key : String} (h : isBareKey key = true) :
    isScanName key = true := by
  rcases isBareKey_iff.mp h with ⟨hne, hall⟩
  refine isScanName_iff.mpr ⟨hne, fun c hc => ?_⟩
  rcases toNat_of_bare (hall c hc) with ⟨hlow, hhigh, hequals, hbracket⟩
  refine ⟨?_, ?_, ?_, ?_⟩
  · simp [isWhitespace]
    omega
  · rintro rfl
    exact hequals rfl
  · rintro rfl
    exact absurd hlow (by decide)
  · rintro rfl
    exact hbracket rfl

/-- Only a text that starts with a bracket is a section header. -/
theorem isSectionHeader_of_head {text : String} (h : text.toList.head? ≠ some '[') :
    isSectionHeader text = false := by
  unfold isSectionHeader
  cases hbracket : startsWith text "[" with
  | false => rfl
  | true =>
      rcases exists_append_of_startsWith hbracket with ⟨rest, rfl⟩
      exact absurd (by rw [String.toList_append]; rfl) h

/-- What stands before the first equals sign is the key, what stands after it the value. -/
theorem keyValueOf_eq {key value : List Char}
    (hkey : ∀ c ∈ key, c ≠ '=') (hhash : ∀ c ∈ key ++ '=' :: value, c ≠ '#')
    (htight : Tight (key ++ '=' :: value)) :
    keyValueOf (String.ofList (key ++ '=' :: value))
      = some (trim (String.ofList key), trim (String.ofList value)) := by
  have hcode : ((key ++ '=' :: value).takeWhile fun c => c != '#') = key ++ '=' :: value :=
    List.takeWhile_eq_self_iff.mpr (fun c hc => bne_iff_ne.mpr (hhash c hc))
  have hbefore : ∀ c ∈ key, (c != '=') = true := fun c hc => bne_iff_ne.mpr (hkey c hc)
  have hdrop : ('=' :: value).dropWhile (fun c => c != '=') = '=' :: value := rfl
  have htake : ('=' :: value).takeWhile (fun c => c != '=') = [] := rfl
  have hline : trim (String.ofList (key ++ '=' :: value)) = String.ofList (key ++ '=' :: value) :=
    trim_of_tight (by rwa [String.toList_ofList])
  unfold keyValueOf splitOnce
  simp only [String.toList_ofList, hcode, hline, List.dropWhile_append_of_pos hbefore,
    List.takeWhile_append_of_pos hbefore, hdrop, htake, List.append_nil, Option.map_some]

theorem white_space : ∀ c ∈ [' '], isWhitespace c = true := by
  intro c hc
  rw [List.mem_singleton.mp hc]
  rfl

/-- A text that starts with a key has no white space in front. -/
theorem tight_key_append {key : String} (hkey : isScanName key = true) {rest : List Char}
    (hlast : ∀ c, rest.getLast? = some c → isWhitespace c = false) (hne : rest ≠ []) :
    Tight (key.toList ++ rest) := by
  rcases isScanName_iff.mp hkey with ⟨hkeyNe, hall⟩
  constructor
  · intro c hc
    rw [List.head?_append_of_ne_nil _ hkeyNe] at hc
    exact (hall c (List.mem_of_head? hc)).1
  · intro c hc
    rw [List.getLast?_append_of_ne_nil _ hne] at hc
    exact hlast c hc

/-- Trimming the written line leaves the key, the equals sign and the value with
    the space in front of it, and not even that space when the value is empty. -/
theorem trim_rewriteLine (line : String) {key raw : String} (hkey : isScanName key = true)
    (htight : Tight raw.toList) :
    ∃ value : List Char, value ⊆ ' ' :: raw.toList ∧ trim (String.ofList value) = raw ∧
      Tight ((key.toList ++ [' ']) ++ '=' :: value) ∧
      trim (rewriteLine line key raw) = String.ofList ((key.toList ++ [' ']) ++ '=' :: value) := by
  have hindent : ∀ c ∈ line.toList.takeWhile isWhitespace, isWhitespace c = true :=
    fun c hc => List.mem_takeWhile_imp hc
  by_cases hraw : raw.toList = []
  · -- The space after the equals sign is at the end of the line.
    have hbody : Tight ((key.toList ++ [' ']) ++ '=' :: []) := by
      rw [List.append_assoc]
      apply tight_key_append hkey _ (by simp)
      intro c hc
      rw [← Option.some.inj hc]
      rfl
    have hchars : rewriteLine line key raw = String.ofList
        (line.toList.takeWhile isWhitespace ++ ((key.toList ++ [' ']) ++ '=' :: []) ++ [' ']) := by
      apply String.toList_inj.mp
      simp [rewriteLine, hraw]
    refine ⟨[], List.nil_subset _, (String.toList_eq_nil_iff.mp hraw).symm, hbody, ?_⟩
    rw [hchars, trim_around hindent white_space hbody]
  · have hbody : Tight ((key.toList ++ [' ']) ++ '=' :: ' ' :: raw.toList) := by
      rw [List.append_assoc]
      apply tight_key_append hkey _ (by simp)
      intro c hc
      apply htight.2 c
      rw [← hc]
      exact (List.getLast?_append_of_ne_nil [' ', '=', ' '] hraw).symm
    have hchars : rewriteLine line key raw = String.ofList
        (line.toList.takeWhile isWhitespace
          ++ ((key.toList ++ [' ']) ++ '=' :: ' ' :: raw.toList) ++ []) := by
      apply String.toList_inj.mp
      simp [rewriteLine]
    refine ⟨' ' :: raw.toList, List.Subset.refl _, ?_, hbody, ?_⟩
    · have haround := trim_around (r := []) white_space (fun _ h => absurd h List.not_mem_nil) htight
      rwa [List.append_nil, String.ofList_toList] at haround
    · rw [hchars, trim_around hindent (fun _ h => absurd h List.not_mem_nil) hbody]

/-- The written line is an entry of the key with the written value. -/
theorem classify_rewriteLine (line : String) {key raw : String} (hkey : isScanName key = true)
    (htight : Tight raw.toList) (hhash : '#' ∉ raw.toList) :
    classify (rewriteLine line key raw) = .entry key raw := by
  rcases isScanName_iff.mp hkey with ⟨hne, hall⟩
  rcases trim_rewriteLine line hkey htight with ⟨value, hsub, hvalue, hbody, htrim⟩
  -- The first equals sign is the one that was written, and nothing is cut off as a comment.
  have hequals : ∀ c ∈ key.toList ++ [' '], c ≠ '=' := by
    intro c hc
    rcases List.mem_append.mp hc with hc | hc
    · exact (hall c hc).2.1
    · rw [List.mem_singleton.mp hc]
      simp
  have hnoHash : ∀ c ∈ (key.toList ++ [' ']) ++ '=' :: value, c ≠ '#' := by
    intro c hc
    rcases List.mem_append.mp hc with hc | hc
    · rcases List.mem_append.mp hc with hc | hc
      · exact (hall c hc).2.2.1
      · rw [List.mem_singleton.mp hc]
        simp
    · rcases List.mem_cons.mp hc with rfl | hc
      · simp
      · rcases List.mem_cons.mp (hsub hc) with rfl | hc
        · simp
        · exact fun h => hhash (h ▸ hc)
  have hkeyTight : Tight key.toList :=
    ⟨fun c hc => (hall c (List.mem_of_head? hc)).1, fun c hc => (hall c (List.mem_of_getLast? hc)).1⟩
  have hentry : keyValueOf (trim (rewriteLine line key raw)) = some (key, raw) := by
    rw [htrim, keyValueOf_eq hequals hnoHash hbody, hvalue, trim_append_white _ white_space,
      String.ofList_toList, trim_of_tight hkeyTight]
  have hheader : isSectionHeader (trim (rewriteLine line key raw)) = false := by
    apply isSectionHeader_of_head
    rw [htrim, String.toList_ofList, List.append_assoc, List.head?_append_of_ne_nil _ hne]
    intro h
    exact (hall _ (List.mem_of_head? h)).2.2.2 rfl
  unfold classify
  simp only [hheader, hentry, Bool.false_eq_true, if_false]

/-! ### Texts -/

/-- The number of the line that is found for a key in a section. -/
def foundAt (text section_ key : String) : Option Nat :=
  find ("[" ++ section_ ++ "]") key false ((lines text).map classify)

theorem classify_stripReturn (line : String) :
    classify (String.ofList (stripReturn line.toList)) = classify line := by
  unfold classify
  rw [trim_stripReturn, String.ofList_toList]

theorem classify_empty : classify "" = .other := by
  have htrim : trim "" = "" := trim_of_tight tight_nil
  have hheader : isSectionHeader "" = false := isSectionHeader_of_head (by simp)
  have hentry : keyValueOf "" = none := by decide +kernel
  unfold classify
  simp only [htrim, hheader, hentry, Bool.false_eq_true, if_false]

/-- Joining lines and splitting them again makes no difference to what is read. -/
theorem extractTomlValue_joinLines {ls : List String} (h : ∀ line ∈ ls, '\n' ∉ line.toList)
    (section_ key : String) :
    extractTomlValue (joinLines ls) section_ key
      = extractFrom ("[" ++ section_ ++ "]") key false ls := by
  unfold extractTomlValue
  rw [extractFrom_eq, extractFrom_eq]
  rcases List.eq_nil_or_concat ls with rfl | ⟨init, last, rfl⟩
  · rfl
  · rw [List.concat_eq_append] at h ⊢
    rw [lines_joinLines_concat init last h, List.map_append, List.map_append, List.map_map]
    have hinit : init.map (classify ∘ fun line => String.ofList (stripReturn line.toList))
        = init.map classify := by
      apply List.map_congr_left
      intro line _
      rw [Function.comp_apply, classify_stripReturn]
    rw [hinit]
    by_cases hlast : last.toList.isEmpty = true
    · -- The empty line at the end is gone, and it was neither a header nor an entry.
      have hempty : last = "" := by
        rw [List.isEmpty_iff, String.toList_eq_nil_iff] at hlast
        exact hlast
      rw [if_pos hlast, hempty, List.map_singleton, classify_empty, get_append_other, List.map_nil, List.append_nil]
    · rw [if_neg hlast]

theorem not_mem_rewriteLine {line key raw : String} (hline : '\n' ∉ line.toList)
    (hkey : isScanName key = true) (hraw : '\n' ∉ raw.toList) :
    '\n' ∉ (rewriteLine line key raw).toList := by
  have hkeyChars := (isScanName_iff.mp hkey).2
  unfold rewriteLine
  rw [String.toList_append, String.toList_append, String.toList_append, String.toList_ofList]
  intro hmem
  -- In the indentation, the key, the equals sign or the value.
  rcases List.mem_append.mp hmem with hmem | hmem
  · rcases List.mem_append.mp hmem with hmem | hmem
    · rcases List.mem_append.mp hmem with hmem | hmem
      · exact hline ((List.takeWhile_prefix _).mem hmem)
      · exact absurd (hkeyChars _ hmem).1 (by decide)
    · exact absurd hmem (by decide)
  · exact hraw hmem

/-- The lines of a text with one of them rewritten. -/
def rewritten (text key raw : String) (i : Nat) : List String :=
  (lines text).modify i (fun line => rewriteLine line key raw)

theorem updateTomlValue_eq {text section_ key : String} {i : Nat} (raw : String)
    (hfind : foundAt text section_ key = some i) :
    updateTomlValue text section_ key raw = joinLines (rewritten text key raw i) := by
  unfold foundAt at hfind
  unfold updateTomlValue
  rw [updateFrom_eq, hfind]
  rfl

section Written

variable {text section_ key raw : String} {i : Nat}

theorem not_mem_rewritten (hkey : isScanName key = true) (hraw : '\n' ∉ raw.toList) :
    ∀ line ∈ rewritten text key raw i, '\n' ∉ line.toList := by
  intro line hline
  rcases List.mem_iff_getElem?.mp hline with ⟨j, hj⟩
  unfold rewritten at hj
  rw [List.getElem?_modify] at hj
  rcases Option.map_eq_some_iff.mp hj with ⟨old, hold, rfl⟩
  have hOld : '\n' ∉ old.toList := not_mem_of_mem_lines (List.mem_of_getElem? hold)
  -- The line is the rewritten one or one of the others.
  by_cases hij : i = j
  · rw [if_pos hij]
    exact not_mem_rewriteLine hOld hkey hraw
  · rw [if_neg hij]
    exact hOld

/-- To the scan the rewritten line is an entry and the others are what they were. -/
theorem map_classify_rewritten (hkey : isScanName key = true) (htight : Tight raw.toList)
    (hhash : '#' ∉ raw.toList) :
    (rewritten text key raw i).map classify = ((lines text).map classify).set i (.entry key raw) := by
  unfold rewritten
  apply List.ext_getElem?
  intro j
  rw [List.getElem?_map, List.getElem?_modify, List.getElem?_set, List.getElem?_map,
    List.length_map]
  by_cases hij : i = j
  · subst hij
    by_cases hlt : i < (lines text).length
    · rw [List.getElem?_eq_getElem hlt]
      simp [hlt, classify_rewriteLine _ hkey htight hhash]
    · rw [List.getElem?_eq_none (Nat.le_of_not_lt hlt)]
      simp [hlt]
  · simp [hij]

variable (hkey : isScanName key = true) (htight : Tight raw.toList) (hhash : '#' ∉ raw.toList)
  (hnewline : '\n' ∉ raw.toList) (hfind : foundAt text section_ key = some i)

include hkey htight hhash hnewline hfind

/-- What was written is read. -/
theorem extract_update_self :
    extractTomlValue (updateTomlValue text section_ key raw) section_ key = raw := by
  rw [updateTomlValue_eq raw hfind,
    extractTomlValue_joinLines (not_mem_rewritten hkey hnewline), extractFrom_eq,
    map_classify_rewritten hkey htight hhash, get_set_self raw hfind, Option.getD_some]

/-- Every other key is read as before. -/
theorem extract_update_of_ne {section' key' : String}
    (hne : ¬ (section' = section_ ∧ key' = key)) :
    extractTomlValue (updateTomlValue text section_ key raw) section' key'
      = extractTomlValue text section' key' := by
  have htarget : ¬ ("[" ++ section' ++ "]" = "[" ++ section_ ++ "]" ∧ key' = key) := by
    rintro ⟨hsection, hkey'⟩
    refine hne ⟨?_, hkey'⟩
    simpa using hsection
  -- The rewritten line is an entry of the key before and after, and no other key's.
  rw [updateTomlValue_eq raw hfind,
    extractTomlValue_joinLines (not_mem_rewritten hkey hnewline), extractFrom_eq,
    map_classify_rewritten hkey htight hhash,
    get_set_of_ne raw hfind htarget (fun _ h => Bool.false_ne_true h.1)]
  unfold extractTomlValue
  rw [extractFrom_eq]

end Written

end VectorGuard
