import VectorGuard.Lib.Transition
import VectorGuard.Theory.TomlTables
import VectorGuard.Theory.TomlScan
import VectorGuard.Theory.PlainToml

/-!
# What the Configuration Editor Saves

The editor finds keys by scanning lines, the daemon by reading the language. An
edit is safe where both agree: the line the scan finds is a key/value expression
on its own, under the header of the section, and what was typed is a value that
the key's type takes, without a hash sign or a newline, which would end it early
for the scan (`SoundEdit`).

One safe edit replaces the value of the key in the loaded table and changes
nothing else (`fromStr_update`). Along a run of safe edits the text stays one that
loads, with the displayed values at the edited keys, the old values everywhere
else, and every field displayed as it would be read from the text
(`saved_of_run`).

Without the condition an edit is lost: a key that the text leaves at its default
has no line to rewrite, and the editor shows the new value all the same
(`absent_key_dropped`).

## Main definitions

* `SoundEdit`: A safe edit.
* `confirmedFields`: The fields that keys confirm.
* `Saves`: What saving means for the fields.

## Theorems

* `fromStr_update`: What a rewritten line does to the loaded table.
* `saved_of_run`: What a run of safe edits saves.
-/

namespace VectorGuard

/-! ### One line of a document -/

/-- Line `i` of a text is a key/value expression under the header of a section. -/
structure OwnLine (toml : TomlCrate) (text section_ key : String) (i : Nat) (old : TomlValue) :
    Prop where
  above : ∃ done, toml.expressions (joinLines ((lines text).take i)) = some done ∧
    currentTable done = some [section_]
  line : ∃ line, (lines text)[i]? = some line ∧
    toml.expressions line = some [.keyval [key] old]

/-- A text that starts with a written line does not start with a byte order mark. -/
theorem head?_joinLines_rewriteLine {line key raw : String} (hbare : isBareKey key = true)
    (rest : List String) :
    (joinLines (rewriteLine line key raw :: rest)).toList.head? ≠ some '\uFEFF' := by
  rcases isBareKey_iff.mp hbare with ⟨hne, hall⟩
  have hchars : (rewriteLine line key raw).toList
      = line.toList.takeWhile isWhitespace ++ (key.toList ++ (" = ".toList ++ raw.toList)) := by
    unfold rewriteLine
    rw [String.toList_append, String.toList_append, String.toList_append, String.toList_ofList,
      List.append_assoc, List.append_assoc]
  have hkeyNe : ∀ more, key.toList ++ more ≠ [] :=
    fun more => List.append_ne_nil_of_left_ne_nil hne more
  rw [head?_joinLines_cons (by rw [hchars]; exact List.append_ne_nil_of_right_ne_nil _ (hkeyNe _)),
    hchars]
  intro hmark
  -- The first character is one of the indentation, or of the key when there is none.
  by_cases hindent : line.toList.takeWhile isWhitespace = []
  · rw [hindent, List.nil_append, List.head?_append_of_ne_nil _ hne] at hmark
    rcases toNat_of_bare (hall _ (List.mem_of_head? hmark)) with ⟨_, hhigh, _⟩
    exact absurd hhigh (by decide)
  · rw [List.head?_append_of_ne_nil _ hindent] at hmark
    exact absurd (List.mem_takeWhile_imp (List.mem_of_head? hmark)) (by decide)

section Document

variable {toml : TomlCrate} (hlawful : toml.Lawful)

include hlawful

/-- A document that starts with a document is that one and the rest. -/
theorem expressions_of_append {first second : String} {done all : List TomlExpr}
    (hfirst : toml.expressions first = some done)
    (hall : toml.expressions (first ++ "\n" ++ second) = some all) :
    ∃ rest, second.toList.head? ≠ some '\uFEFF' ∧ toml.expressions second = some rest ∧
      all = done ++ rest := by
  rw [hlawful.append first second done hfirst] at hall
  -- With a byte order mark in the middle there would be nothing to read.
  by_cases hmark : second.toList.head? = some '\uFEFF'
  · rw [if_pos hmark] at hall
    exact absurd hall (by simp)
  · rw [if_neg hmark, Option.map_eq_some_iff] at hall
    rcases hall with ⟨rest, hrest, rfl⟩
    exact ⟨rest, hmark, hrest, rfl⟩

/-- A first line that is one expression can be replaced by another such line. -/
theorem expressions_replace_first {line : String} {after : List String} {e : TomlExpr}
    {all : List TomlExpr} (hline : toml.expressions line = some [e])
    (hall : toml.expressions (joinLines (line :: after)) = some all) :
    ∃ rest, all = e :: rest ∧ ∀ line' e', toml.expressions line' = some [e'] →
      toml.expressions (joinLines (line' :: after)) = some (e' :: rest) := by
  by_cases hafter : after = []
  · -- The line is the whole document.
    rw [hafter, joinLines_eq_intercalate, String.intercalate_singleton, hline] at hall
    refine ⟨[], (Option.some.inj hall).symm, fun line' e' hline' => ?_⟩
    rw [hafter, joinLines_eq_intercalate, String.intercalate_singleton, hline']
  · rw [joinLines_eq_intercalate, String.intercalate_cons_of_ne_nil hafter,
      ← joinLines_eq_intercalate] at hall
    rcases expressions_of_append hlawful hline hall with ⟨rest, hmark, hrest, rfl⟩
    refine ⟨rest, rfl, fun line' e' hline' => ?_⟩
    rw [joinLines_eq_intercalate, String.intercalate_cons_of_ne_nil hafter,
      ← joinLines_eq_intercalate, hlawful.append line' _ _ hline', if_neg hmark, hrest]
    rfl

section Update

variable {text section_ key raw : String} {i : Nat} {old new : TomlValue}
  (hbare : isBareKey key = true) (hfound : foundAt text section_ key = some i)
  (hown : OwnLine toml text section_ key i old) (hraw : toml.value raw = some new)

include hbare hfound hown hraw

/-- The expressions of a text around one of its lines, and the text with that line
    rewritten. -/
theorem expressions_rewritten {all : List TomlExpr} (hall : toml.expressions text = some all) :
    ∃ done rest, all = done ++ .keyval [key] old :: rest ∧ currentTable done = some [section_] ∧
      toml.expressions (updateTomlValue text section_ key raw)
        = some (done ++ .keyval [key] new :: rest) := by
  rcases hown.above with ⟨done, hdone, htable⟩
  rcases hown.line with ⟨line, hline, hexpr⟩
  have hlt : i < (lines text).length := (List.getElem?_eq_some_iff.mp hline).1
  have hat : (lines text)[i] = line := (List.getElem?_eq_some_iff.mp hline).2
  -- The header of the section is above, so there are lines above.
  have hpos : 0 < i := SectionedLines.pos_of_find hfound
  have habove : (lines text).take i ≠ [] := by
    intro hnil
    have hlength := congrArg List.length hnil
    rw [List.length_take, List.length_nil] at hlength
    omega
  -- Both texts are the lines above, a line, and the lines below.
  have hjoin : ∀ l : String, joinLines ((lines text).take i ++ l :: (lines text).drop (i + 1))
      = joinLines ((lines text).take i) ++ "\n" ++ joinLines (l :: (lines text).drop (i + 1)) := by
    intro l
    rw [joinLines_eq_intercalate, String.intercalate_append_of_ne_nil habove (List.cons_ne_nil _ _),
      ← joinLines_eq_intercalate, ← joinLines_eq_intercalate]
  have hsplit : lines text = (lines text).take i ++ line :: (lines text).drop (i + 1) := by
    rw [← hat, ← List.drop_eq_getElem_cons hlt, List.take_append_drop]
  -- What is read of the text is read of its lines, and so of the three parts in turn.
  have hjoined := hlawful.newlines text all hall
  rw [hsplit, hjoin] at hjoined
  rcases expressions_of_append hlawful hdone hjoined with ⟨tail, _, htail, rfl⟩
  rcases expressions_replace_first hlawful hexpr htail with ⟨rest, rfl, hreplace⟩
  have hwritten : toml.expressions (rewriteLine line key raw) = some [.keyval [key] new] :=
    hlawful.keyval line key old raw new (not_mem_of_mem_lines (List.mem_of_getElem? hline)) hbare
      hexpr hraw
  refine ⟨done, rest, rfl, htable, ?_⟩
  rw [updateTomlValue_eq raw hfound, rewritten, List.modify_eq_take_cons_drop hlt, hat, hjoin,
    hlawful.append _ _ _ hdone, if_neg (head?_joinLines_rewriteLine hbare _), hreplace _ _ hwritten]
  rfl

/-- A safe edit replaces the value of its key in the loaded table. -/
theorem fromStr_update {doc : TomlValue} (hload : Config.fromStr toml text = some doc)
    (hnew : configSchema.acceptsAt [section_, key] new = true) :
    doc.get [section_, key] = some old ∧
      Config.fromStr toml (updateTomlValue text section_ key raw)
        = some (doc.set [section_, key] new) := by
  rcases fromStr_eq_some_iff.mp hload with ⟨all, hall, htables, haccepts⟩
  rcases expressions_rewritten hlawful hbare hfound hown hraw hall with
    ⟨done, rest, rfl, htable, hwritten⟩
  have hget : doc.get [section_, key] = some old :=
    hlawful.defines done rest section_ key old doc htable htables
  refine ⟨hget, fromStr_eq_some_iff.mpr ⟨_, hwritten, ?_, ?_⟩⟩
  · exact hlawful.replaces done rest section_ key old new doc htable htables
  · exact Schema.accepts_set haccepts hget hnew

end Update

end Document

/-! ### Runs -/

/-- The path of a field's key. -/
def ConfigField.path (field : ConfigField) : List String :=
  [field.section_, field.tomlKey]

/-- The section and the key of a field. -/
def ConfigField.names (field : ConfigField) : String × String :=
  (field.section_, field.tomlKey)

/-- The sections and keys of the fields. -/
def configNames : List (String × String) :=
  (buildConfigFields "").map ConfigField.names

/-- An edit for which the scan and the language agree on the line that is found
    and on where the value that is written there ends. -/
structure SoundEdit (toml : TomlCrate) (text : String) (field : ConfigField) (raw : String) :
    Prop where
  line : ∃ i old, foundAt text field.section_ field.tomlKey = some i ∧
    OwnLine toml text field.section_ field.tomlKey i old
  value : ∃ new, toml.value raw = some new ∧ configSchema.acceptsAt field.path new = true
  noHash : '#' ∉ raw.toList
  noNewline : '\n' ∉ raw.toList

/-- What saving a text means when some of the fields were edited: it loads, to the
    displayed values at their keys and to what it loaded to before everywhere else,
    and every displayed value is the one in the text. -/
def Saves (toml : TomlCrate) (doc : TomlValue) (edited : List Nat) (text : String)
    (fields : List ConfigField) : Prop :=
  ∃ doc', Config.fromStr toml text = some doc' ∧
    (∀ i ∈ edited, ∃ field v, fields[i]? = some field ∧ toml.value field.value = some v ∧
      doc'.get field.path = some v) ∧
    (∀ path, (∀ i ∈ edited, ∀ field, fields[i]? = some field → Apart path field.path) →
      doc'.get path = doc.get path) ∧
    ∀ (i : Nat) (field : ConfigField), fields[i]? = some field →
      field.value = extractTomlValue text field.section_ field.tomlKey

open ConfigEditor in
/-- A raw value has no white space around it. -/
theorem tight_rawValue (fieldType : FieldType) (editBuf : String) :
    Tight (rawValue fieldType editBuf).toList := by
  cases fieldType with
  | str =>
      have hchars : (rawValue .str editBuf).toList = '"' :: ((trim editBuf).toList ++ ['"']) := by
        unfold rawValue
        rw [String.toList_append, String.toList_append]
        rfl
      rw [hchars]
      constructor
      · intro c hc
        rw [← Option.some.inj hc]
        rfl
      · intro c hc
        rw [← List.cons_append, List.getLast?_concat] at hc
        rw [← Option.some.inj hc]
        rfl
  | bool => exact tight_trim editBuf
  | int => exact tight_trim editBuf
  | float => exact tight_trim editBuf

theorem apart_path {f g : ConfigField} (h : f.names ≠ g.names) : Apart f.path g.path := by
  unfold ConfigField.path
  by_cases hsection : f.section_ = g.section_
  · rw [hsection, apart_cons_iff]
    apply apart_of_head_ne
    intro hkey
    exact h (Prod.ext hsection hkey)
  · exact apart_of_head_ne hsection

section Confirm

variable {fields : List ConfigField} {i j : Nat} {f g : ConfigField}

theorem names_ne (hnodup : (fields.map ConfigField.names).Nodup) (hf : fields[i]? = some f)
    (hg : fields[j]? = some g) (hij : i ≠ j) : f.names ≠ g.names := by
  intro heq
  have hi : (fields.map ConfigField.names)[i]? = some f.names := by
    rw [List.getElem?_map, hf]
    rfl
  have hj : (fields.map ConfigField.names)[j]? = some f.names := by
    rw [List.getElem?_map, hg, heq]
    rfl
  exact hij ((List.getElem?_inj (List.getElem?_eq_some_iff.mp hi).1 hnodup).mp (hi.trans hj.symm))

/-- A safe edit saves the displayed value and leaves the rest as it was. -/
theorem saves_confirm {toml : TomlCrate} (hlawful : toml.Lawful) {doc : TomlValue}
    {edited : List Nat} {text raw : String} (hsaves : Saves toml doc edited text fields)
    (hf : fields[i]? = some f) (hnodup : (fields.map ConfigField.names).Nodup)
    (hbare : isBareKey f.tomlKey = true) (htight : Tight raw.toList)
    (hsound : SoundEdit toml text f raw) :
    Saves toml doc (edited ++ [i]) (updateTomlValue text f.section_ f.tomlKey raw)
      (fields.set i { f with value := raw }) := by
  rcases hsaves with ⟨doc', hload, hedited, hothers, hshown⟩
  rcases hsound.line with ⟨n, old, hfound, hown⟩
  rcases hsound.value with ⟨new, hnew, haccepts⟩
  rcases fromStr_update hlawful hbare hfound hown hnew hload haccepts with ⟨hold, hload'⟩
  have hget : doc'.get f.path = some old := hold
  have hlt : i < fields.length := (List.getElem?_eq_some_iff.mp hf).1
  have hself : (fields.set i { f with value := raw })[i]? = some { f with value := raw } := by
    rw [List.getElem?_set_self hlt]
  have hother : ∀ j, i ≠ j → (fields.set i { f with value := raw })[j]? = fields[j]? :=
    fun j hij => List.getElem?_set_ne hij
  refine ⟨doc'.set f.path new, hload', ?_, ?_, ?_⟩
  · -- The edited fields: this one, and those before it at keys of their own.
    have hnow : ∃ field v, (fields.set i { f with value := raw })[i]? = some field ∧
        toml.value field.value = some v ∧ (doc'.set f.path new).get field.path = some v :=
      ⟨_, new, hself, hnew, TomlValue.get_set_self hget⟩
    intro j hj
    by_cases hij : i = j
    · rw [← hij]
      exact hnow
    · rcases List.mem_append.mp hj with hj | hj
      · rcases hedited j hj with ⟨g, v, hg, hv, hgv⟩
        refine ⟨g, v, (hother j hij).trans hg, hv, ?_⟩
        rw [TomlValue.get_set_of_apart hget (apart_path (names_ne hnodup hg hf (Ne.symm hij)))]
        exact hgv
      · exact absurd (List.mem_singleton.mp hj).symm hij
  · -- A path apart from the edited keys is apart from this one and from those before.
    intro path happart
    have hhere : Apart path f.path :=
      happart i (List.mem_append_right _ List.mem_cons_self) { f with value := raw } hself
    rw [TomlValue.get_set_of_apart hget hhere]
    apply hothers
    intro j hj g hg
    by_cases hij : i = j
    · rw [← hij, hf] at hg
      rw [← Option.some.inj hg]
      exact hhere
    · exact happart j (List.mem_append_left _ hj) g ((hother j hij).trans hg)
  · -- The displayed values: what was written is read, and the rest is read as before.
    intro j g hg
    by_cases hij : i = j
    · rw [← hij, hself] at hg
      rw [← Option.some.inj hg]
      exact (extract_update_self (isScanName_of_isBareKey hbare) htight hsound.noHash
        hsound.noNewline hfound).symm
    · rw [hother j hij] at hg
      rw [hshown j g hg, extract_update_of_ne (isScanName_of_isBareKey hbare) htight hsound.noHash
        hsound.noNewline hfound]
      rintro ⟨hsection, hkey⟩
      exact names_ne hnodup hg hf (Ne.symm hij) (Prod.ext hsection hkey)

end Confirm

namespace ConfigEditor

/-- What a key confirms as the new text of the field being edited, if it does. -/
def confirming (e : ConfigEditor) (key : Key) : Option String :=
  if e.editing then match key with
    | .enter => some e.editBuf
    | .char _ =>
      if (e.fields[e.fieldIdx]?).any (fun f => f.fieldType = .bool) then
        some (if e.editBuf = "true" then "false" else "true")
      else none
    | _ => none
  else none

theorem confirming_of_not_editing {e : ConfigEditor} (h : e.editing = false) (key : Key) :
    e.confirming key = none := by
  unfold confirming
  rw [h, if_neg Bool.false_ne_true]

theorem press_of_confirming {e : ConfigEditor} {key : Key} {buf : String}
    (h : e.confirming key = some buf) :
    e.press key = { e with editBuf := buf }.confirmConfigEdit := by
  unfold confirming at h
  by_cases hediting : e.editing = true
  · rw [if_pos hediting] at h
    unfold press
    rw [if_pos hediting]
    cases key with
    | enter =>
        rw [← Option.some.inj h]
        rfl
    | char c =>
        -- Only on a Boolean field does a character confirm.
        simp only [Option.ite_none_right_eq_some, Option.some.injEq] at h
        simp only [pressEditing, if_pos h.1, h.2]
    | _ => exact absurd h (by simp)
  · rw [if_neg hediting] at h
    exact absurd h (by simp)

/-- What confirming does to the text and the fields. -/
theorem confirmConfigEdit_eq {e : ConfigEditor} {f : ConfigField}
    (hf : e.fields[e.fieldIdx]? = some f) :
    e.confirmConfigEdit.text
        = updateTomlValue e.text f.section_ f.tomlKey (rawValue f.fieldType e.editBuf) ∧
      e.confirmConfigEdit.fields
        = e.fields.set e.fieldIdx { f with value := rawValue f.fieldType e.editBuf } ∧
      e.confirmConfigEdit.fieldIdx = e.fieldIdx := by
  unfold confirmConfigEdit
  simp only [hf]
  exact ⟨trivial, trivial, trivial⟩

/-- The text and the fields are the same, and the field at the cursor exists. -/
def Steady (e e' : ConfigEditor) : Prop :=
  e'.text = e.text ∧ e'.fields = e.fields ∧ e'.fieldIdx < e'.fields.length

section Steady

variable {e : ConfigEditor} (hlt : e.fieldIdx < e.fields.length)

include hlt

theorem steady_scrollConfigUp : Steady e e.scrollConfigUp :=
  ⟨rfl, rfl, Nat.lt_of_le_of_lt (Nat.sub_le _ 1) hlt⟩

theorem steady_scrollConfigDown : Steady e e.scrollConfigDown := by
  unfold scrollConfigDown
  split
  · next hnext => exact ⟨rfl, rfl, hnext⟩
  · exact ⟨rfl, rfl, hlt⟩

theorem steady_startConfigEdit : Steady e e.startConfigEdit := by
  unfold startConfigEdit
  split
  · exact ⟨rfl, rfl, hlt⟩
  · exact ⟨rfl, rfl, hlt⟩

/-- A key that confirms nothing leaves the text and the fields alone. -/
theorem steady_press {key : Key} (h : e.confirming key = none) : Steady e (e.press key) := by
  unfold confirming at h
  unfold press
  by_cases hediting : e.editing = true
  · rw [if_pos hediting] at h ⊢
    cases key with
    | enter => exact absurd h (by simp)
    | char c =>
        simp only [ite_eq_right_iff, reduceCtorEq, imp_false] at h
        have hpress : e.pressEditing (.char c) = { e with editBuf := e.editBuf.push c } := if_neg h
        rw [hpress]
        exact ⟨rfl, rfl, hlt⟩
    | _ => exact ⟨rfl, rfl, hlt⟩
  · -- The two keys for each movement and for starting an edit, saving, and the rest.
    rw [if_neg hediting]
    split
    · exact steady_scrollConfigUp hlt
    · exact steady_scrollConfigUp hlt
    · exact steady_scrollConfigDown hlt
    · exact steady_scrollConfigDown hlt
    · exact steady_startConfigEdit hlt
    · exact steady_startConfigEdit hlt
    · exact ⟨rfl, rfl, hlt⟩
    · exact ⟨rfl, rfl, hlt⟩

end Steady

end ConfigEditor

/-- The fields that keys confirm an edit of. -/
def confirmedFields (e : ConfigEditor) : List Key → List Nat
  | [] => []
  | key :: rest =>
    (if (e.confirming key).isSome then [e.fieldIdx] else []) ++ confirmedFields (e.press key) rest

theorem confirmedFields_concat (e : ConfigEditor) (keys : List Key) (key : Key) :
    confirmedFields e (keys ++ [key]) = confirmedFields e keys ++
      if ((keys.foldl ConfigEditor.press e).confirming key).isSome then
        [(keys.foldl ConfigEditor.press e).fieldIdx]
      else [] := by
  induction keys generalizing e with
  | nil =>
      unfold confirmedFields
      exact List.append_nil _
  | cons first rest ih =>
      rw [List.cons_append, confirmedFields, ih, confirmedFields, List.append_assoc]
      rfl

/-- A key whose edit, if it confirms one, is safe. -/
def SoundPress (toml : TomlCrate) (e : ConfigEditor) (key : Key) (e' : ConfigEditor) : Prop :=
  e' = e.press key ∧ ∀ buf field, e.confirming key = some buf → e.fields[e.fieldIdx]? = some field →
    SoundEdit toml e.text field (ConfigEditor.rawValue field.fieldType buf)

/-- A key outside of editing confirms nothing. -/
theorem soundPress_of_not_editing {toml : TomlCrate} {e : ConfigEditor} (key : Key)
    (h : e.editing = false) : SoundPress toml e key (e.press key) := by
  refine ⟨rfl, fun buf field hconfirming => ?_⟩
  rw [ConfigEditor.confirming_of_not_editing h] at hconfirming
  exact absurd hconfirming (by simp)

theorem eq_foldl_of_run {toml : TomlCrate} {e e' : ConfigEditor} {keys : List Key}
    (hrun : Transition.Run (SoundPress toml) e keys e') : e' = keys.foldl ConfigEditor.press e := by
  refine hrun.invariant (I := fun keys e' => e' = keys.foldl ConfigEditor.press e) rfl ?_
  rintro acts t key u _ rfl ⟨rfl, _⟩
  rw [List.foldl_append]
  rfl

/-- Every key of a field is bare, and no two fields have the same. -/
theorem configNames_bare : ∀ names ∈ configNames, isBareKey names.2 = true := by
  decide +kernel

theorem configNames_nodup : configNames.Nodup := by
  decide +kernel

/-- The fields keep their keys, the cursor is on one, and saving would save the edits. -/
structure Intact (toml : TomlCrate) (doc : TomlValue) (edited : List Nat) (e : ConfigEditor) :
    Prop where
  saves : Saves toml doc edited e.text e.fields
  names : e.fields.map ConfigField.names = configNames
  index : e.fieldIdx < e.fields.length

theorem intact_new {toml : TomlCrate} {text : String} {doc : TomlValue}
    (hload : Config.fromStr toml text = some doc) :
    Intact toml doc [] (ConfigEditor.new text) where
  saves := by
    -- Nothing is edited yet, and every field was just read from the text.
    refine ⟨doc, hload, fun i hi => absurd hi List.not_mem_nil, fun _ _ => rfl, ?_⟩
    intro i field hfield
    have hmem : field ∈ buildConfigFields text := List.mem_of_getElem? hfield
    simp only [buildConfigFields, List.mem_cons, List.not_mem_nil, or_false] at hmem
    rcases hmem with rfl | rfl | rfl | rfl | rfl | rfl | rfl | rfl | rfl | rfl | rfl | rfl <;> rfl
  names := rfl
  index := Nat.succ_pos _

/-- A key whose edit is safe keeps the editor intact. -/
theorem Intact.press {toml : TomlCrate} (hlawful : toml.Lawful) {doc : TomlValue}
    {edited : List Nat} {e e' : ConfigEditor} {key : Key} (h : Intact toml doc edited e)
    (hstep : SoundPress toml e key e') :
    Intact toml doc
      (edited ++ if (e.confirming key).isSome then [e.fieldIdx] else []) e' := by
  rcases hstep with ⟨rfl, hsound⟩
  cases hconfirming : e.confirming key with
  | none =>
      rcases ConfigEditor.steady_press h.index hconfirming with ⟨htext, hfields, hindex⟩
      rw [Option.isSome_none, if_neg Bool.false_ne_true, List.append_nil]
      refine ⟨?_, ?_, hindex⟩
      · rw [htext, hfields]
        exact h.saves
      · rw [hfields]
        exact h.names
  | some buf =>
      rw [Option.isSome_some, if_pos rfl, ConfigEditor.press_of_confirming hconfirming]
      let f := e.fields.get ⟨e.fieldIdx, h.index⟩
      have hf : e.fields[e.fieldIdx]? = some f := List.getElem?_eq_getElem h.index
      have hmem : f.names ∈ configNames := by
        rw [← h.names]
        exact List.mem_map_of_mem (List.getElem_mem h.index)
      have hnodup : (e.fields.map ConfigField.names).Nodup := by
        rw [h.names]
        exact configNames_nodup
      have hsaves := saves_confirm hlawful h.saves hf hnodup (configNames_bare _ hmem)
        (tight_rawValue f.fieldType buf) (hsound buf f hconfirming hf)
      rcases ConfigEditor.confirmConfigEdit_eq (e := { e with editBuf := buf }) hf with
        ⟨htext, hfields, hindex⟩
      refine ⟨?_, ?_, ?_⟩
      · rw [htext, hfields]
        exact hsaves
      · -- The field that is replaced keeps its key.
        have hlt : e.fieldIdx < (e.fields.map ConfigField.names).length := by
          rw [List.length_map]
          exact h.index
        have hsame : f.names = (e.fields.map ConfigField.names)[e.fieldIdx] :=
          (List.getElem_map ConfigField.names).symm
        rw [hfields, List.map_set, ← h.names]
        exact (congrArg _ hsame).trans (List.set_getElem_self hlt)
      · rw [hfields, hindex, List.length_set]
        exact h.index

theorem plainValue_bool (b : Bool) :
    plainValue (if b then "true" else "false") = some (.boolean b) := by
  cases b with
  | false => rfl
  | true => rfl

/-- The switch of the fast path has a line of its own. -/
theorem ownLine_enabled :
    OwnLine plainToml plainConfig "fast_path" "enabled" 1 (.boolean true) := by
  have hplain : ∀ line ∈ ["enabled = true"], ∀ c ∈ line.toList, isPlainChar c = true ∧ c ≠ '\n' := by
    intro line hline
    rw [List.mem_singleton.mp hline]
    exact plainConfigLines_plain _ (List.mem_cons_of_mem _ List.mem_cons_self)
  have hjoined := plainExpressions_joinLines (List.cons_ne_nil _ _) hplain
  -- The line looks as if the editor had written it.
  have hwritten : "enabled = true" = rewriteLine "" "enabled" "true" := by
    decide +kernel
  have hbare : isBareKey "enabled" = true := by
    decide +kernel
  have hvalue : plainValue "true" = some (.boolean true) := plainValue_bool true
  rw [joinLines_eq_intercalate, String.intercalate_singleton, plainLines, plainLines, hwritten,
    plainLine_rewriteLine "" hbare hvalue] at hjoined
  constructor
  · refine ⟨[.header ["fast_path"]], ?_, rfl⟩
    rw [lines_plainConfig, plainToml_expressions]
    rfl
  · refine ⟨"enabled = true", ?_, ?_⟩
    · rw [lines_plainConfig]
      rfl
    · rw [plainToml_expressions, hwritten]
      exact hjoined

/-- Turning the fast path on or off is a safe edit. -/
theorem soundEdit_enabled {f : ConfigField} (hnames : f.names = ("fast_path", "enabled")) (b : Bool) :
    SoundEdit plainToml plainConfig f (if b then "true" else "false") := by
  have hsection : f.section_ = "fast_path" := congrArg Prod.fst hnames
  have hkey : f.tomlKey = "enabled" := congrArg Prod.snd hnames
  have hfound : foundAt plainConfig "fast_path" "enabled" = some 1 := by
    unfold foundAt
    rw [lines_plainConfig]
    decide +kernel
  refine ⟨⟨1, .boolean true, ?_, ?_⟩, ⟨.boolean b, plainValue_bool b, ?_⟩, ?_, ?_⟩
  · rw [hsection, hkey]
    exact hfound
  · rw [hsection, hkey]
    exact ownLine_enabled
  · rw [ConfigField.path, hsection, hkey]
    revert b
    decide +kernel
  · cases b <;> decide
  · cases b <;> decide

/-- What a run of safe edits saves: a text that loads, to the displayed values at
    the edited keys and to the old ones everywhere else. -/
theorem saved_of_run (toml : TomlCrate) (hlawful : toml.Lawful) (text : String) (doc : TomlValue)
    (hload : Config.fromStr toml text = some doc) (keys : List Key) (e : ConfigEditor)
    (hrun : Transition.Run (SoundPress toml) (ConfigEditor.new text) keys e) :
    Saves toml doc (confirmedFields (ConfigEditor.new text) keys) e.saveConfig.file
      e.saveConfig.fields := by
  have hintact : Intact toml doc (confirmedFields (ConfigEditor.new text) keys) e := by
    -- Along the run, with the fields confirmed so far.
    refine hrun.invariant
      (I := fun keys e => Intact toml doc (confirmedFields (ConfigEditor.new text) keys) e)
      (intact_new hload) ?_
    intro acts t key u hacts ht hstep
    rw [confirmedFields_concat, ← eq_foldl_of_run hacts]
    exact ht.press hlawful hstep
  exact hintact.saves

/-- Turning the fast path off is saved. -/
theorem enabled_saved : ∃ doc, Config.fromStr plainToml plainConfig = some doc ∧
    Saves plainToml doc
      (confirmedFields (ConfigEditor.new plainConfig) [.down, .enter, .char ' '])
      ([.down, .enter, .char ' '].foldl ConfigEditor.press (ConfigEditor.new plainConfig)).saveConfig.file
      ([.down, .enter, .char ' '].foldl ConfigEditor.press
        (ConfigEditor.new plainConfig)).saveConfig.fields := by
  rcases plainConfig_loads with ⟨doc, hdoc⟩
  refine ⟨doc, hdoc, saved_of_run plainToml plainToml_lawful plainConfig doc hdoc _ _ ?_⟩
  refine ((Transition.Run.nil.snoc (soundPress_of_not_editing .down rfl)).snoc
    (soundPress_of_not_editing .enter rfl)).snoc ⟨rfl, fun buf field hconfirming hfield => ?_⟩
  -- The cursor is on the switch of the fast path, and any character flips it.
  have hnames : field.names = ("fast_path", "enabled") := by
    rw [← Option.some.inj hfield]
    rfl
  have htype : field.fieldType = .bool := by
    rw [← Option.some.inj hfield]
  have hflip : buf = "false" ∨ buf = "true" := by
    rw [← Option.some.inj hconfirming]
    split
    · exact Or.inl rfl
    · exact Or.inr rfl
  rw [htype]
  rcases hflip with rfl | rfl
  · exact soundEdit_enabled hnames false
  · exact soundEdit_enabled hnames true

/-- An edit of a key that the text does not have is not saved. -/
theorem not_saves_of_absent {toml : TomlCrate} {doc : TomlValue} {edited : List Nat}
    {text raw : String} {fields : List ConfigField} {i : Nat} {f : ConfigField}
    (hf : fields[i]? = some f) (habsent : foundAt text f.section_ f.tomlKey = none)
    (hraw : raw ≠ "") :
    ¬ Saves toml doc edited (updateTomlValue text f.section_ f.tomlKey raw)
      (fields.set i { f with value := raw }) := by
  rintro ⟨doc', _, _, _, hshown⟩
  have hself : (fields.set i { f with value := raw })[i]? = some { f with value := raw } := by
    rw [List.getElem?_set_self (List.getElem?_eq_some_iff.mp hf).1]
  -- The text keeps its lines, so the displayed value would have to be read from them.
  have hread := hshown i _ hself
  unfold foundAt at habsent
  unfold updateTomlValue at hread
  rw [updateFrom_eq, habsent] at hread
  simp only [] at hread
  rw [extractTomlValue_joinLines (fun line hline => not_mem_of_mem_lines hline), extractFrom_eq,
    SectionedLines.get_eq_none_of_find habsent, Option.getD_none] at hread
  exact hraw hread

/-- The cursor moves down. -/
theorem foldl_down (text : String) (i n : Nat) (h : i + n < 12) :
    (List.replicate n Key.down).foldl ConfigEditor.press
        { ConfigEditor.new text with fieldIdx := i }
      = { ConfigEditor.new text with fieldIdx := i + n } := by
  induction n generalizing i with
  | zero => rfl
  | succ n ih =>
      have hlt : i + 1 < (buildConfigFields text).length := by
        have hlength : (buildConfigFields text).length = 12 := rfl
        omega
      have hpress : ConfigEditor.press { ConfigEditor.new text with fieldIdx := i } .down
          = { ConfigEditor.new text with fieldIdx := i + 1 } := if_pos hlt
      rw [List.replicate_succ, List.foldl_cons, hpress, ih (i + 1) (by omega)]
      rw [Nat.add_assoc, Nat.add_comm 1 n]

/-- The keys that turn the advisor on. -/
def advisorKeys : List Key := List.replicate 5 .down ++ [.enter, .char ' ']

/-- The field for turning the advisor on, as it is displayed at the start. -/
def advisorField (text : String) : ConfigField where
  section_ := "ai_advisor"
  label := "enabled"
  tomlKey := "enabled"
  description := "Enable AI rule generation"
  value := extractTomlValue text "ai_advisor" "enabled"
  fieldType := .bool

/-- The editor when the last of the keys confirms. -/
def advisorTyped (text : String) : ConfigEditor :=
  { ConfigEditor.new text with
    fieldIdx := 5
    editing := true
    editBuf := if trimMatches '"' (advisorField text).value = "true" then "false" else "true" }

theorem foldl_advisorKeys (text : String) :
    advisorKeys.foldl ConfigEditor.press (ConfigEditor.new text)
      = (advisorTyped text).confirmConfigEdit := by
  have hdown := foldl_down text 0 5 (by omega)
  have hnew : ({ ConfigEditor.new text with fieldIdx := 0 } : ConfigEditor)
      = ConfigEditor.new text := rfl
  rw [hnew] at hdown
  unfold advisorKeys
  rw [List.foldl_append, hdown]
  rfl

/-- Turning the advisor on in a text without that key is not saved, whatever the
    language. -/
theorem not_saves_advisorKeys {toml : TomlCrate} {doc : TomlValue} {edited : List Nat}
    {text : String} (habsent : foundAt text "ai_advisor" "enabled" = none) :
    ¬ Saves toml doc edited
      (advisorKeys.foldl ConfigEditor.press (ConfigEditor.new text)).saveConfig.file
      (advisorKeys.foldl ConfigEditor.press (ConfigEditor.new text)).saveConfig.fields := by
  have hfield : (advisorTyped text).fields[(advisorTyped text).fieldIdx]?
      = some (advisorField text) := rfl
  have hraw : ConfigEditor.rawValue (advisorField text).fieldType (advisorTyped text).editBuf
      ≠ "" := by
    -- Whatever the field showed, it is flipped to one of two words.
    unfold advisorTyped
    have hbool : ConfigEditor.rawValue .bool "false" ≠ "" ∧ ConfigEditor.rawValue .bool "true" ≠ "" := by
      decide
    split
    · exact hbool.1
    · exact hbool.2
  rcases ConfigEditor.confirmConfigEdit_eq hfield with ⟨hconfirmed, hfields, _⟩
  rw [foldl_advisorKeys]
  unfold ConfigEditor.saveConfig
  simp only []
  rw [hconfirmed, hfields]
  exact not_saves_of_absent hfield habsent hraw

/-- Turning the advisor on in a configuration that leaves it at its defaults is lost:
    there is no line to rewrite. -/
theorem absent_key_dropped : plainToml.Lawful ∧
    ∃ doc, Config.fromStr plainToml plainConfig = some doc ∧
      ¬ Saves plainToml doc (confirmedFields (ConfigEditor.new plainConfig) advisorKeys)
        (advisorKeys.foldl ConfigEditor.press (ConfigEditor.new plainConfig)).saveConfig.file
        (advisorKeys.foldl ConfigEditor.press (ConfigEditor.new plainConfig)).saveConfig.fields := by
  rcases plainConfig_loads with ⟨doc, hdoc⟩
  refine ⟨plainToml_lawful, doc, hdoc, not_saves_advisorKeys ?_⟩
  unfold foundAt
  rw [lines_plainConfig]
  decide +kernel

end VectorGuard
