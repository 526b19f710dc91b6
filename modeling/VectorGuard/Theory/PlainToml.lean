import VectorGuard.Theory.TomlTables
import VectorGuard.Theory.TomlScan

/-!
# A Plain Fragment of the Language

A reader of the plain documents: a header, a key/value expression or a comment
on each line, bare keys, and values that are Booleans, integers, decimal
fractions, strings of printable characters without escapes, or the empty array.
Where it reads a document, it reads what the language says. Everything else it
refuses.

It obeys the laws of the language (`plainToml_lawful`), so results that assume
them are about something, and they can be tried on documents of this kind.

Tables are put together by inserting one value after the other. That it makes no
difference to the rest which value a key has is that replacing a value commutes
with inserting at another path (`insert_set_comm`).

## Main definitions

* `TomlValue.insert`: Put a value at a path.
* `plainValue`, `plainExpressions`, `plainTables`: The reader.
* `plainToml`: The reader as a crate.

## Theorems

* `plainToml_lawful`: The laws hold.
-/

namespace VectorGuard

/-! ### Inserting -/

namespace TomlValue

/-- Give a key a value, whether or not it had one. -/
def put (k : String) (v : TomlValue) (entries : List (String × TomlValue)) :
    List (String × TomlValue) :=
  if (entries.lookup k).isSome then mapKey k (fun _ => v) entries else entries ++ [(k, v)]

def entries : TomlValue → List (String × TomlValue)
  | .table entries => entries
  | _ => []

/-- The value of a key, a new table if it has none. -/
def child (k : String) (entries : List (String × TomlValue)) : TomlValue :=
  (entries.lookup k).getD (.table [])

/-- Put a value at a path, through new tables where there are none. -/
def insert : TomlValue → List String → TomlValue → TomlValue
  | _, [], v => v
  | doc, k :: path, v => .table (put k (insert (child k doc.entries) path v) doc.entries)

variable {k j : String} {v w : TomlValue} {doc : TomlValue} {p q : List String}
  {es : List (String × TomlValue)}

theorem lookup_put : (put k v es).lookup j = if j = k then some v else es.lookup j := by
  unfold put
  split
  · next hsome =>
      -- The key is there, and its value is changed.
      rw [lookup_mapKey]
      by_cases hj : j = k
      · rw [if_pos hj, if_pos hj, hj]
        rcases Option.isSome_iff_exists.mp hsome with ⟨old, hold⟩
        rw [hold]
        rfl
      · rw [if_neg hj, if_neg hj]
  · next hnone =>
      -- The entry at the end is the first one of the key.
      rw [Option.not_isSome_iff_eq_none] at hnone
      rw [List.lookup_append]
      by_cases hj : j = k
      · rw [if_pos hj, hj, hnone, List.lookup_cons_self]
        rfl
      · rw [if_neg hj, List.lookup_cons, beq_false_of_ne hj]
        exact Option.or_none

theorem mapKey_mapKey {α : Type} (f g : α → α) (es : List (String × α)) :
    mapKey k g (mapKey k f es) = mapKey k (fun x => g (f x)) es := by
  unfold mapKey
  rw [List.map_map]
  apply List.map_congr_left
  intro e _
  by_cases he : e.1 = k
  · simp [he]
  · simp [he]

theorem mapKey_comm {α : Type} (hne : j ≠ k) (f g : α → α) (es : List (String × α)) :
    mapKey j g (mapKey k f es) = mapKey k f (mapKey j g es) := by
  unfold mapKey
  rw [List.map_map, List.map_map]
  apply List.map_congr_left
  intro e _
  by_cases hek : e.1 = k
  · simp [hek, hne.symm]
  · by_cases hej : e.1 = j
    · simp [hej, hne]
    · simp [hek, hej]

theorem mapKey_of_lookup_none {α : Type} (f : α → α) {es : List (String × α)}
    (hnone : es.lookup k = none) : mapKey k f es = es := by
  unfold mapKey
  rw [List.lookup_eq_none_iff] at hnone
  nth_rewrite 2 [← List.map_id es]
  apply List.map_congr_left
  intro e he
  have hne : ¬ e.1 = k := fun h => absurd (hnone e he) (by simp [h])
  rw [if_neg hne]
  rfl

theorem mapKey_append {α : Type} (f : α → α) (es more : List (String × α)) :
    mapKey k f (es ++ more) = mapKey k f es ++ mapKey k f more :=
  List.map_append

/-- Changing a value that was put. -/
theorem mapKey_put_self (f : TomlValue → TomlValue) :
    mapKey k f (put k v es) = put k (f v) es := by
  unfold put
  split
  · rw [mapKey_mapKey]
  · next hnone =>
      rw [Option.not_isSome_iff_eq_none] at hnone
      rw [mapKey_append, mapKey_of_lookup_none f hnone]
      simp [mapKey]

theorem isSome_lookup_mapKey (f : TomlValue → TomlValue) :
    ((mapKey k f es).lookup j).isSome = (es.lookup j).isSome := by
  rw [lookup_mapKey]
  split
  · rw [Option.isSome_map]
  · rfl

/-- Putting a value at a key that was changed. -/
theorem put_mapKey_self (f : TomlValue → TomlValue) :
    put k v (mapKey k f es) = put k v es := by
  unfold put
  rw [isSome_lookup_mapKey]
  split
  · rw [mapKey_mapKey]
  · next hnone =>
      rw [Option.not_isSome_iff_eq_none] at hnone
      rw [mapKey_of_lookup_none f hnone]

theorem put_mapKey_comm (hne : j ≠ k) (f : TomlValue → TomlValue) :
    put j v (mapKey k f es) = mapKey k f (put j v es) := by
  unfold put
  rw [isSome_lookup_mapKey]
  split
  · exact mapKey_comm hne f _ es
  · rw [mapKey_append]
    simp [mapKey, hne]

/-- What is put at a path is there. -/
theorem get_insert_self : (doc.insert p v).get p = some v := by
  induction p generalizing doc with
  | nil => rw [insert, get]
  | cons k p ih =>
      rw [insert, get_cons_table, lookup_put, if_pos rfl]
      exact ih

theorem get_table_nil : (table []).get (k :: p) = none := by
  rw [get_cons_table]
  rfl

/-- What is at a path that starts with a key. -/
theorem get_cons_entries : doc.get (k :: p) = (doc.entries.lookup k).bind (·.get p) := by
  cases doc with
  | table es => exact get_cons_table
  | _ => rfl

/-- A path apart from where a value is put leads to what it led to. -/
theorem get_insert_of_apart (hapart : Apart p q) : (doc.insert q w).get p = doc.get p := by
  induction q generalizing doc p with
  | nil => exact absurd hapart.symm not_apart_nil
  | cons k q ih =>
      cases p with
      | nil => exact absurd hapart not_apart_nil
      | cons j p =>
          rw [insert, get_cons_table, lookup_put, get_cons_entries]
          by_cases hj : j = k
          · subst hj
            have hbelow := apart_cons_iff.mp hapart
            rw [if_pos rfl, Option.bind_some, ih hbelow]
            unfold child
            cases doc.entries.lookup j with
            | some v => rfl
            | none =>
                -- The path led nowhere, and in the new table it still does.
                cases p with
                | nil => exact absurd hbelow not_apart_nil
                | cons first rest => exact get_table_nil
          · rw [if_neg hj]

theorem entries_set_cons : (doc.set (k :: p) v).entries = mapKey k (·.set p v) doc.entries := by
  cases doc with
  | table es =>
      rw [set_cons_table]
      rfl
  | _ => rfl

/-- Replacing what was put at a path. -/
theorem set_insert_self : (doc.insert p v).set p w = doc.insert p w := by
  induction p generalizing doc with
  | nil => rw [insert, insert, set]
  | cons k p ih =>
      rw [insert, insert, set_cons_table, mapKey_put_self, ih]

/-- Replacing a value and putting one at another path commute. -/
theorem insert_set_comm (hapart : Apart p q) :
    (doc.set p v).insert q w = (doc.insert q w).set p v := by
  induction p generalizing doc q with
  | nil => exact absurd hapart not_apart_nil
  | cons k p ih =>
      cases q with
      | nil => exact absurd hapart.symm not_apart_nil
      | cons j q =>
          rw [insert, insert, entries_set_cons, set_cons_table]
          by_cases hj : j = k
          · -- Both paths go through the same key, so the claim is about what is below it.
            subst hj
            have hbelow := apart_cons_iff.mp hapart
            have hchild : child j (mapKey j (·.set p v) doc.entries)
                = (child j doc.entries).set p v := by
              unfold child
              rw [lookup_mapKey, if_pos rfl]
              cases doc.entries.lookup j with
              | some old => rfl
              | none =>
                  -- There is nothing to replace in a new table.
                  cases p with
                  | nil => exact absurd hbelow not_apart_nil
                  | cons first rest =>
                      rw [Option.map_none, Option.getD_none, set_cons_table]
                      rfl
            rw [hchild, ih hbelow, put_mapKey_self, mapKey_put_self]
          · have hchild : child j (mapKey k (·.set p v) doc.entries) = child j doc.entries := by
              unfold child
              rw [lookup_mapKey, if_neg hj]
            rw [hchild, put_mapKey_comm hj]

/-- Put values at paths, one after the other. -/
def insertAll (doc : TomlValue) (values : List (List String × TomlValue)) : TomlValue :=
  values.foldl (fun doc a => doc.insert a.1 a.2) doc

theorem get_insertAll {values : List (List String × TomlValue)}
    (hapart : ∀ a ∈ values, Apart p a.1) : (doc.insertAll values).get p = doc.get p := by
  induction values generalizing doc with
  | nil => rfl
  | cons a rest ih =>
      rw [List.forall_mem_cons] at hapart
      exact (ih hapart.2).trans (get_insert_of_apart hapart.1)

theorem insertAll_set {values : List (List String × TomlValue)}
    (hapart : ∀ a ∈ values, Apart p a.1) :
    (doc.set p v).insertAll values = (doc.insertAll values).set p v := by
  induction values generalizing doc with
  | nil => rfl
  | cons a rest ih =>
      rw [List.forall_mem_cons] at hapart
      have hfirst : (doc.set p v).insert a.1 a.2 = (doc.insert a.1 a.2).set p v :=
        insert_set_comm hapart.1
      calc (doc.set p v).insertAll (a :: rest)
          = ((doc.set p v).insert a.1 a.2).insertAll rest := rfl
        _ = ((doc.insert a.1 a.2).set p v).insertAll rest := by rw [hfirst]
        _ = (doc.insertAll (a :: rest)).set p v := ih hapart.2

end TomlValue

/-! ### Reading -/

/-- A character of a plain text. -/
def isPlainChar (c : Char) : Bool :=
  (32 ≤ c.toNat && c.toNat ≤ 126) || c == '\n' || c == '\t'

/-- The digits of a number that is not too large, without a zero in front of others. -/
def isNumeral (cs : List Char) : Bool :=
  !cs.isEmpty && cs.all Char.isDigit && (cs.length == 1 || cs.head? != some '0') &&
    decide (cs.length ≤ 18)

/-- A number, or two with a point between them. -/
def plainNumber (cs : List Char) : Option TomlValue :=
  if isNumeral cs then
    some (.integer (cs.foldl (fun n c => n * 10 + (c.toNat - 48)) 0))
  else
    match cs.splitOn '.' with
    | [whole, fraction] =>
      if isNumeral whole && !fraction.isEmpty && fraction.all Char.isDigit then
        some (.float (String.ofList cs))
      else none
    | _ => none

/-- The text between quotes, without quotes and escapes in it. -/
def plainString : List Char → Option TomlValue
  | '"' :: rest =>
    let body := rest.dropLast
    if rest.getLast? = some '"' ∧ '"' ∉ body ∧ '\\' ∉ body then some (.string (String.ofList body))
    else none
  | _ => none

def plainValue (raw : String) : Option TomlValue :=
  if raw.toList.all (fun c => isPlainChar c && c != '#' && c != '\n' && c != '\t')
      && trim raw == raw then
    if raw = "true" then some (.boolean true)
    else if raw = "false" then some (.boolean false)
    else if raw = "[]" then some (.array [])
    else (plainString raw.toList).or (plainNumber raw.toList)
  else none

/-- The expressions on a line. -/
def plainLine (line : String) : Option (List TomlExpr) :=
  match classify line with
  | .header h =>
    let path := (((h.toList.drop 1).dropLast).splitOn '.').map String.ofList
    if h.toList.getLast? = some ']' ∧ path.all isBareKey then some [.header path] else none
  | .entry key raw =>
    if isBareKey key then (plainValue raw).map (fun v => [.keyval [key] v]) else none
  | .other =>
    if trim line = "" ∨ (trim line).toList.head? = some '#' then some [] else none

/-- The expressions on lines. -/
def plainLines : List String → Option (List TomlExpr)
  | [] => some []
  | line :: rest =>
    match plainLine line, plainLines rest with
    | some first, some others => some (first ++ others)
    | _, _ => none

def plainExpressions (text : String) : Option (List TomlExpr) :=
  if text.toList.all isPlainChar then plainLines ((text.toList.splitOn '\n').map String.ofList)
  else none

/-- The value that an expression gives a path. -/
def assigned (current : Option (List String)) : TomlExpr → List (List String × TomlValue)
  | .keyval key v =>
    match current with
    | some table => [(table ++ key, v)]
    | none => []
  | _ => []

/-- The values that expressions give paths. -/
def assignments : Option (List String) → List TomlExpr → List (List String × TomlValue)
  | _, [] => []
  | current, e :: rest => assigned current e ++ assignments (enterTable current e) rest

/-- The tables that have a header. -/
def headerPaths (exprs : List TomlExpr) : List (List String) :=
  exprs.filterMap (fun e => match e with
    | .header path => some path
    | _ => none)

def hasArrayHeader (exprs : List TomlExpr) : Bool :=
  exprs.any (fun e => match e with
    | .arrayHeader _ => true
    | _ => false)

instance (p q : List String) : Decidable (Apart p q) :=
  inferInstanceAs (Decidable (_ ∧ _))

/-- No array of tables, no table with two headers, no key with two values, and no
    key that is also a table. -/
def Consistent (exprs : List TomlExpr) : Prop :=
  hasArrayHeader exprs = false ∧ (headerPaths exprs).Nodup ∧
    ((assignments (some []) exprs).map Prod.fst).Pairwise Apart ∧
    ∀ p ∈ (assignments (some []) exprs).map Prod.fst, ∀ h ∈ headerPaths exprs, ¬ p <+: h

instance (exprs : List TomlExpr) : Decidable (Consistent exprs) :=
  inferInstanceAs (Decidable (_ ∧ _))

/-- The tables that have a header, without their values. -/
def emptyTables (headers : List (List String)) : TomlValue :=
  headers.foldl (fun doc h => if (doc.get h).isSome then doc else doc.insert h (.table []))
    (.table [])

def plainTables (exprs : List TomlExpr) : Option TomlValue :=
  if Consistent exprs then
    some ((emptyTables (headerPaths exprs)).insertAll (assignments (some []) exprs))
  else none

/-- The plain documents as a crate. -/
def plainToml : TomlCrate where
  value := plainValue
  expressions := plainExpressions
  tables := plainTables

/-! ### The laws -/

theorem plainLines_append (ls more : List String) :
    plainLines (ls ++ more)
      = (plainLines ls).bind (fun a => (plainLines more).map (fun b => a ++ b)) := by
  induction ls with
  | nil =>
      rw [List.nil_append, plainLines, Option.bind_some]
      simp
  | cons line rest ih =>
      rw [List.cons_append, plainLines, plainLines, ih]
      cases plainLine line with
      | none => rfl
      | some first =>
          cases plainLines rest with
          | none => rfl
          | some others =>
              simp only [Option.bind_some]
              cases plainLines more with
              | none => rfl
              | some b => simp

/-- An expression is read from a text of plain lines. -/
theorem plainExpressions_eq_some_iff {text : String} {exprs : List TomlExpr} :
    plainExpressions text = some exprs ↔
      text.toList.all isPlainChar = true ∧
        plainLines ((text.toList.splitOn '\n').map String.ofList) = some exprs := by
  unfold plainExpressions
  exact Option.ite_none_right_eq_some

theorem plainLine_empty : plainLine "" = some [] := by
  have htrim : trim "" = "" := trim_of_tight tight_nil
  unfold plainLine
  simp only [classify_empty, htrim, true_or, if_true]

/-- Reading lines that are joined. -/
theorem plainExpressions_joinLines {ls : List String} (hne : ls ≠ [])
    (hplain : ∀ line ∈ ls, ∀ c ∈ line.toList, isPlainChar c = true ∧ c ≠ '\n') :
    plainExpressions (joinLines ls) = plainLines ls := by
  have hpieces : (joinLines ls).toList.splitOn '\n' = ls.map String.toList := by
    unfold joinLines
    rw [String.toList_ofList, List.splitOn_intercalate]
    · intro cs hcs hnewline
      rcases List.mem_map.mp hcs with ⟨line, hline, rfl⟩
      exact (hplain line hline _ hnewline).2 rfl
    · exact fun h => hne (List.map_eq_nil_iff.mp h)
  have hid : (String.ofList ∘ String.toList) = id := funext (fun _ => String.ofList_toList)
  have hchars : (joinLines ls).toList.all isPlainChar = true := by
    refine List.all_eq_true.mpr (fun c hc => ?_)
    rcases of_mem_joinLines hc with rfl | ⟨line, hline, hcline⟩
    · rfl
    · exact (hplain line hline c hcline).1
  unfold plainExpressions
  rw [if_pos hchars, hpieces, List.map_map, hid, List.map_id]

/-- There is no carriage return in a plain text. -/
theorem stripReturn_of_plain {text : String} (hplain : text.toList.all isPlainChar = true)
    {piece : List Char} (hpiece : piece ∈ text.toList.splitOn '\n') :
    stripReturn piece = piece := by
  apply if_neg
  intro hreturn
  have hchar := (of_mem_splitOn hpiece (List.mem_of_getLast? hreturn)).1
  exact absurd (List.all_eq_true.mp hplain _ hchar) (by decide)

/-- A newline at the end adds an empty line and nothing else. -/
theorem plainExpressions_newline (text : String) :
    plainExpressions (text ++ "\n") = plainExpressions text := by
  have hchars : (text ++ "\n").toList = text.toList ++ '\n' :: [] := String.toList_append
  have hall : (text ++ "\n").toList.all isPlainChar = text.toList.all isPlainChar := by
    rw [hchars, List.all_append]
    exact Bool.and_true _
  have hempty : plainLines (([].splitOn '\n').map String.ofList) = some [] := by
    simp only [List.splitOn_nil, List.map_singleton, plainLines, String.ofList_nil,
      plainLine_empty, List.append_nil]
  unfold plainExpressions
  rw [hall, hchars, List.splitOn_append_cons_self, List.map_append, plainLines_append, hempty]
  cases plainLines ((text.toList.splitOn '\n').map String.ofList) with
  | none => rfl
  | some exprs => simp

theorem plain_newlines (text : String) (exprs : List TomlExpr)
    (h : plainExpressions text = some exprs) :
    plainExpressions (joinLines (lines text)) = some exprs := by
  have hplain := (plainExpressions_eq_some_iff.mp h).1
  rcases List.eq_nil_or_concat (text.toList.splitOn '\n') with hnil | ⟨init, last, hsplit⟩
  · exact absurd hnil (List.splitOn_ne_nil _ _)
  rw [List.concat_eq_append] at hsplit
  have hkept : ∀ piece ∈ init, stripReturn piece = piece := by
    intro piece hpiece
    refine stripReturn_of_plain hplain ?_
    rw [hsplit]
    exact List.mem_append_left _ hpiece
  have hinit : init.map stripReturn = init := by
    rw [List.map_congr_left hkept, List.map_id']
  have htext : lines text
      = (init ++ if last.isEmpty then [] else [last]).map String.ofList := by
    unfold lines
    simp only [hsplit, List.getLast?_concat, Option.getD_some, List.dropLast_concat, hinit]
  have hwhole := joinLines_splitOn text
  rw [hsplit] at hwhole
  rw [htext]
  by_cases hlast : last.isEmpty = true
  · rw [if_pos hlast, List.append_nil]
    rw [List.isEmpty_iff] at hlast
    subst hlast
    by_cases hnone : init = []
    · subst hnone
      rw [← hwhole] at h
      exact h
    · -- The newline at the end is gone, and with it an empty line.
      have hjoin : joinLines (init.map String.ofList) ++ "\n" = text := by
        rw [← hwhole, List.map_append, List.map_singleton, joinLines_eq_intercalate,
          joinLines_eq_intercalate,
          String.intercalate_append_of_ne_nil (fun h => hnone (List.map_eq_nil_iff.mp h))
            (List.cons_ne_nil _ _)]
        exact String.append_empty.symm
      rw [← plainExpressions_newline, hjoin]
      exact h
  · rw [if_neg hlast, hwhole]
    exact h

theorem plain_append (first second : String) (done : List TomlExpr)
    (h : plainExpressions first = some done) :
    plainExpressions (first ++ "\n" ++ second)
      = if second.toList.head? = some '\uFEFF' then none
        else (plainExpressions second).map (fun rest => done ++ rest) := by
  rcases plainExpressions_eq_some_iff.mp h with ⟨hplain, hlines⟩
  have hchars : (first ++ "\n" ++ second).toList = first.toList ++ '\n' :: second.toList := by
    rw [String.toList_append, String.toList_append, List.append_assoc]
    rfl
  have hsplit : ((first ++ "\n" ++ second).toList.splitOn '\n').map String.ofList
      = (first.toList.splitOn '\n').map String.ofList
        ++ (second.toList.splitOn '\n').map String.ofList := by
    rw [hchars, List.splitOn_append_cons_self, List.map_append]
  have hall : (first ++ "\n" ++ second).toList.all isPlainChar = second.toList.all isPlainChar := by
    rw [hchars, List.all_append, hplain, List.all_cons]
    rfl
  unfold plainExpressions
  rw [hall, hsplit, plainLines_append, hlines, Option.bind_some]
  by_cases hmark : second.toList.head? = some '\uFEFF'
  · -- A byte order mark is no plain character.
    rw [if_pos hmark, if_neg]
    intro hsecond
    exact absurd (List.all_eq_true.mp hsecond _ (List.mem_of_head? hmark)) (by decide)
  · rw [if_neg hmark]
    split
    · rfl
    · rfl

/-- A plain value stands on one line for itself. -/
theorem plainValue_guard {raw : String} {v : TomlValue} (h : plainValue raw = some v) :
    (∀ c ∈ raw.toList, isPlainChar c = true ∧ c ≠ '#' ∧ c ≠ '\n') ∧ Tight raw.toList := by
  unfold plainValue at h
  split at h
  · next hguard =>
      rw [Bool.and_eq_true, List.all_eq_true] at hguard
      constructor
      · intro c hc
        have hchar := hguard.1 c hc
        simp only [Bool.and_eq_true, bne_iff_ne] at hchar
        exact ⟨hchar.1.1.1, hchar.1.1.2, hchar.1.2⟩
      · rw [← beq_iff_eq.mp hguard.2]
        exact tight_trim raw
  · exact absurd h (by simp)

/-- A written line is read as what was written. -/
theorem plainLine_rewriteLine (line : String) {key raw : String} {v : TomlValue}
    (hbare : isBareKey key = true) (hraw : plainValue raw = some v) :
    plainLine (rewriteLine line key raw) = some [.keyval [key] v] := by
  rcases plainValue_guard hraw with ⟨hchars, htight⟩
  have hhash : '#' ∉ raw.toList := fun hmem => (hchars _ hmem).2.1 rfl
  unfold plainLine
  rw [classify_rewriteLine line (isScanName_of_isBareKey hbare) htight hhash]
  simp only [hbare, if_true, hraw, Option.map_some]

theorem plain_keyval (line key : String) (old : TomlValue) (raw : String) (new : TomlValue)
    (hline : '\n' ∉ line.toList) (hbare : isBareKey key = true)
    (hexpr : plainExpressions line = some [.keyval [key] old]) (hraw : plainValue raw = some new) :
    plainExpressions (indentOf line ++ key ++ " = " ++ raw) = some [.keyval [key] new] := by
  rcases plainExpressions_eq_some_iff.mp hexpr with ⟨hplain, _⟩
  rcases plainValue_guard hraw with ⟨hchars, _⟩
  have hnewline : '\n' ∉ raw.toList := fun hmem => (hchars _ hmem).2.2 rfl
  have hname := isScanName_of_isBareKey hbare
  have hwritten : indentOf line ++ key ++ " = " ++ raw = rewriteLine line key raw := rfl
  rw [hwritten]
  refine plainExpressions_eq_some_iff.mpr ⟨?_, ?_⟩
  · -- The indentation is from the old line, and the rest is plain on its own.
    rw [rewriteLine, String.toList_append, String.toList_append, String.toList_append,
      String.toList_ofList, List.all_append, List.all_append, List.all_append, Bool.and_eq_true,
      Bool.and_eq_true, Bool.and_eq_true]
    refine ⟨⟨⟨?_, ?_⟩, by decide⟩, ?_⟩
    · exact List.all_eq_true.mpr
        (fun c hc => List.all_eq_true.mp hplain c ((List.takeWhile_prefix _).mem hc))
    · refine List.all_eq_true.mpr (fun c hc => ?_)
      rcases toNat_of_bare ((isBareKey_iff.mp hbare).2 c hc) with ⟨hlow, hhigh, _⟩
      have hlow' : 32 ≤ c.toNat := by omega
      have hhigh' : c.toNat ≤ 126 := by omega
      simp [isPlainChar, hlow', hhigh']
    · exact List.all_eq_true.mpr (fun c hc => (hchars c hc).1)
  · rw [List.splitOn_eq_singleton (not_mem_rewriteLine hline hname hnewline)]
    simp only [List.map_singleton, plainLines, String.ofList_toList,
      plainLine_rewriteLine line hbare hraw, List.append_nil]

theorem assignments_append (current : Option (List String)) (done rest : List TomlExpr) :
    assignments current (done ++ rest)
      = assignments current done ++ assignments (done.foldl enterTable current) rest := by
  induction done generalizing current with
  | nil => rfl
  | cons e done ih =>
      rw [List.cons_append, List.foldl_cons, assignments, assignments, ih, List.append_assoc]

/-- The assignments around one key/value expression. -/
theorem assignments_around {done : List TomlExpr} {section_ : String}
    (htable : currentTable done = some [section_]) (rest : List TomlExpr) (key : String)
    (v : TomlValue) :
    assignments (some []) (done ++ .keyval [key] v :: rest)
      = assignments (some []) done ++ ([section_, key], v) :: assignments (some [section_]) rest := by
  unfold currentTable at htable
  rw [assignments_append, htable, assignments]
  rfl

theorem headerPaths_around (done rest : List TomlExpr) (key : List String) (v : TomlValue) :
    headerPaths (done ++ .keyval key v :: rest) = headerPaths done ++ headerPaths rest := by
  unfold headerPaths
  rw [List.filterMap_append]
  rfl

/-- Which value a key has makes no difference to consistency. -/
theorem consistent_keyval {done rest : List TomlExpr} {section_ key : String} {old : TomlValue}
    (new : TomlValue) (htable : currentTable done = some [section_])
    (h : Consistent (done ++ .keyval [key] old :: rest)) :
    Consistent (done ++ .keyval [key] new :: rest) := by
  have harrays : ∀ v, hasArrayHeader (done ++ .keyval [key] v :: rest)
      = (hasArrayHeader done || hasArrayHeader rest) := by
    intro v
    unfold hasArrayHeader
    rw [List.any_append, List.any_cons, Bool.false_or]
  unfold Consistent at h ⊢
  rw [assignments_around htable, List.map_append, List.map_cons, headerPaths_around, harrays] at h ⊢
  exact h

/-- The table of a document around one key/value expression: its value is put into
    what is there before, and what comes after is apart from it. -/
theorem plainTables_around {done rest : List TomlExpr} {section_ key : String}
    {old doc : TomlValue} (htable : currentTable done = some [section_])
    (h : plainTables (done ++ .keyval [key] old :: rest) = some doc) :
    ∃ before, (∀ a ∈ assignments (some [section_]) rest, Apart [section_, key] a.1) ∧
      ∀ v, plainTables (done ++ .keyval [key] v :: rest)
        = some ((TomlValue.insert before [section_, key] v).insertAll
          (assignments (some [section_]) rest)) := by
  have hconsistent : Consistent (done ++ .keyval [key] old :: rest) := by
    unfold plainTables at h
    exact (Option.ite_none_right_eq_some.mp h).1
  -- The path of the key is apart from all that follow, since no key has two values
  -- and none is a table.
  have hpairwise := hconsistent.2.2.1
  rw [assignments_around htable, List.map_append, List.map_cons, List.pairwise_append,
    List.pairwise_cons] at hpairwise
  refine ⟨(emptyTables (headerPaths done ++ headerPaths rest)).insertAll
    (assignments (some []) done), ?_, ?_⟩
  · intro a ha
    exact hpairwise.2.1.1 _ (List.mem_map_of_mem ha)
  · intro v
    unfold plainTables
    rw [if_pos (consistent_keyval v htable hconsistent), headerPaths_around,
      assignments_around htable]
    unfold TomlValue.insertAll
    rw [List.foldl_append]
    rfl

theorem plain_defines (done rest : List TomlExpr) (section_ key : String) (old doc : TomlValue)
    (htable : currentTable done = some [section_])
    (h : plainTables (done ++ .keyval [key] old :: rest) = some doc) :
    doc.get [section_, key] = some old := by
  rcases plainTables_around htable h with ⟨before, hapart, htables⟩
  rw [htables] at h
  rw [← Option.some.inj h, TomlValue.get_insertAll hapart, TomlValue.get_insert_self]

theorem plain_replaces (done rest : List TomlExpr) (section_ key : String)
    (old new doc : TomlValue) (htable : currentTable done = some [section_])
    (h : plainTables (done ++ .keyval [key] old :: rest) = some doc) :
    plainTables (done ++ .keyval [key] new :: rest) = some (doc.set [section_, key] new) := by
  rcases plainTables_around htable h with ⟨before, hapart, htables⟩
  -- Replacing passes by what is put later and meets the value where it was put.
  rw [htables] at h
  rw [htables, ← Option.some.inj h, ← TomlValue.insertAll_set hapart, TomlValue.set_insert_self]

theorem plainToml_expressions : plainToml.expressions = plainExpressions := rfl

/-- The plain documents obey the laws of the language. -/
theorem plainToml_lawful : plainToml.Lawful where
  newlines := by
    rw [plainToml_expressions]
    exact plain_newlines
  append := by
    rw [plainToml_expressions]
    exact plain_append
  keyval := by
    rw [plainToml_expressions]
    exact plain_keyval
  defines := plain_defines
  replaces := plain_replaces

/-! ### A configuration without the advisor -/

/-- A configuration that leaves the advisor at its defaults. -/
def plainConfigLines : List String :=
  [ "[fast_path]", "enabled = true", "rules_path = \"rules\"", "default_action = \"log\"",
    "[system]", "log_level = \"info\"", "hot_reload = true",
    "[scope]", "targets = []", "include_namespaces = []", "exclude_namespaces = []",
    "label_selectors = []",
    "[adapter]", "backend = \"falco\"",
    "[adapter.tetragon]", "endpoint = \"\"",
    "[adapter.falco]", "log_path = \"falco.log\"",
    "[adapter.auditd]", "log_path = \"\"",
    "[slow_path]", "enabled = false", "time_window_secs = 10", "similarity_threshold = 0.85",
    "[slow_path.embedder]", "backend = \"local\"", "model = \"\"",
    "[slow_path.vectordb]", "backend = \"usearch\"", "url = \"\"", "collection = \"\"",
    "[tui]", "refresh_rate_ms = 250", "theme = \"dark\"" ]

def plainConfig : String := joinLines plainConfigLines

theorem plainConfigLines_plain :
    ∀ line ∈ plainConfigLines, ∀ c ∈ line.toList, isPlainChar c = true ∧ c ≠ '\n' := by
  have hchars : plainConfigLines.all
      (fun line => line.toList.all (fun c => isPlainChar c && c != '\n')) = true := by
    decide +kernel
  intro line hline c hc
  have hchar := List.all_eq_true.mp (List.all_eq_true.mp hchars line hline) c hc
  rw [Bool.and_eq_true, bne_iff_ne] at hchar
  exact hchar

theorem lines_plainConfig : lines plainConfig = plainConfigLines := by
  refine lines_joinLines (fun line hline => ⟨?_, ?_⟩) ?_
  · exact fun hmem => (plainConfigLines_plain line hline _ hmem).2 rfl
  · intro hlast
    have hmem := List.mem_of_getLast? hlast
    exact absurd (plainConfigLines_plain line hline _ hmem).1 (by decide)
  · intro last hlast
    rw [← Option.some.inj hlast]
    decide

theorem plainConfig_loads : ∃ doc, Config.fromStr plainToml plainConfig = some doc := by
  have hread : ((plainLines plainConfigLines).bind plainTables).any configSchema.accepts = true := by
    decide +kernel
  rw [Option.any_eq_true] at hread
  rcases hread with ⟨doc, hdoc, haccepts⟩
  rcases Option.bind_eq_some_iff.mp hdoc with ⟨exprs, hexprs, htables⟩
  refine ⟨doc, fromStr_eq_some_iff.mpr ⟨exprs, ?_, htables, haccepts⟩⟩
  rw [plainToml_expressions, plainConfig,
    plainExpressions_joinLines (by simp [plainConfigLines]) plainConfigLines_plain]
  exact hexprs

end VectorGuard
