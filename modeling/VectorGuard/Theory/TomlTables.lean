import VectorGuard.Core.Toml

/-!
# Tables and the Schema

Replacing the value at a path of a document: the new value is there, paths that
neither lead to it nor through it have what they had, and a document that a
schema accepts is accepted with any value the schema allows at that place.

A struct may also come as an array of its fields, but not where a path leads
through it, since paths only lead through tables.

## Main definitions

* `Apart`: Neither of two paths leads through the other.

## Theorems

* `TomlValue.get_set_self`, `TomlValue.get_set_of_apart`: What is where after a
  replacement.
* `Schema.accepts_set`: A replacement keeps a document accepted.
-/

namespace VectorGuard

/-- Neither of two paths leads through the other. -/
def Apart (p q : List String) : Prop :=
  ¬ p <+: q ∧ ¬ q <+: p

theorem Apart.symm {p q : List String} (h : Apart p q) : Apart q p :=
  ⟨h.2, h.1⟩

theorem not_apart_nil {q : List String} : ¬ Apart [] q :=
  fun h => h.1 List.nil_prefix

theorem apart_cons_iff {k : String} {p q : List String} : Apart (k :: p) (k :: q) ↔ Apart p q := by
  unfold Apart
  rw [List.prefix_cons_inj, List.prefix_cons_inj]

theorem apart_of_head_ne {j k : String} {p q : List String} (hne : j ≠ k) :
    Apart (j :: p) (k :: q) := by
  constructor
  · intro h
    exact hne (List.cons_prefix_cons.mp h).1
  · intro h
    exact hne (List.cons_prefix_cons.mp h).1.symm

namespace TomlValue

/-- Looking up where the value of one key is changed. -/
theorem lookup_mapKey {α : Type} (k j : String) (f : α → α) (entries : List (String × α)) :
    (mapKey k f entries).lookup j
      = if j = k then (entries.lookup j).map f else entries.lookup j := by
  induction entries with
  | nil =>
      simp only [mapKey, List.map_nil, List.lookup_nil, Option.map_none, ite_self]
  | cons e rest ih =>
      rcases e with ⟨name, v⟩
      unfold mapKey at ih ⊢
      rw [List.map_cons]
      -- Whether the first entry is changed, and whether it is the one looked for.
      by_cases hname : name = k
      · rw [if_pos hname]
        subst hname
        by_cases hj : j = name
        · subst hj
          rw [List.lookup_cons_self, List.lookup_cons_self, if_pos rfl, Option.map_some]
        · have hbeq : (j == name) = false := beq_false_of_ne hj
          rw [List.lookup_cons, List.lookup_cons, hbeq]
          exact ih
      · rw [if_neg hname]
        by_cases hj : j = name
        · subst hj
          rw [List.lookup_cons_self, List.lookup_cons_self, if_neg hname]
        · have hbeq : (j == name) = false := beq_false_of_ne hj
          rw [List.lookup_cons, List.lookup_cons, hbeq]
          exact ih

variable {doc old new : TomlValue} {entries : List (String × TomlValue)} {k : String}
  {path p q : List String}

theorem get_cons_table : (table entries).get (k :: path) = (entries.lookup k).bind (·.get path) := by
  rw [get]
  cases entries.lookup k with
  | none => rfl
  | some v => rfl

theorem set_cons_table : (table entries).set (k :: path) new
    = table (mapKey k (·.set path new) entries) := by
  rw [set]

/-- A path leads through tables only. -/
theorem exists_of_get_cons (hget : doc.get (k :: path) = some old) :
    ∃ entries v, doc = table entries ∧ entries.lookup k = some v ∧ v.get path = some old := by
  cases doc with
  | table entries =>
      rw [get_cons_table, Option.bind_eq_some_iff] at hget
      rcases hget with ⟨v, hv, hget⟩
      exact ⟨entries, v, rfl, hv, hget⟩
  | _ => exact absurd hget (by simp [get])

/-- The new value is there. -/
theorem get_set_self (hget : doc.get path = some old) : (doc.set path new).get path = some new := by
  -- By induction on the path, through the tables it leads through.
  induction path generalizing doc with
  | nil =>
      unfold set get
      rfl
  | cons k path ih =>
      rcases exists_of_get_cons hget with ⟨entries, v, rfl, hv, hbelow⟩
      rw [set_cons_table, get_cons_table, lookup_mapKey, if_pos rfl, hv]
      exact ih hbelow

/-- A path apart from the replaced one leads to what it led to. -/
theorem get_set_of_apart (hget : doc.get p = some old) (hapart : Apart q p) :
    (doc.set p new).get q = doc.get q := by
  induction p generalizing doc q with
  | nil => exact absurd hapart.symm not_apart_nil
  | cons k p ih =>
      rcases exists_of_get_cons hget with ⟨entries, v, rfl, hv, hbelow⟩
      cases q with
      | nil => exact absurd hapart not_apart_nil
      | cons j q =>
          rw [set_cons_table, get_cons_table, get_cons_table, lookup_mapKey]
          -- Through the same key the paths part further down.
          by_cases hj : j = k
          · subst hj
            rw [if_pos rfl, hv]
            exact ih hbelow (apart_cons_iff.mp hapart)
          · rw [if_neg hj]

end TomlValue

namespace Schema

variable {schema : Schema} {doc old new : TomlValue} {path : List String}

/-- A struct takes a table if every field takes the value of its name, and has a
    default where there is none. -/
theorem acceptsEntries_iff (fields : List (String × Bool × Schema))
    (entries : List (String × TomlValue)) :
    acceptsEntries fields entries = true ↔ ∀ f ∈ fields,
      (match entries.lookup f.1 with
        | some v => f.2.2.accepts v
        | none => f.2.1) = true := by
  induction fields with
  | nil =>
      simp [acceptsEntries]
  | cons f rest ih =>
      rcases f with ⟨name, hasDefault, schema⟩
      rw [acceptsEntries, Bool.and_eq_true, ih]
      constructor
      · rintro ⟨hfirst, hrest⟩ f hf
        rcases List.mem_cons.mp hf with rfl | hf
        · exact hfirst
        · exact hrest f hf
      · intro h
        exact ⟨h _ List.mem_cons_self, fun f hf => h f (List.mem_cons_of_mem _ hf)⟩

/-- A replacement that the schema allows keeps a document accepted. -/
theorem accepts_set (haccepts : schema.accepts doc = true) (hget : doc.get path = some old)
    (hat : schema.acceptsAt path new = true) : schema.accepts (doc.set path new) = true := by
  -- Down the path through schema and document together: what is beside it keeps its
  -- value, and what is on it is accepted with the replacement inside.
  induction path generalizing schema doc with
  | nil =>
      unfold TomlValue.set
      unfold acceptsAt at hat
      exact hat
  | cons k path ih =>
      rcases TomlValue.exists_of_get_cons hget with ⟨entries, v, rfl, hv, hbelow⟩
      cases schema with
      | key type =>
          exact absurd hat (by simp [acceptsAt])
      | struct fields =>
          rw [acceptsAt, List.all_eq_true] at hat
          rw [accepts, acceptsEntries_iff] at haccepts
          rw [TomlValue.set_cons_table, accepts, acceptsEntries_iff]
          intro f hf
          have hfield := haccepts f hf
          rw [TomlValue.lookup_mapKey]
          by_cases hname : f.1 = k
          · -- The field on the path: its value was accepted, and is with the replacement inside.
            rw [if_pos hname, hname, hv]
            rw [hname, hv] at hfield
            have hallowed := hat f hf
            rw [hname, bne_self_eq_false, Bool.false_or] at hallowed
            exact ih hfield hbelow hallowed
          · rw [if_neg hname]
            exact hfield

end Schema

theorem fromStr_eq_some_iff {toml : TomlCrate} {text : String} {doc : TomlValue} :
    Config.fromStr toml text = some doc ↔ ∃ exprs, toml.expressions text = some exprs ∧
      toml.tables exprs = some doc ∧ configSchema.accepts doc = true := by
  unfold Config.fromStr
  constructor
  · intro hload
    cases hexprs : toml.expressions text with
    | none =>
        rw [hexprs] at hload
        exact absurd hload (by simp)
    | some exprs =>
        rw [hexprs] at hload
        cases htables : toml.tables exprs with
        | none => simp [htables] at hload
        | some table =>
            simp only [htables, Option.ite_none_right_eq_some, Option.some.injEq] at hload
            rcases hload with ⟨haccepts, rfl⟩
            exact ⟨exprs, rfl, htables, haccepts⟩
  · rintro ⟨exprs, hexprs, htables, haccepts⟩
    simp only [hexprs, htables, haccepts, if_true]

end VectorGuard
