import VectorGuard.Theory.StoreFiles

/-!
# Staged Listings

What a directory lists after rules were staged into it.

A directory is looked at as a map from names to the text of what they lead to.
Staging a rule puts its text under its name, if the system takes the name, over whatever
was there unless that is a directory, and leaves the other names. So after a sequence of calls, of
which some may have failed, a name has the text of the last rule that was put
there, or the one it had.

## Main definitions

* `held`: The names of a directory with their texts.
* `put`: Staging as an operation on names and texts.

## Theorems

* `stageTo_cases`: A call writes one name of the directory or does nothing.
* `held_stageRules`: Staging into a directory is `put`, call by call.
* `foldl_put_eq_some_iff`: What a name has in the end.
* `mem_map_readEntry_iff`: What is listed of a directory.
-/

namespace VectorGuard

open FileTree

/-- The names of a directory with their texts. A directory has no text. -/
def held (fs : FileTree) (path : Path) (name : String) : Option (Option String) :=
  (fs.entry (path ++ [name])).map (fun e => (readEntry fs (name, e)).content)

section Put

variable (text : Nat × Rule → Option String) (name : Nat × Rule → String)

/-- A call has something to write under a name. -/
def Names (c : Nat × Rule) (n : String) : Prop := name c = n ∧ text c ≠ none

/-- The last call of a sequence that has something to write under a name. -/
def LastNamed (calls : List (Nat × Rule)) (n : String) (c : Nat × Rule) : Prop :=
  ∃ front back, calls = front ++ c :: back ∧ Names text name c n ∧
    ∀ c' ∈ back, ¬ Names text name c' n

/-- Put a rule under its name, unless a directory has it. -/
def put (texts : String → Option (Option String)) (c : Nat × Rule) :
    String → Option (Option String) :=
  match text c with
  | none => texts
  | some body =>
    if texts (name c) = some none then texts
    else Function.update texts (name c) (some (some (ruleHeader ++ body)))

variable {text name} {texts : String → Option (Option String)}

theorem put_of_not_names {c : Nat × Rule} {n : String} (h : ¬ Names text name c n) :
    put text name texts c n = texts n := by
  unfold put
  cases hbody : text c with
  | none => rfl
  | some body =>
      have hne : n ≠ name c := fun heq => h ⟨heq.symm, by rw [hbody]; simp⟩
      simp only
      split
      · rfl
      · exact Function.update_of_ne hne _ _

theorem put_self {c : Nat × Rule} {body : String} (hbody : text c = some body)
    (hfile : texts (name c) ≠ some none) :
    put text name texts c (name c) = some (some (ruleHeader ++ body)) := by
  unfold put
  rw [hbody]
  simp only
  rw [if_neg hfile, Function.update_self]

/-- A name leads to a directory after a call exactly when it did before. -/
theorem put_dir_iff (c : Nat × Rule) (n : String) :
    put text name texts c n = some none ↔ texts n = some none := by
  by_cases hnames : Names text name c n
  · rcases hnames with ⟨rfl, hsome⟩
    rcases Option.ne_none_iff_exists'.mp hsome with ⟨body, hbody⟩
    by_cases hdir : texts (name c) = some none
    · have hsame : put text name texts c = texts := by
        unfold put
        rw [hbody]
        exact if_pos hdir
      rw [hsame]
    · rw [put_self hbody hdir]
      simp [hdir]
  · rw [put_of_not_names hnames]

theorem lastNamed_cons (c₀ : Nat × Rule) (rest : List (Nat × Rule)) (n : String) (c : Nat × Rule) :
    LastNamed text name (c₀ :: rest) n c ↔
      (c₀ = c ∧ Names text name c n ∧ ∀ c' ∈ rest, ¬ Names text name c' n) ∨
        LastNamed text name rest n c := by
  constructor
  · rintro ⟨front, back, hsplit, hnames, hback⟩
    rcases List.cons_eq_append_iff.mp hsplit with ⟨_, hcons⟩ | ⟨front', _, hrest⟩
    · rw [List.cons.injEq] at hcons
      exact .inl ⟨hcons.1.symm, hnames, hcons.2 ▸ hback⟩
    · exact .inr ⟨front', back, hrest, hnames, hback⟩
  · rintro (⟨rfl, hnames, hrest⟩ | ⟨front, back, rfl, hnames, hback⟩)
    · exact ⟨[], rest, rfl, hnames, hrest⟩
    · exact ⟨c₀ :: front, back, rfl, hnames, hback⟩

/-- The text under a name in the end is the one that was there, when no call had
    anything to write to it, or that of the last call that had. -/
theorem foldl_put_eq_some_iff (calls : List (Nat × Rule)) (n content : String) :
    calls.foldl (put text name) texts n = some (some content) ↔
      (texts n = some (some content) ∧ ∀ c ∈ calls, ¬ Names text name c n) ∨
      (texts n ≠ some none ∧ ∃ c, LastNamed text name calls n c ∧
        ∃ body, text c = some body ∧ content = ruleHeader ++ body) := by
  -- By induction on the calls: the first one counts if it names the name and no later one does.
  induction calls generalizing texts with
  | nil =>
      have hnone : ∀ c, ¬ LastNamed text name [] n c := by
        rintro c ⟨front, back, hsplit, _⟩
        exact absurd hsplit (by simp)
      simp [hnone]
  | cons c₀ rest ih =>
      rw [List.foldl_cons, ih]
      simp only [lastNamed_cons, List.mem_cons, forall_eq_or_imp]
      by_cases hnames : Names text name c₀ n
      · rcases hnames with ⟨rfl, hsome⟩
        rcases Option.ne_none_iff_exists'.mp hsome with ⟨body, hbody⟩
        have hself : Names text name c₀ (name c₀) := ⟨rfl, hsome⟩
        by_cases hdir : texts (name c₀) = some none
        · rw [(put_dir_iff c₀ (name c₀)).mpr hdir, hdir]
          simp
        · rw [put_self hbody hdir]
          constructor
          · rintro (⟨htext, hrest⟩ | ⟨_, c, hlast, body', hbody', rfl⟩)
            · refine .inr ⟨hdir, c₀, .inl ⟨rfl, hself, hrest⟩, body, hbody, ?_⟩
              exact (Option.some.inj (Option.some.inj htext)).symm
            · exact .inr ⟨hdir, c, .inr hlast, body', hbody', rfl⟩
          · rintro (⟨_, hnot, _⟩ | ⟨_, c, ⟨rfl, _, hrest⟩ | hlast, body', hbody', rfl⟩)
            · exact absurd hself hnot
            · rw [hbody, Option.some.injEq] at hbody'
              exact .inl ⟨by rw [hbody'], hrest⟩
            · exact .inr ⟨by simp, c, hlast, body', hbody', rfl⟩
      · rw [put_of_not_names hnames]
        constructor
        · rintro (⟨htext, hrest⟩ | ⟨hfile, c, hlast, hwritten⟩)
          · exact .inl ⟨htext, hnames, hrest⟩
          · exact .inr ⟨hfile, c, .inr hlast, hwritten⟩
        · rintro (⟨htext, _, hrest⟩ | ⟨hfile, c, ⟨rfl, hself, _⟩ | hlast, hwritten⟩)
          · exact .inl ⟨htext, hrest⟩
          · exact absurd hself hnames
          · exact .inr ⟨hfile, c, hlast, hwritten⟩

end Put

/-! ### Staging as putting -/

section Refine

variable {toText : RuleSet → Option String} {dir : String} {name : String → String}
  {fs fs' : FileTree} {path : Path}

theorem held_dir_iff (n : String) :
    held fs path n = some none ↔ fs.entry (path ++ [n]) = some .dir := by
  unfold held readEntry
  cases hentry : fs.entry (path ++ [n]) with
  | none => simp
  | some e => cases e <;> simp

theorem held_file_iff (n text : String) :
    held fs path n = some (some text) ↔
      ∃ inode, fs.entry (path ++ [n]) = some (.file inode) ∧ (fs.data inode).content = text := by
  unfold held readEntry
  cases hentry : fs.entry (path ++ [n]) with
  | none => simp
  | some e => cases e <;> simp

theorem held_congr {n : String} (hentry : fs'.entry (path ++ [n]) = fs.entry (path ++ [n]))
    (hfile : fs'.fileAt (path ++ [n]) = fs.fileAt (path ++ [n])) :
    held fs' path n = held fs path n := by
  unfold held readEntry
  rw [hentry]
  unfold fileAt at hfile
  rw [hentry] at hfile
  cases hbefore : fs.entry (path ++ [n]) with
  | none => rfl
  | some e =>
      rw [hbefore] at hfile
      cases e with
      | dir => rfl
      | file inode =>
          simp only [Option.some.injEq, Prod.mk.injEq, true_and] at hfile
          simp only [Option.map_some, hfile]

variable (toText name) in
/-- What a call has to write in a directory, none when the system does not take the
    name. -/
def textAt (sys : System) (path : Path) (c : Nat × Rule) : Option String :=
  if sys.accepts (path ++ [name (stagedId c)]) then toText ⟨[c.2]⟩ else none

theorem textAt_eq_some_iff {sys : System} {c : Nat × Rule} {body : String} :
    textAt toText name sys path c = some body ↔
      sys.accepts (path ++ [name (stagedId c)]) = true ∧ toText ⟨[c.2]⟩ = some body := by
  unfold textAt
  split
  · next haccepts => simp [haccepts]
  · next hrefused => simp [hrefused]

/-- A call with something to write works unless a directory has the name. -/
theorem stage_works (hname : ∀ c, IsName (name (stagedId c))) (hpath : fs.place dir = some path)
    (hdir : fs.entry path = some .dir) (c : Nat × Rule) {body : String}
    (hbody : textAt toText name fs.sys path c = some body)
    (hfile : fs.entry (path ++ [name (stagedId c)]) ≠ some .dir) :
    ∃ id, (stageTo toText dir name fs c.1 c.2).2 = .ok id := by
  rcases textAt_eq_some_iff.mp hbody with ⟨haccepts, hbody⟩
  have hok : (fs.write c.1 (joinPath dir (name (stagedId c))) (ruleHeader ++ body)).2 = true :=
    (write_ok_iff _ _ _).mpr ⟨_, resolve_joinPath_of_dir (hname c) hpath hdir, haccepts, hfile⟩
  cases hwrite : fs.write c.1 (joinPath dir (name (stagedId c))) (ruleHeader ++ body) with
  | mk fs' ok =>
      rw [hwrite] at hok
      simp only at hok
      subst hok
      refine ⟨stagedId c, ?_⟩
      unfold stagedId at hwrite ⊢
      unfold stageTo ApprovalStore.stage writeRule
      rw [createDirAll_of_place hpath hdir]
      simp only [hbody]
      rw [hwrite]

/-- A call into a directory that is there writes the child that has the name, or
    does nothing. -/
theorem stageTo_cases (hname : ∀ c, IsName (name (stagedId c))) (hpath : fs.place dir = some path)
    (hdir : fs.entry path = some .dir) (c : Nat × Rule) :
    (∃ e, stageTo toText dir name fs c.1 c.2 = (fs, .error e)) ∨
      ∃ fs' inode body, stageTo toText dir name fs c.1 c.2 = (fs', .ok (stagedId c)) ∧
        toText ⟨[c.2]⟩ = some body ∧
        Written fs fs' c.1 (ruleHeader ++ body) (path ++ [name (stagedId c)]) inode := by
  have hcreated := createDirAll_of_place hpath hdir
  rcases stage_cases toText fs (hname c) with ⟨e, hstage⟩ |
    ⟨fs', path', inode, body, hstage, hstaged⟩
  · rw [hcreated] at hstage
    exact .inl ⟨e, hstage⟩
  · have hplace := hstaged.place
    rw [hcreated, hpath] at hplace
    have hwritten := hstaged.written
    rw [hcreated, ← Option.some.inj hplace] at hwritten
    exact .inr ⟨fs', inode, body, hstage, hstaged.text, hwritten⟩

theorem held_stageTo (hwell : WellFormed fs) (hname : ∀ c, IsName (name (stagedId c)))
    (hpath : fs.place dir = some path) (hdir : fs.entry path = some .dir) (c : Nat × Rule) :
    held (stageTo toText dir name fs c.1 c.2).1 path =
      put (textAt toText name fs.sys path) (fun c => name (stagedId c)) (held fs path) c := by
  rcases stageTo_cases hname hpath hdir c with ⟨e, hstage⟩ |
    ⟨fs', inode, body, hstage, hbody, hwritten⟩
  · -- Nothing was written, for want of a text or because of a directory.
    rw [hstage]
    unfold put
    cases hbody : textAt toText name fs.sys path c with
    | none => rfl
    | some body =>
        have hself : held fs path (name (stagedId c)) = some none := by
          by_contra hnot
          rcases stage_works hname hpath hdir c hbody (mt (held_dir_iff _).mpr hnot) with ⟨id, hid⟩
          rw [hstage] at hid
          exact absurd hid (by simp)
        exact (if_pos hself).symm
  · rw [hstage]
    have hfile : held fs path (name (stagedId c)) ≠ some none := by
      intro hnot
      rw [held_dir_iff] at hnot
      rcases hwritten.before with ⟨hnone, _⟩ | hold
      · rw [hnone] at hnot
        exact absurd hnot (by simp)
      · rw [hold] at hnot
        exact absurd hnot (by simp)
    funext n
    by_cases hn : n = name (stagedId c)
    · rw [hn, put_self (textAt_eq_some_iff.mpr ⟨hwritten.accepted, hbody⟩) hfile, held_file_iff]
      refine ⟨inode, hwritten.entry_self, ?_⟩
      rw [hwritten.data, Function.update_self]
    · have hne : path ++ [n] ≠ path ++ [name (stagedId c)] := by
        simp only [ne_eq, List.append_cancel_left_eq, List.cons.injEq, and_true]
        exact hn
      rw [put_of_not_names (fun h => hn h.1.symm)]
      exact held_congr (hwritten.entry_of_ne _ hne) (hwritten.fileAt_of_ne hwell hne)

/-- A call leaves the directory where it is, and what the system refuses. -/
theorem dir_stageTo (hname : ∀ c, IsName (name (stagedId c))) (hpath : fs.place dir = some path)
    (hdir : fs.entry path = some .dir) (c : Nat × Rule) :
    (stageTo toText dir name fs c.1 c.2).1.place dir = some path ∧
      (stageTo toText dir name fs c.1 c.2).1.entry path = some .dir ∧
      (stageTo toText dir name fs c.1 c.2).1.sys = fs.sys := by
  rcases stageTo_cases hname hpath hdir c with ⟨e, hstage⟩ |
    ⟨fs', inode, body, hstage, hbody, hwritten⟩
  · rw [hstage]
    exact ⟨hpath, hdir, rfl⟩
  · rw [hstage]
    exact ⟨hwritten.place hpath, (hwritten.kept_dir path).mpr hdir, hwritten.sys⟩

/-- Staging a sequence of rules puts them under their names, one after another. -/
theorem held_stageRules (hwell : WellFormed fs) (hname : ∀ c, IsName (name (stagedId c)))
    (hpath : fs.place dir = some path) (hdir : fs.entry path = some .dir)
    (calls : List (Nat × Rule)) :
    (stageRules (stageTo toText dir name) fs calls).place dir = some path ∧
      (stageRules (stageTo toText dir name) fs calls).entry path = some .dir ∧
      held (stageRules (stageTo toText dir name) fs calls) path =
        calls.foldl (put (textAt toText name fs.sys path) (fun c => name (stagedId c)))
          (held fs path) := by
  induction calls generalizing fs with
  | nil => exact ⟨hpath, hdir, rfl⟩
  | cons c rest ih =>
      rcases dir_stageTo hname hpath hdir c with ⟨hpath', hdir', hsys⟩
      have hrest := ih (wellFormed_stage hwell c (hname c)) hpath' hdir'
      rw [held_stageTo hwell hname hpath hdir c, hsys] at hrest
      exact hrest

/-- Calls into a directory that cannot be created leave what the first one left. -/
theorem stageRules_of_failed (hfail : fs.createDirAll dir = (fs', false)) (c : Nat × Rule)
    (rest : List (Nat × Rule)) :
    stageRules (stageTo toText dir name) fs (c :: rest) = fs' := by
  have hstage : ∀ fs₀ : FileTree, fs₀.createDirAll dir = (fs', false) → ∀ c : Nat × Rule,
      (stageTo toText dir name fs₀ c.1 c.2).1 = fs' := by
    intro fs₀ h c
    unfold stageTo ApprovalStore.stage
    rw [h]
  have hagain := createDirAll_of_failed hfail
  have hrest : stageRules (stageTo toText dir name) fs' rest = fs' := by
    induction rest with
    | nil => rfl
    | cons c' rest ih =>
        unfold stageRules
        rw [hstage fs' hagain c']
        exact ih
  unfold stageRules
  rw [hstage fs hfail c]
  exact hrest

/-- Creating the directory first makes no difference to a call. -/
theorem stageRules_created (hcreated : fs.createDirAll dir = (fs', true)) (c : Nat × Rule)
    (rest : List (Nat × Rule)) :
    stageRules (stageTo toText dir name) fs (c :: rest) =
      stageRules (stageTo toText dir name) fs' (c :: rest) := by
  have hagain : fs'.createDirAll dir = (fs', true) := by
    by_cases hempty : dir = ""
    · exact if_pos hempty
    · have hok : (fs.createDirAll dir).2 = true := by rw [hcreated]
      rcases resolve_createDirAll hempty hok with ⟨path, hpath, hdir⟩
      rw [hcreated] at hpath hdir
      exact createDirAll_of_resolve hpath hdir
  have hcall : stageTo toText dir name fs c.1 c.2 = stageTo toText dir name fs' c.1 c.2 := by
    unfold stageTo ApprovalStore.stage
    rw [hcreated, hagain]
  unfold stageRules
  rw [hcall]

/-! ### Listings -/

theorem rulesListing_eq_some_iff (entries : List (Option DirEntry)) :
    rulesListing fs dir = some entries ↔
      ∃ path names, fs.resolve dir = some path ∧ fs.readDir path = some names ∧
        entries = names.map (fun e => some (readEntry fs e)) := by
  unfold rulesListing
  rw [Option.map_eq_some_iff]
  constructor
  · rintro ⟨names, hnames, rfl⟩
    rcases Option.bind_eq_some_iff.mp hnames with ⟨path, hpath, hread⟩
    exact ⟨path, names, hpath, hread, rfl⟩
  · rintro ⟨path, names, hpath, hread, rfl⟩
    exact ⟨names, by rw [hpath, Option.bind_some, hread], rfl⟩

theorem isDir_of_readDir {names : List (String × Entry)} (h : fs.readDir path = some names) :
    fs.entry path = some .dir := by
  unfold readDir at h
  split at h
  · next hdir => exact hdir
  · exact absurd h (by simp)

/-- The entries of a listing are the names of the directory with their texts. -/
theorem mem_map_readEntry_iff {names : List (String × Entry)} (h : fs.readDir path = some names)
    (entry : Option DirEntry) :
    entry ∈ names.map (fun e => some (readEntry fs e)) ↔
      ∃ n text, held fs path n = some text ∧ entry = some ⟨bytes n, text⟩ := by
  rw [List.mem_map]
  constructor
  · rintro ⟨⟨n, e⟩, hmem, rfl⟩
    have hentry := (mem_readDir_iff h n e).mp hmem
    refine ⟨n, (readEntry fs (n, e)).content, ?_, rfl⟩
    unfold held
    rw [hentry, Option.map_some]
  · rintro ⟨n, text, hheld, rfl⟩
    rcases Option.map_eq_some_iff.mp hheld with ⟨e, hentry, rfl⟩
    exact ⟨(n, e), (mem_readDir_iff h n e).mpr hentry, rfl⟩

end Refine

end VectorGuard
